import CommandBar.Proofs.Text.Extract

/-!
# Reading a text by position, with every read checked

A reader that is handed what is left of a text cannot look beyond the end. One that goes by position
can, so here each read is checked: it fails if there is no character at the position. A reader that
never fails is one that never looks beyond the end.

- `PastEnd`, `charAt`: the character at a position, or the failure to read one.
- `spanEnd`, `wordEnds`: the end of a run of characters of a kind, and whether a word may end.
- `spanEnd_eq`, `wordEnds_eq`: neither ever fails.
- `spanEnd_word`, `spanEnd_blank`: so the end of a word is found, and the end of the blanks.
-/

namespace CommandBar

variable {text rest : List Char} {pos : Nat} {c : Char} {p : Char → Bool}

/-- A position that lies beyond the end of the text was read. -/
structure PastEnd where
  pos : Nat
  deriving Repr, DecidableEq

/-- The character at the position. -/
def charAt (text : List Char) (pos : Nat) : Except PastEnd Char :=
  match text[pos]? with
  | some c => .ok c
  | none => .error ⟨pos⟩

/-- The first position from `pos` on at which no character of the kind stands. -/
def spanEnd (p : Char → Bool) (text : List Char) (pos : Nat) : Except PastEnd Nat :=
  if _h : pos < text.length then do
    if p (← charAt text pos) then spanEnd p text (pos + 1) else return pos
  else return pos
termination_by text.length - pos

/-- Whether a word may end at the position. -/
def wordEnds (text : List Char) (pos : Nat) : Except PastEnd Bool :=
  if pos < text.length then do return isBlank (← charAt text pos) else return true

/-! ## No read fails -/

theorem lt_length_of_drop_eq_cons (h : text.drop pos = c :: rest) : pos < text.length :=
  (List.getElem?_eq_some_iff.mp (drop_eq_cons_iff.mp h).1).1

theorem exists_drop_eq_cons (h : pos < text.length) : ∃ c rest, text.drop pos = c :: rest :=
  ⟨_, _, List.drop_eq_getElem_cons h⟩

/-- What is left at a position starts with the character that is read there. -/
theorem charAt_of_drop_eq_cons (h : text.drop pos = c :: rest) : charAt text pos = .ok c := by
  rw [charAt, (drop_eq_cons_iff.mp h).1]

theorem charAt_of_drop_eq_nil (h : text.drop pos = []) : charAt text pos = .error ⟨pos⟩ := by
  rw [charAt, List.getElem?_eq_none (List.drop_eq_nil_iff.mp h)]

theorem not_lt_length_of_drop_eq_nil (h : text.drop pos = []) : ¬ pos < text.length :=
  Nat.not_lt.mpr (List.drop_eq_nil_iff.mp h)

theorem spanEnd_eq (p : Char → Bool) (text : List Char) (pos : Nat) :
    spanEnd p text pos = .ok (pos + ((text.drop pos).takeWhile p).length) := by
  induction hs : text.drop pos generalizing pos with
  | nil =>
    rw [spanEnd, dif_neg (not_lt_length_of_drop_eq_nil hs)]
    rfl
  | cons c rest ih =>
    rw [spanEnd, dif_pos (lt_length_of_drop_eq_cons hs), charAt_of_drop_eq_cons hs]
    show (if p c = true then spanEnd p text (pos + 1) else .ok pos) = _
    cases hc : p c with
    | true =>
      rw [if_pos rfl, ih _ (drop_eq_cons_iff.mp hs).2, List.takeWhile_cons_of_pos hc,
        List.length_cons]
      exact congrArg Except.ok (by omega)
    | false =>
      rw [if_neg Bool.false_ne_true, List.takeWhile_cons_of_neg (by simp [hc])]
      rfl

theorem spanEnd_word (text : List Char) (pos : Nat) :
    spanEnd (!isBlank ·) text pos = .ok (afterWordAt text pos) :=
  spanEnd_eq (!isBlank ·) text pos

theorem spanEnd_blank (text : List Char) (pos : Nat) :
    spanEnd isBlank text pos = .ok (afterBlanksAt text pos) :=
  spanEnd_eq isBlank text pos

/-- Behind the characters of a kind that stand at a position, what they leave is left. -/
theorem length_sub_length_dropWhile (p : Char → Bool) (h : pos ≤ text.length) :
    text.length - ((text.drop pos).dropWhile p).length =
      pos + ((text.drop pos).takeWhile p).length := by
  have hsplit := List.takeWhile_append_dropWhile (p := p) (l := text.drop pos)
  have hlength := congrArg List.length hsplit
  rw [List.length_append, List.length_drop] at hlength
  omega

theorem wordEnds_eq (text : List Char) (pos : Nat) :
    wordEnds text pos = .ok (isWordEndAt text pos) := by
  rw [wordEnds, isWordEndAt]
  cases hs : text.drop pos with
  | nil =>
    rw [if_neg (not_lt_length_of_drop_eq_nil hs)]
    rfl
  | cons c rest =>
    rw [if_pos (lt_length_of_drop_eq_cons hs), charAt_of_drop_eq_cons hs]
    rfl

end CommandBar
