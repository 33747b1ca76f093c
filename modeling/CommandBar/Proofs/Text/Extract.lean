import CommandBar.Text.Position

/-!
# Pieces of a text, by position

Readers work on what is left of a text; positions say where in the text that is. What is left at a
position is `text.drop pos`, and the piece between two positions is `text.extract start stop`. The
lemmas lead from a split of what is left to positions and back.

- `drop_eq_extract_append`: what is left splits at any later position.
- `extract_add_length`, `drop_add_length`: a split of what is left, by the length of the piece.
- `drop_length_sub_length`: what a reader leaves is what is left at the position it stopped at.
- `drop_eq_append_drop_iff`: a piece between two positions.
- `eq_of_drop_eq`: what is left at a position tells the position.
- `mem_drop_of_getElem?`, `mem_extract_of_getElem?`: the characters of a piece.
- `extract_span`, `drop_span`: the run of characters of a kind at a position, and what is left
  behind it.
- `extract_afterWordAt`, `drop_afterWordAt`: the word at a position, and what is left behind it.
- `drop_afterBlanksAt`, `afterBlanksAt_eq`: what is left behind the blanks at a position, and where
  that is.
-/

namespace CommandBar

variable {text : List Char} {pos stop : Nat}

/-- What is left splits at any later position. -/
theorem drop_eq_extract_append (h : pos ≤ stop) :
    text.drop pos = text.extract pos stop ++ text.drop stop := by
  have hdrop : text.drop stop = (text.drop pos).drop (stop - pos) := by
    rw [List.drop_drop, Nat.add_sub_cancel' h]
  rw [hdrop, List.extract_eq_take_drop, List.take_append_drop]

/-- Behind a piece that is left at a position, the rest is left. -/
theorem drop_add_length {piece rest : List Char} (h : text.drop pos = piece ++ rest) :
    text.drop (pos + piece.length) = rest := by
  rw [← List.drop_drop, h, List.drop_left]

/-- The piece lies between the position it is left at and the one behind it. -/
theorem extract_add_length {piece rest : List Char} (h : text.drop pos = piece ++ rest) :
    text.extract pos (pos + piece.length) = piece := by
  rw [List.extract_eq_take_drop, h, Nat.add_sub_cancel_left, List.take_left]

/-- A character is left at a position exactly if it stands there. -/
theorem drop_eq_cons_iff {c : Char} {rest : List Char} :
    text.drop pos = c :: rest ↔ text[pos]? = some c ∧ text.drop (pos + 1) = rest := by
  constructor
  · intro h
    constructor
    · rw [← List.head?_drop, h, List.head?_cons]
    · rw [← List.tail_drop, h, List.tail_cons]
  · rintro ⟨hc, rfl⟩
    obtain ⟨hlt, rfl⟩ := List.getElem?_eq_some_iff.mp hc
    exact List.drop_eq_getElem_cons hlt

/-- What a reader leaves of a text is what is left at the position it stopped at. -/
theorem drop_length_sub_length {rest : List Char} (h : rest <:+ text.drop pos) :
    text.drop (text.length - rest.length) = rest :=
  (List.suffix_iff_eq_drop.mp (h.trans (List.drop_suffix pos text))).symm

/-- A position that is not beyond the end can be told from what is left there. -/
theorem length_sub_length_drop (h : stop ≤ text.length) :
    text.length - (text.drop stop).length = stop := by
  rw [List.length_drop]
  omega

/-- Where the same is left, the position is the same. -/
theorem eq_of_drop_eq {stop' : Nat} (hstop : stop ≤ text.length) (hstop' : stop' ≤ text.length)
    (h : text.drop stop = text.drop stop') : stop = stop' := by
  rw [← length_sub_length_drop hstop, ← length_sub_length_drop hstop', h]

/-- If a piece reaches from one position to another, its length is the distance between them. -/
theorem eq_add_length_of_drop_eq {piece : List Char} (hne : piece ≠ []) (hstop : stop ≤ text.length)
    (h : text.drop pos = piece ++ text.drop stop) : stop = pos + piece.length := by
  have hlength := congrArg List.length h
  rw [List.length_append, List.length_drop, List.length_drop] at hlength
  have hpos := List.length_pos_iff.mpr hne
  omega

/-- **A piece between two positions** is what is left at the first, in front of what is left at the
second. -/
theorem drop_eq_append_drop_iff {piece : List Char} (hne : piece ≠ [])
    (hstop : stop ≤ text.length) :
    text.drop pos = piece ++ text.drop stop ↔ text.extract pos stop = piece := by
  constructor
  · intro h
    obtain rfl := eq_add_length_of_drop_eq hne hstop h
    exact extract_add_length h
  · rintro rfl
    refine drop_eq_extract_append (Nat.le_of_not_le fun hle => hne ?_)
    rw [List.extract_eq_take_drop, Nat.sub_eq_zero_of_le hle, List.take_zero]

/-! ## The characters of a piece -/

theorem mem_drop_of_getElem? {i : Nat} {c : Char} (hpos : pos ≤ i) (hc : text[i]? = some c) :
    c ∈ text.drop pos := by
  refine List.mem_of_getElem? (show (text.drop pos)[i - pos]? = some c from ?_)
  rw [List.getElem?_drop, Nat.add_sub_cancel' hpos]
  exact hc

theorem mem_extract_of_getElem? {i : Nat} {c : Char} (hpos : pos ≤ i) (hstop : i < stop)
    (hc : text[i]? = some c) : c ∈ text.extract pos stop := by
  refine List.mem_of_getElem? (show (text.extract pos stop)[i - pos]? = some c from ?_)
  rw [List.extract_eq_take_drop, List.getElem?_take_of_lt (by omega), List.getElem?_drop,
    Nat.add_sub_cancel' hpos]
  exact hc

/-! ## Runs of characters of a kind -/

theorem extract_span (p : Char → Bool) (text : List Char) (pos : Nat) :
    text.extract pos (pos + ((text.drop pos).takeWhile p).length) = (text.drop pos).takeWhile p :=
  extract_add_length List.takeWhile_append_dropWhile.symm

theorem drop_span (p : Char → Bool) (text : List Char) (pos : Nat) :
    text.drop (pos + ((text.drop pos).takeWhile p).length) = (text.drop pos).dropWhile p :=
  drop_add_length List.takeWhile_append_dropWhile.symm

/-! ## The word at a position -/

theorem extract_afterWordAt (text : List Char) (pos : Nat) :
    text.extract pos (afterWordAt text pos) = word (text.drop pos) :=
  extract_span (!isBlank ·) text pos

theorem drop_afterWordAt (text : List Char) (pos : Nat) :
    text.drop (afterWordAt text pos) = afterWord (text.drop pos) :=
  drop_span (!isBlank ·) text pos

/-- The word at a position is empty if it ends where it starts. -/
theorem afterWordAt_eq_self_iff : afterWordAt text pos = pos ↔ word (text.drop pos) = [] := by
  rw [afterWordAt, ← List.length_eq_zero_iff]
  omega

theorem afterWordAt_le_length (h : pos ≤ text.length) : afterWordAt text pos ≤ text.length := by
  have hle := (List.takeWhile_prefix (!isBlank ·) (l := text.drop pos)).length_le
  rw [List.length_drop] at hle
  show pos + (word (text.drop pos)).length ≤ text.length
  rw [word]
  omega

/-! ## The blanks at a position -/

theorem le_afterBlanksAt (text : List Char) (pos : Nat) : pos ≤ afterBlanksAt text pos :=
  Nat.le_add_right _ _

theorem afterBlanksAt_le_length (h : pos ≤ text.length) : afterBlanksAt text pos ≤ text.length := by
  have hle := (List.takeWhile_prefix isBlank (l := text.drop pos)).length_le
  rw [List.length_drop] at hle
  rw [afterBlanksAt]
  omega

theorem drop_afterBlanksAt (text : List Char) (pos : Nat) :
    text.drop (afterBlanksAt text pos) = skipBlanks (text.drop pos) :=
  drop_span isBlank text pos

theorem allBlank_extract_afterBlanksAt (text : List Char) (pos : Nat) :
    AllBlank (text.extract pos (afterBlanksAt text pos)) := by
  rw [afterBlanksAt, extract_span isBlank]
  exact of_mem_takeWhile isBlank (text.drop pos)

/-- Behind the blanks at a position there is the next character that is not blank. -/
theorem afterBlanksAt_eq {start : Nat} {c : Char} (hpos : pos ≤ start)
    (hgap : AllBlank (text.extract pos start)) (hc : text[start]? = some c)
    (hblank : isBlank c = false) : afterBlanksAt text pos = start := by
  obtain ⟨hlt, -⟩ := List.getElem?_eq_some_iff.mp hc
  have hstop : ∀ d rest, text.drop start = d :: rest → isBlank d = false := by
    intro d rest hs
    obtain rfl := Option.some.inj (hc.symm.trans (drop_eq_cons_iff.mp hs).1)
    exact hblank
  have hspan := (span_append hgap hstop).1
  rw [← drop_eq_extract_append hpos] at hspan
  have hlength : (text.extract pos start).length = start - pos := by
    rw [List.extract_eq_take_drop, List.length_take, List.length_drop]
    omega
  rw [afterBlanksAt, hspan, hlength]
  omega

/-- Where only blanks are left, there is nothing behind them. -/
theorem length_le_afterBlanksAt_iff :
    text.length ≤ afterBlanksAt text pos ↔ AllBlank (text.drop pos) := by
  rw [← skipBlanks_eq_nil_iff, ← drop_afterBlanksAt, List.drop_eq_nil_iff]

end CommandBar
