import CommandBar.Proofs.Quoted.Checked
import CommandBar.Proofs.Search.Position
import Mathlib

/-!
# Reading a facet by position, with every read checked

Behind each colon the reader of facets looks for a quoted run, and behind each run it asks whether a
word or a colon follows. Where the text ends there is neither, so whether it has ended is asked
first.

- `valueEnds`, `readIdentifierAt`, `readValueAt`, `readValuesAt`, `readFacetAt`: the readers of
  facets, by position.
- `readFacetAt_eq`: they find what the readers of what is left find, and no read fails.
- `facetAt?_committed`: **the facet that is found is the one that stands there**, and nothing is
  read beyond the end of the text.
-/

namespace CommandBar.Search

variable {α : Type} {text rest : List Char} {pos stop : Nat} {c : Char} {value : String}

/-- Whether a value may end at the position. -/
def valueEnds (text : List Char) (pos : Nat) : Except PastEnd Bool := do
  if ← wordEnds text pos then return true else return (← charAt text pos) = ':'

/-- The longest identifier that starts at the position, and the position after it. -/
def readIdentifierAt (text : List Char) (pos : Nat) : Except PastEnd (Option (String × Nat)) :=
  if pos < text.length then do
    if Identifier.isFirst (← charAt text pos) then
      let stop ← spanEnd Identifier.isLater text (pos + 1)
      return some (String.ofList (text.extract pos stop), stop)
    else return none
  else return none

/-- The value that starts at the position, and the position after it. -/
def readValueAt (text : List Char) (pos : Nat) : Except PastEnd (Option (String × Nat)) := do
  match ← Quoted.findRunAt (valueEnds text) text pos with
  | some found => return some found
  | none =>
    let stop ← spanEnd isBareValueChar text pos
    if stop = pos then return none
    else return some (String.ofList (text.extract pos stop), stop)

/-- What was read, and the position at which the rest of the text is left. -/
def located (text : List Char) (found : α × List Char) : α × Nat :=
  (found.1, text.length - found.2.length)

/-! ## No read fails -/

theorem valueEnds_eq (text : List Char) (pos : Nat) :
    valueEnds text pos = .ok (isValueEndAt text pos) := by
  rw [valueEnds, wordEnds_eq, Outcome.ok_bind, isValueEndAt]
  cases hend : isWordEndAt text pos with
  | true => rfl
  | false =>
    -- the text goes on, so there is a character to ask about
    cases hs : text.drop pos with
    | nil =>
      rw [isWordEndAt, hs] at hend
      cases hend
    | cons c rest =>
      rw [charAt_of_drop_eq_cons hs, (drop_eq_cons_iff.mp hs).1]
      show Except.ok (decide (c = ':')) = .ok (false || (some c == some ':'))
      rw [Bool.false_or]
      rfl

theorem readIdentifierAt_eq (text : List Char) (pos : Nat) :
    readIdentifierAt text pos = .ok ((identifier? (text.drop pos)).map (located text)) := by
  rw [readIdentifierAt]
  cases hs : text.drop pos with
  | nil =>
    rw [if_neg (not_lt_length_of_drop_eq_nil hs)]
    rfl
  | cons c s =>
    have hlt := lt_length_of_drop_eq_cons hs
    obtain ⟨-, hrest⟩ := drop_eq_cons_iff.mp hs
    rw [if_pos hlt, charAt_of_drop_eq_cons hs, Outcome.ok_bind, identifier?]
    split
    · have hstop := length_sub_length_dropWhile Identifier.isLater (Nat.succ_le_of_lt hlt)
      have hsplit : text.drop pos =
          (c :: s.takeWhile Identifier.isLater) ++ s.dropWhile Identifier.isLater := by
        rw [hs, List.cons_append, List.takeWhile_append_dropWhile]
      have hname : text.extract pos (pos + 1 + (s.takeWhile Identifier.isLater).length) =
          c :: s.takeWhile Identifier.isLater := by
        rw [Nat.add_assoc, Nat.add_comm 1]
        exact extract_add_length hsplit
      rw [hrest] at hstop
      rw [spanEnd_eq, Outcome.ok_bind, hrest, hname, ← hstop]
      rfl
    · rfl

theorem readValueAt_eq (text : List Char) (pos : Nat) :
    readValueAt text pos = .ok ((value? (text.drop pos)).map (located text)) := by
  have hend (stop : Nat) : valueEnds text stop = .ok (atValueEnd (text.drop stop)) := by
    rw [valueEnds_eq, atValueEnd_drop]
  rw [readValueAt, Quoted.findRunAt_eq hend, Outcome.ok_bind, value?]
  cases Quoted.run? atValueEnd (text.drop pos) with
  | some close => rfl
  | none =>
    show (spanEnd isBareValueChar text pos >>= _) = _
    rw [spanEnd_eq, Outcome.ok_bind]
    by_cases hbare : (text.drop pos).takeWhile isBareValueChar = []
    · rw [hbare, List.length_nil, Nat.add_zero, if_pos rfl]
      rfl
    · have hlt : pos < text.length := by
        refine Nat.lt_of_not_le fun hle => hbare ?_
        rw [List.drop_eq_nil_iff.mpr hle]
        rfl
      have hlength := List.length_pos_iff.mpr hbare
      have hstop := length_sub_length_dropWhile isBareValueChar (Nat.le_of_lt hlt)
      rw [if_neg (by omega), extract_span isBareValueChar, ← hstop]
      show _ = Except.ok (Option.map _ (if _ then _ else _))
      rw [if_neg (by simpa using hbare)]
      rfl

/-- A value does not end in front of where it starts. -/
theorem le_of_readValueAt (h : readValueAt text pos = .ok (some (value, stop)))
    (hpos : pos ≤ text.length) : pos ≤ stop := by
  rw [readValueAt_eq] at h
  obtain ⟨⟨value', rest⟩, hvalue, heq⟩ := Option.map_eq_some_iff.mp (Except.ok.inj h)
  obtain ⟨-, rfl⟩ := Prod.mk.inj heq
  have hle := length_rest_le_of_value? hvalue
  rw [List.length_drop] at hle
  show pos ≤ text.length - rest.length
  omega

/-- The values that start at the position, each behind its colon, and the position after them. -/
def readValuesAt (text : List Char) (pos : Nat) :
    Except PastEnd (Option (List String × Nat)) :=
  if hpos : pos < text.length then do
    if (← charAt text pos) = ':' then
      match h : readValueAt text (pos + 1) with
      | .error e => .error e
      | .ok none => return none
      | .ok (some (value, stop)) =>
        have _ := le_of_readValueAt h hpos
        return (← readValuesAt text stop).map fun (values, stop) => (value :: values, stop)
    else return some ([], pos)
  else return some ([], pos)
termination_by text.length - pos

/-- The facet that starts at the position, and the position after it. -/
def readFacetAt (text : List Char) (pos : Nat) : Except PastEnd (Option (Entry × Nat)) := do
  match ← readIdentifierAt text pos with
  | none => return none
  | some (name, stop) =>
    match ← readValuesAt text stop with
    | none => return none
    | some (values, stop) =>
      if values.isEmpty then return none
      else if ← wordEnds text stop then return some (name :: values, stop) else return none

theorem readValuesAt_of_colon (hs : text.drop pos = ':' :: rest) :
    readValuesAt text pos = do
      match ← readValueAt text (pos + 1) with
      | none => return none
      | some (value, stop) =>
        return (← readValuesAt text stop).map fun (values, stop) => (value :: values, stop) := by
  rw [readValuesAt, dif_pos (lt_length_of_drop_eq_cons hs), charAt_of_drop_eq_cons hs,
    Outcome.ok_bind, if_pos rfl]
  split
  · next h =>
    rw [h]
    rfl
  · next h =>
    rw [h]
    rfl
  · next h =>
    conv => rhs; rw [h]
    rfl

theorem readValuesAt_of_ne_colon (hs : ∀ rest, text.drop pos ≠ ':' :: rest) :
    readValuesAt text pos = .ok (some ([], pos)) := by
  rw [readValuesAt]
  split
  · next hpos =>
    obtain ⟨c, rest, hcons⟩ := exists_drop_eq_cons hpos
    have hc : c ≠ ':' := by
      rintro rfl
      exact hs rest hcons
    rw [charAt_of_drop_eq_cons hcons, Outcome.ok_bind, if_neg hc]
    rfl
  · rfl

/-- **The values at a position are those of what is left there**, and no read fails. -/
theorem readValuesAt_eq (hpos : pos ≤ text.length) :
    readValuesAt text pos = .ok ((values? (text.drop pos)).map (located text)) := by
  generalize hs : text.drop pos = s
  fun_induction values? s generalizing pos with
  | case1 s hvalue =>
    rw [readValuesAt_of_colon hs, readValueAt_eq, (drop_eq_cons_iff.mp hs).2, hvalue]
    rfl
  | case2 s value rest hvalue _ ih =>
    have hsuffix := (value?_eq_some_iff.mp hvalue).suffix
    rw [← (drop_eq_cons_iff.mp hs).2] at hsuffix
    rw [readValuesAt_of_colon hs, readValueAt_eq, (drop_eq_cons_iff.mp hs).2, hvalue]
    show (readValuesAt text (text.length - rest.length) >>= _) = _
    rw [ih (Nat.sub_le _ _) (drop_length_sub_length hsuffix)]
    cases values? rest with
    | none => rfl
    | some found => rfl
  | case3 s hcolon =>
    subst hs
    rw [readValuesAt_of_ne_colon hcolon, Option.map_some, located, length_sub_length_drop hpos]

/-- **The facet at a position is the one that is found there**, and no read fails. -/
theorem readFacetAt_eq (text : List Char) (pos : Nat) :
    readFacetAt text pos = .ok (facetAt? text pos) := by
  rw [readFacetAt, readIdentifierAt_eq, Outcome.ok_bind, facetAt?, facet?]
  cases hname : identifier? (text.drop pos) with
  | none => rfl
  | some found =>
    obtain ⟨name, s⟩ := found
    have hs := drop_length_sub_length (identifier?_eq_some_iff.mp hname).suffix
    dsimp only [Option.map_some, located]
    rw [readValuesAt_eq (Nat.sub_le _ _), hs, Outcome.ok_bind]
    cases hvalues : values? s with
    | none => rfl
    | some found =>
      obtain ⟨values, rest⟩ := found
      have hsuffix := (values?_eq_some_iff.mp hvalues).suffix
      rw [← hs] at hsuffix
      dsimp only [Option.map_some, located]
      rw [wordEnds_eq, isWordEndAt, drop_length_sub_length hsuffix, Outcome.ok_bind]
      cases values.isEmpty with
      | true => rfl
      | false =>
        cases atWordEnd rest with
        | true => rfl
        | false => rfl

/-! ## The committed reader -/

/-- **The reader of facets, at any position of any text.** It finds the facet that stands there: the
longest identifier, and behind each colon the longest quoted run with which a value may end, or else
the longest bare value. There is at most one such facet. It has a name and a value at least, it
takes up some of the text and ends inside the text, where a word may end. Reading it character by
character, with every read checked, gives the same and never fails, so nothing is read beyond the
end. -/
theorem facetAt?_committed (text : List Char) (pos : Nat) :
    (∀ entry stop, facetAt? text pos = some (entry, stop) ↔ IsFacetAt text pos stop entry) ∧
    (∀ entry entry' stop stop', IsFacetAt text pos stop entry → IsFacetAt text pos stop' entry' →
      entry = entry' ∧ stop = stop') ∧
    (∀ entry stop, facetAt? text pos = some (entry, stop) →
      pos < stop ∧ stop ≤ text.length ∧ 2 ≤ entry.length ∧ isWordEndAt text stop = true) ∧
    readFacetAt text pos = .ok (facetAt? text pos) := by
  refine ⟨?_, ?_, ?_, readFacetAt_eq text pos⟩
  · intro entry stop
    exact facetAt?_eq_some_iff_isFacetAt
  · intro entry entry' stop stop' h h'
    exact h.unique h'
  · intro entry stop hfound
    have hfacet := facetAt?_eq_some_iff_isFacetAt.mp hfound
    have hstop := (isFacetAt_iff.mp hfacet).1
    exact ⟨hfacet.start_lt_stop, hstop, hfacet.two_le_length, hfacet.isWordEndAt⟩

/-- The text `go a:"x\" y":b c`, in which a value may end in front of the blank as well as in front
of the last colon. -/
def colonBehindQuote : List Char := "go a:\"x\\\" y\":b c".toList

/-- The longer of the two runs is the value, and the value behind it is bare. -/
theorem facetAt?_committed_colonBehindQuote :
    IsFacetAt colonBehindQuote 3 14 ["a", "x\" y", "b"] ∧
      isWordEndAt colonBehindQuote 14 = true ∧
      readFacetAt colonBehindQuote 3 = .ok (some (["a", "x\" y", "b"], 14)) ∧
      ∀ entry stop, IsFacetAt colonBehindQuote 3 stop entry → stop = 14 := by
  obtain ⟨hfinds, hunique, hbounds, hreads⟩ := facetAt?_committed colonBehindQuote 3
  have hfound : facetAt? colonBehindQuote 3 = some (["a", "x\" y", "b"], 14) := by cbv
  have hfacet := (hfinds _ _).mp hfound
  refine ⟨hfacet, (hbounds _ _ hfound).2.2.2, hreads.trans (congrArg Except.ok hfound), ?_⟩
  intro entry stop h
  exact (hunique _ _ _ _ h hfacet).2

end CommandBar.Search
