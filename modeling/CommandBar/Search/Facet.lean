import CommandBar.Entry
import CommandBar.Quoted.Run
import CommandBar.Search.Identifier
import CommandBar.Text.Word

/-!
# Facets

A facet such as `author:ann` or `sent:monday:"last week"` is an identifier and at least one value,
each behind a colon. A value is a quoted run, or else a run of characters that are no blank, colon
or quote. A facet ends only where a word may end.

- `value?`: the value that starts a text. Of several quoted runs the longest behind which a value
  may end is taken, and that is final: a shorter one is not tried when the rest turns out to be
  wrong.
- `values?`: the values, each behind its colon.
- `values?_colon`, `values?_of_ne_colon`: the values of a text, by whether a colon is in front.
- `facet?`: the facet that starts a text.
- `facetAt?`: the same at a position.
- `length_rest_lt_of_facet?`: a facet is never empty, so reading facets comes to an end.
-/

namespace CommandBar.Search

/-- A value may end here: where a word may end, or where a colon announces the next value. -/
def atValueEnd : List Char → Bool
  | ':' :: _ => true
  | s => atWordEnd s

/-- In front of anything but a colon, a value ends where a word does. -/
theorem atValueEnd_cons {c : Char} {s : List Char} (hc : c ≠ ':') :
    atValueEnd (c :: s) = isBlank c := by
  unfold atValueEnd
  split
  · next h => exact absurd (List.cons.inj h).1 hc
  · rfl

/-- The character may stand in a value that is not quoted. -/
def isBareValueChar (c : Char) : Bool :=
  !(isBlank c || c = ':' || Quoted.isGlyph c)

/-- The value that starts the text, and what follows it. -/
def value? (s : List Char) : Option (String × List Char) :=
  match Quoted.run? atValueEnd s with
  | some close => some (close.content, close.rest)
  | none =>
    let bare := s.takeWhile isBareValueChar
    if bare.isEmpty then none else some (String.ofList bare, s.dropWhile isBareValueChar)

theorem length_rest_le_of_value? {s rest : List Char} {value : String}
    (h : value? s = some (value, rest)) : rest.length ≤ s.length := by
  rw [value?] at h
  split at h
  · next hrun =>
    cases h
    exact Nat.le_of_lt (Quoted.length_rest_lt_of_run? hrun)
  · dsimp only at h
    split at h
    · cases h
    · cases h
      exact (List.dropWhile_sublist _).length_le

/-- The values that start the text, each behind its colon, and what follows them. There may be
none; but where there is a colon, there has to be a value. -/
def values? : List Char → Option (List String × List Char)
  | ':' :: s =>
    match h : value? s with
    | none => none
    | some (value, rest) =>
      have _ := length_rest_le_of_value? h
      (values? rest).map fun (values, rest) => (value :: values, rest)
  | s => some ([], s)
termination_by s => s.length

/-- Behind a colon there is a value, and then there are the others. -/
theorem values?_colon (s : List Char) :
    values? (':' :: s) =
      (value? s).bind fun (value, rest) => (values? rest).map (Prod.map (value :: ·) id) := by
  rw [values?]
  split
  · next hvalue =>
    rw [hvalue]
    rfl
  · next hvalue =>
    conv => rhs; rw [hvalue]
    rfl

/-- Without a colon in front there is no value. -/
theorem values?_of_ne_colon {s : List Char} (h : ∀ r, s ≠ ':' :: r) :
    values? s = some ([], s) := by
  rw [values?]
  exact h

theorem length_rest_le_of_values? {s rest : List Char} {values : List String}
    (h : values? s = some (values, rest)) : rest.length ≤ s.length := by
  fun_induction values? s generalizing values with
  | case1 => cases h
  | case2 s value rest' hvalue _ ih =>
    obtain ⟨⟨values', _⟩, hvalues, heq⟩ := Option.map_eq_some_iff.mp h
    cases heq
    have hle := length_rest_le_of_value? hvalue
    have := ih hvalues
    simp only [List.length_cons]
    omega
  | case3 =>
    cases h
    exact Nat.le_refl _

/-- The facet that starts the text, and what follows it. -/
def facet? (s : List Char) : Option (Entry × List Char) :=
  match identifier? s with
  | none => none
  | some (name, s) =>
    match values? s with
    | none => none
    | some (values, rest) =>
      if !values.isEmpty && atWordEnd rest then some (name :: values, rest) else none

/-- A facet leaves less than there was to read. -/
theorem length_rest_lt_of_facet? {s rest : List Char} {entry : Entry}
    (h : facet? s = some (entry, rest)) : rest.length < s.length := by
  rw [facet?] at h
  split at h
  · cases h
  · next hname =>
    split at h
    · cases h
    · next hvalues =>
      split at h
      · cases h
        have hlt := length_rest_lt_of_identifier? hname
        have hle := length_rest_le_of_values? hvalues
        omega
      · cases h

/-- The facet that starts at the position, and the position after it. -/
def facetAt? (text : List Char) (pos : Nat) : Option (Entry × Nat) :=
  (facet? (text.drop pos)).map fun (entry, rest) => (entry, text.length - rest.length)

end CommandBar.Search
