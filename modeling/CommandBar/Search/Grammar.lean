import CommandBar.Quoted.Grammar
import CommandBar.Search.Facet

/-!
# The grammar of facets

What a facet is, said without a reader. A reader that were free to try every way to close a quoted
value would accept more texts; the two grammars differ in what they demand of a value.

- `IsIdentifier`, `IsValue`, `IsValues`, `IsFacet`: a text starts with such a thing. A quoted value
  is the longest run behind which a value may end.
- `facet?_eq_some_iff`: the reader finds exactly the facets of the grammar.
- `DerivesIdentifier`, `DerivesValue`, `DerivesValues`, `DerivesFacet`: the grammar in which an
  identifier may end anywhere and a quoted value may be any run.
-/

namespace CommandBar.Search

/-- The text `s` starts with the identifier, which `rest` does not continue. -/
inductive IsIdentifier : (s : List Char) → (name : String) → (rest : List Char) → Prop
  | mk {c : Char} {later rest : List Char} :
      Identifier.isFirst c = true → (∀ d ∈ later, Identifier.isLater d = true) →
        (∀ d r, rest = d :: r → Identifier.isLater d = false) →
        IsIdentifier (c :: (later ++ rest)) (String.ofList (c :: later)) rest

/-- The text `s` starts with the value, and `rest` follows. A value is bare only where no quoted run
could be read, and then it is as long as it can be. -/
inductive IsValue : (s : List Char) → (value : String) → (rest : List Char) → Prop
  | quoted {s content rest : List Char} :
      Quoted.IsLongestRun atValueEnd s content rest → IsValue s (String.ofList content) rest
  | bare {w rest : List Char} :
      w ≠ [] → (∀ c ∈ w, isBareValueChar c = true) →
        (∀ c r, rest = c :: r → isBareValueChar c = false) →
        (∀ content rest', Quoted.IsRun (w ++ rest) content rest' → atValueEnd rest' = false) →
        IsValue (w ++ rest) (String.ofList w) rest

/-- The text `s` starts with the values, each behind its colon, and `rest` follows, which is not
another colon. -/
inductive IsValues : (s : List Char) → (values : List String) → (rest : List Char) → Prop
  | done {rest : List Char} : (∀ r, rest ≠ ':' :: r) → IsValues rest [] rest
  | cons {s rest rest' : List Char} {value : String} {values : List String} :
      IsValue s value rest → IsValues rest values rest' →
        IsValues (':' :: s) (value :: values) rest'

/-- The text `s` starts with the facet, and `rest` follows. -/
inductive IsFacet : (s : List Char) → Entry → (rest : List Char) → Prop
  | mk {s s' rest : List Char} {name : String} {values : List String} :
      IsIdentifier s name s' → IsValues s' values rest → values ≠ [] → atWordEnd rest = true →
        IsFacet s (name :: values) rest

/-! ## The reader finds the facets of the grammar -/

theorem identifier?_eq_some_iff {s rest : List Char} {name : String} :
    identifier? s = some (name, rest) ↔ IsIdentifier s name rest := by
  constructor
  · intro h
    cases s with
    | nil => cases h
    | cons c s =>
      rw [identifier?] at h
      split at h
      · next hc =>
        cases h
        have := IsIdentifier.mk hc (of_mem_takeWhile _ s) (of_dropWhile_eq_cons _ s)
        rwa [List.takeWhile_append_dropWhile] at this
      · cases h
  · rintro ⟨hc, hlater, hrest⟩
    obtain ⟨htake, hdrop⟩ := span_append hlater hrest
    simp [identifier?, hc, htake, hdrop]

theorem value?_eq_some_iff {s rest : List Char} {value : String} :
    value? s = some (value, rest) ↔ IsValue s value rest := by
  constructor
  · intro h
    rw [value?] at h
    split at h
    · next hrun =>
      cases h
      exact .quoted (Quoted.run?_eq_some_iff.mp hrun)
    · next hrun =>
      dsimp only at h
      split at h
      · cases h
      · next hne =>
        cases h
        have := IsValue.bare (by simpa using hne) (of_mem_takeWhile _ s)
          (of_dropWhile_eq_cons _ s)
        rw [List.takeWhile_append_dropWhile] at this
        exact this (Quoted.run?_eq_none_iff.mp hrun)
  · intro h
    cases h with
    | @quoted _ content _ hrun =>
      have : Quoted.run? atValueEnd s = some ⟨content.reverse, rest⟩ :=
        Quoted.run?_eq_some_iff.mpr (by simpa using hrun)
      simp [value?, this, Quoted.Close.content]
    | bare hne hw hrest hrun =>
      obtain ⟨htake, hdrop⟩ := span_append hw hrest
      simp [value?, Quoted.run?_eq_none_iff.mpr hrun, htake, hdrop, hne]

theorem values?_eq_some_iff {s rest : List Char} {values : List String} :
    values? s = some (values, rest) ↔ IsValues s values rest := by
  constructor
  · intro h
    fun_induction values? s generalizing values with
    | case1 => cases h
    | case2 s value rest' hvalue _ ih =>
      obtain ⟨⟨values', _⟩, hvalues, heq⟩ := Option.map_eq_some_iff.mp h
      cases heq
      exact .cons (value?_eq_some_iff.mp hvalue) (ih hvalues)
    | case3 s hs =>
      cases h
      exact .done hs
  · intro h
    induction h with
    | @done rest hrest =>
      rw [values?]
      exact hrest
    | cons hvalue _ ih =>
      rw [values?]
      split
      · next hnone =>
        rw [value?_eq_some_iff.mpr hvalue] at hnone
        cases hnone
      · next hsome =>
        rw [value?_eq_some_iff.mpr hvalue] at hsome
        cases hsome
        rw [ih]
        rfl

/-- **The reader finds exactly the facets of the grammar.** -/
theorem facet?_eq_some_iff {s rest : List Char} {entry : Entry} :
    facet? s = some (entry, rest) ↔ IsFacet s entry rest := by
  constructor
  · intro h
    rw [facet?] at h
    split at h
    · cases h
    · next hname =>
      split at h
      · cases h
      · next hvalues =>
        split at h
        · next hend =>
          cases h
          simp only [Bool.and_eq_true, Bool.not_eq_true', List.isEmpty_eq_false_iff] at hend
          exact .mk (identifier?_eq_some_iff.mp hname) (values?_eq_some_iff.mp hvalues) hend.1
            hend.2
        · cases h
  · rintro ⟨hname, hvalues, hne, hend⟩
    simp [facet?, identifier?_eq_some_iff.mpr hname, values?_eq_some_iff.mpr hvalues, hne, hend]

/-! ## The grammar without commitment -/

/-- The text `s` can be read as starting with the identifier, which `rest` may continue. -/
inductive DerivesIdentifier : (s : List Char) → (name : String) → (rest : List Char) → Prop
  | mk {c : Char} {later rest : List Char} :
      Identifier.isFirst c = true → (∀ d ∈ later, Identifier.isLater d = true) →
        DerivesIdentifier (c :: (later ++ rest)) (String.ofList (c :: later)) rest

/-- The text `s` can be read as starting with the value: as any quoted run, or as characters that
may stand in a bare value. -/
inductive DerivesValue : (s : List Char) → (value : String) → (rest : List Char) → Prop
  | quoted {s content rest : List Char} :
      Quoted.IsRun s content rest → DerivesValue s (String.ofList content) rest
  | bare {w rest : List Char} :
      w ≠ [] → (∀ c ∈ w, isBareValueChar c = true) → DerivesValue (w ++ rest) (String.ofList w) rest

/-- The text `s` can be read as starting with the values, each behind its colon. -/
inductive DerivesValues : (s : List Char) → (values : List String) → (rest : List Char) → Prop
  | done {rest : List Char} : DerivesValues rest [] rest
  | cons {s rest rest' : List Char} {value : String} {values : List String} :
      DerivesValue s value rest → DerivesValues rest values rest' →
        DerivesValues (':' :: s) (value :: values) rest'

/-- The text `s` can be read as starting with the facet. -/
inductive DerivesFacet : (s : List Char) → Entry → (rest : List Char) → Prop
  | mk {s s' rest : List Char} {name : String} {values : List String} :
      DerivesIdentifier s name s' → DerivesValues s' values rest → values ≠ [] →
        atWordEnd rest = true → DerivesFacet s (name :: values) rest

end CommandBar.Search
