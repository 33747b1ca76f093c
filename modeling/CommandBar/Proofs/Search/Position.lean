import CommandBar.Proofs.Quoted.Longest
import CommandBar.Search.Grammar

/-!
# Facets by position

What a facet of a text is, said by positions alone: which piece is the identifier, and which piece
each value stands on.

- `isValueEndAt`: a value may end at a position.
- `IsIdentifierAt`, `IsValueAt`, `IsValuesAt`, `IsFacetAt`: such a thing stands on a piece of the
  text. A quoted value is the longest run behind which a value may end, and a value is bare only
  where there is no such run.
- `isFacetAt_iff`: it is what the grammar says of what is left at the position.
- `facetAt?_eq_some_iff_isFacetAt`: **the reader finds the facets of the text**.
-/

namespace CommandBar.Search

variable {text : List Char} {start stop : Nat}

/-- A value may end at the position: where a word may end, or in front of a colon. -/
def isValueEndAt (text : List Char) (pos : Nat) : Bool :=
  isWordEndAt text pos || text[pos]? == some ':'

/-- The identifier stands in the text from `start` up to `stop`, and no longer one does. -/
inductive IsIdentifierAt (text : List Char) (start stop : Nat) : (name : String) → Prop
  | mk {c : Char} {later : List Char} :
      stop ≤ text.length → text.extract start stop = c :: later →
        Identifier.isFirst c = true → (∀ d ∈ later, Identifier.isLater d = true) →
        (∀ d, text[stop]? = some d → Identifier.isLater d = false) →
        IsIdentifierAt text start stop (String.ofList (c :: later))

/-- The value stands in the text from `start` up to `stop`. -/
inductive IsValueAt (text : List Char) (start stop : Nat) : (value : String) → Prop
  | quoted {content : List Char} :
      Quoted.IsRunAt text start content stop → isValueEndAt text stop = true →
        (∀ content' stop', Quoted.IsRunAt text start content' stop' →
          isValueEndAt text stop' = true → stop' ≤ stop) →
        IsValueAt text start stop (String.ofList content)
  | bare :
      (∀ content stop', Quoted.IsRunAt text start content stop' →
        isValueEndAt text stop' = false) →
        stop ≤ text.length → text.extract start stop ≠ [] →
        (∀ c ∈ text.extract start stop, isBareValueChar c = true) →
        (∀ c, text[stop]? = some c → isBareValueChar c = false) →
        IsValueAt text start stop (String.ofList (text.extract start stop))

/-- The values stand in the text from `start` up to `stop`, each behind its colon, and at `stop`
there is not another colon. -/
inductive IsValuesAt (text : List Char) : (start stop : Nat) → (values : List String) → Prop
  | done {stop : Nat} : text[stop]? ≠ some ':' → IsValuesAt text stop stop []
  | cons {start next stop : Nat} {value : String} {values : List String} :
      text[start]? = some ':' → IsValueAt text (start + 1) next value →
        IsValuesAt text next stop values → IsValuesAt text start stop (value :: values)

/-- The facet stands in the text from `start` up to `stop`: the longest identifier, at least one
value, and then the end of the text or a blank. -/
inductive IsFacetAt (text : List Char) (start stop : Nat) : Entry → Prop
  | mk {next : Nat} {name : String} {values : List String} :
      IsIdentifierAt text start next name → IsValuesAt text next stop values → values ≠ [] →
        isWordEndAt text stop = true → IsFacetAt text start stop (name :: values)

/-! ## Position and what is left -/

/-- What holds of the character in front of what is left holds of the one at the position. -/
theorem forall_drop_eq_cons_iff {p : Char → Prop} :
    (∀ c rest, text.drop stop = c :: rest → p c) ↔ ∀ c, text[stop]? = some c → p c := by
  constructor
  · intro h c hc
    exact h c _ (drop_eq_cons_iff.mpr ⟨hc, rfl⟩)
  · intro h c rest hcons
    exact h c (drop_eq_cons_iff.mp hcons).1

theorem atValueEnd_drop (text : List Char) (pos : Nat) :
    atValueEnd (text.drop pos) = isValueEndAt text pos := by
  rw [isValueEndAt, isWordEndAt]
  cases hs : text.drop pos with
  | nil => rfl
  | cons c rest =>
    rw [(drop_eq_cons_iff.mp hs).1]
    by_cases hc : c = ':'
    · subst hc
      rfl
    · rw [atValueEnd_cons hc, atWordEnd]
      simp [hc]

theorem isIdentifierAt_iff {name : String} :
    IsIdentifierAt text start stop name ↔
      stop ≤ text.length ∧ IsIdentifier (text.drop start) name (text.drop stop) := by
  constructor
  · rintro ⟨hstop, hpiece, hfirst, hlater, hlongest⟩
    refine ⟨hstop, ?_⟩
    rw [(drop_eq_append_drop_iff (List.cons_ne_nil _ _) hstop).mpr hpiece]
    exact .mk hfirst hlater (forall_drop_eq_cons_iff.mpr hlongest)
  · rintro ⟨hstop, h⟩
    generalize hs : text.drop start = s at h
    generalize hr : text.drop stop = rest at h
    obtain ⟨hfirst, hlater, hlongest⟩ := h
    subst hr
    have hpiece := (drop_eq_append_drop_iff (List.cons_ne_nil _ _) hstop).mp hs
    exact .mk hstop hpiece hfirst hlater (forall_drop_eq_cons_iff.mp hlongest)

theorem isValueAt_iff {value : String} :
    IsValueAt text start stop value ↔
      stop ≤ text.length ∧ IsValue (text.drop start) value (text.drop stop) := by
  constructor
  · intro h
    cases h with
    | quoted hrun hend hlongest =>
      simp only [← atValueEnd_drop] at hend hlongest
      obtain ⟨hstop, hlongest⟩ := Quoted.isLongestRunAt_iff.mpr ⟨hrun, hend, hlongest⟩
      exact ⟨hstop, .quoted hlongest⟩
    | bare hrun hstop hne hbare hlongest =>
      simp only [← atValueEnd_drop] at hrun
      have hs := (drop_eq_append_drop_iff hne hstop).mpr rfl
      have hrun := Quoted.forall_isRunAt_iff.mp hrun
      rw [hs] at hrun ⊢
      exact ⟨hstop, .bare hne hbare (forall_drop_eq_cons_iff.mpr hlongest) hrun⟩
  · rintro ⟨hstop, h⟩
    generalize hs : text.drop start = s at h
    generalize hr : text.drop stop = rest at h
    cases h with
    | quoted hlongest =>
      subst hs hr
      obtain ⟨hrun, hend, hlongest⟩ := Quoted.isLongestRunAt_iff.mp ⟨hstop, hlongest⟩
      simp only [atValueEnd_drop] at hend hlongest
      exact .quoted hrun hend hlongest
    | bare hne hbare hlongest hrun =>
      subst hr
      rw [← hs] at hrun
      have hrun := Quoted.forall_isRunAt_iff.mpr hrun
      simp only [atValueEnd_drop] at hrun
      obtain rfl := (drop_eq_append_drop_iff hne hstop).mp hs
      exact .bare hrun hstop hne hbare (forall_drop_eq_cons_iff.mp hlongest)

/-- What is left behind an identifier is a later part of the text. -/
theorem IsIdentifier.suffix {s rest : List Char} {name : String} (h : IsIdentifier s name rest) :
    rest <:+ s := by
  obtain ⟨_, _, _⟩ := h
  exact (List.suffix_append _ _).trans (List.suffix_cons _ _)

theorem IsValue.suffix {s rest : List Char} {value : String} (h : IsValue s value rest) :
    rest <:+ s := by
  cases h with
  | quoted hlongest => exact hlongest.1.suffix
  | bare => exact List.suffix_append _ _

theorem IsValues.suffix {s rest : List Char} {values : List String} (h : IsValues s values rest) :
    rest <:+ s := by
  induction h with
  | done => exact List.suffix_rfl
  | cons hvalue _ ih => exact (ih.trans hvalue.suffix).trans (List.suffix_cons _ _)

theorem isValuesAt_iff {values : List String} (hstart : start ≤ text.length) :
    IsValuesAt text start stop values ↔
      stop ≤ text.length ∧ IsValues (text.drop start) values (text.drop stop) := by
  constructor
  · intro h
    induction h with
    | done hcolon =>
      refine ⟨hstart, .done ?_⟩
      intro rest hcons
      exact hcolon (drop_eq_cons_iff.mp hcons).1
    | cons hcolon hvalue _ ih =>
      obtain ⟨hnext, hvalue⟩ := isValueAt_iff.mp hvalue
      obtain ⟨hstop, hvalues⟩ := ih hnext
      refine ⟨hstop, ?_⟩
      rw [drop_eq_cons_iff.mpr ⟨hcolon, rfl⟩]
      exact .cons hvalue hvalues
  · rintro ⟨hstop, h⟩
    generalize hs : text.drop start = s at h
    generalize hr : text.drop stop = rest at h
    induction h generalizing start with
    | done hcolon =>
      obtain rfl := eq_of_drop_eq hstart hstop (hs.trans hr.symm)
      refine .done fun hc => ?_
      exact hcolon _ (hr.symm.trans (drop_eq_cons_iff.mpr ⟨hc, rfl⟩))
    | @cons s next rest value values hvalue _ ih =>
      obtain ⟨hcolon, rfl⟩ := drop_eq_cons_iff.mp hs
      have hnext := drop_length_sub_length hvalue.suffix
      rw [← hnext] at hvalue
      have hvalueAt := isValueAt_iff.mpr ⟨Nat.sub_le _ _, hvalue⟩
      exact .cons hcolon hvalueAt (ih (Nat.sub_le _ _) hnext hr)

/-- **A facet at a position** is a facet that starts what is left there. -/
theorem isFacetAt_iff {entry : Entry} :
    IsFacetAt text start stop entry ↔
      stop ≤ text.length ∧ IsFacet (text.drop start) entry (text.drop stop) := by
  constructor
  · rintro ⟨hname, hvalues, hne, hend⟩
    obtain ⟨hnext, hname⟩ := isIdentifierAt_iff.mp hname
    obtain ⟨hstop, hvalues⟩ := (isValuesAt_iff hnext).mp hvalues
    exact ⟨hstop, .mk hname hvalues hne hend⟩
  · rintro ⟨hstop, h⟩
    obtain ⟨hname, hvalues, hne, hend⟩ := h
    have hnext := drop_length_sub_length hname.suffix
    rw [← hnext] at hname hvalues
    have hnameAt := isIdentifierAt_iff.mpr ⟨Nat.sub_le _ _, hname⟩
    exact .mk hnameAt ((isValuesAt_iff (Nat.sub_le _ _)).mpr ⟨hstop, hvalues⟩) hne hend

theorem IsFacet.suffix {s rest : List Char} {entry : Entry} (h : IsFacet s entry rest) :
    rest <:+ s := by
  obtain ⟨hname, hvalues, -, -⟩ := h
  exact hvalues.suffix.trans hname.suffix

/-- Looking for a facet at a position is reading one off what is left there. -/
theorem facetAt?_eq_some_iff_facet? {entry : Entry} :
    facetAt? text start = some (entry, stop) ↔
      stop ≤ text.length ∧ facet? (text.drop start) = some (entry, text.drop stop) := by
  rw [facetAt?, Option.map_eq_some_iff]
  constructor
  · rintro ⟨⟨entry', rest⟩, hfound, heq⟩
    obtain ⟨rfl, rfl⟩ := Prod.mk.inj heq
    refine ⟨Nat.sub_le _ _, ?_⟩
    rw [drop_length_sub_length (facet?_eq_some_iff.mp hfound).suffix]
    exact hfound
  · rintro ⟨hstop, hfound⟩
    exact ⟨(entry, text.drop stop), hfound, Prod.ext rfl (length_sub_length_drop hstop)⟩

/-- **The reader finds the facets of the text**, each at the position where it is looked for. -/
theorem facetAt?_eq_some_iff_isFacetAt {entry : Entry} :
    facetAt? text start = some (entry, stop) ↔ IsFacetAt text start stop entry := by
  rw [facetAt?_eq_some_iff_facet?, facet?_eq_some_iff, isFacetAt_iff]

/-- **A text has one facet at a position**, if it has any. -/
theorem IsFacetAt.unique {entry entry' : Entry} {stop' : Nat}
    (h : IsFacetAt text start stop entry) (h' : IsFacetAt text start stop' entry') :
    entry = entry' ∧ stop = stop' := by
  have hfound := facetAt?_eq_some_iff_isFacetAt.mpr h
  rw [facetAt?_eq_some_iff_isFacetAt.mpr h'] at hfound
  obtain ⟨rfl, rfl⟩ := Prod.mk.inj (Option.some.inj hfound)
  exact ⟨rfl, rfl⟩

theorem IsFacetAt.start_lt_stop {entry : Entry} (h : IsFacetAt text start stop entry) :
    start < stop := by
  obtain ⟨hstop, hfound⟩ :=
    facetAt?_eq_some_iff_facet?.mp (facetAt?_eq_some_iff_isFacetAt.mpr h)
  have hlt := length_rest_lt_of_facet? hfound
  rw [List.length_drop, List.length_drop] at hlt
  omega

/-- A facet has a name and a value at least. -/
theorem IsFacetAt.two_le_length {entry : Entry} (h : IsFacetAt text start stop entry) :
    2 ≤ entry.length := by
  obtain ⟨-, -, hne, -⟩ := h
  exact Nat.succ_le_succ (List.length_pos_iff.mpr hne)

theorem IsFacetAt.isWordEndAt {entry : Entry} (h : IsFacetAt text start stop entry) :
    isWordEndAt text stop = true := by
  obtain ⟨-, -, -, hend⟩ := h
  exact hend

end CommandBar.Search
