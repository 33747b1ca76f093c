import CommandBar.Proofs.Search.Backtracking
import CommandBar.Proofs.Search.Position

/-!
# What commitment costs

The reader of facets does not go back: it settles on the longest run that is followed by a colon or
by the end of a word, and fails if nothing comes of the colon. So it finds less than a reader that
goes back would.

- `PrefersFacet`: the facet that a reader finds that goes back.
- `Overreaches`: on the way of that reader, a longer run than the one it ends up with is followed by
  a colon.
- `isValues_iff`, `isFacet_iff`: what the committed reader finds of it.
- `DerivesFacetAt`, `PrefersFacetAt`, `OverreachesAt`: the same at a position.
- `facetAt?_backtracking`: **the committed reader finds the same, except where it overreaches**, and
  there it finds nothing.
-/

namespace CommandBar.Search

/-- Of the ways to read `s` as a facet, this is the one with the preferred values. -/
inductive PrefersFacet : (s : List Char) → Entry → (rest : List Char) → Prop
  | mk {s s' rest : List Char} {name : String} {values : List String} :
      DerivesIdentifier s name s' → PrefersValues s' values rest → values ≠ [] →
        PrefersFacet s (name :: values) rest

/-- Among the preferred values of `s` there is a quoted one in whose place a longer run could be
read, and that longer run is followed by a colon. -/
inductive Overreaches : (s : List Char) → Prop
  | here {s s' s'' content content' : List Char} :
      PrefersRun s content s' → Quoted.IsRun s content' (':' :: s'') →
        (':' :: s'').length < s'.length → Overreaches (':' :: s)
  | quoted {s s' content : List Char} :
      PrefersRun s content s' → Overreaches s' → Overreaches (':' :: s)
  | bare {w s : List Char} :
      w ≠ [] → (∀ c ∈ w, isBareValueChar c = true) → Overreaches s → Overreaches (':' :: (w ++ s))

/-- Behind the identifier that starts `s` the values overreach. -/
def FacetOverreaches (s : List Char) : Prop :=
  ∃ name s', DerivesIdentifier s name s' ∧ Overreaches s'

/-! ## The committed reader -/

theorem Overreaches.completes {s : List Char} (h : Overreaches s) : Completes s := by
  induction h with
  | here hrun _ _ => exact hrun.2.1.cons (.quoted hrun.1)
  | quoted hrun _ ih => exact ih.cons (.quoted hrun.1)
  | bare hne hw _ ih => exact ih.cons (.bare hne hw)

theorem Overreaches.exists_eq_colon {s : List Char} (h : Overreaches s) : ∃ s', s = ':' :: s' := by
  cases h with
  | here => exact ⟨_, rfl⟩
  | quoted => exact ⟨_, rfl⟩
  | bare => exact ⟨_, rfl⟩

/-- In front of a quoted value the reader overreaches with this value, or with a later one. -/
theorem overreaches_run_iff {s s' content : List Char} (hrun : PrefersRun s content s') :
    Overreaches (':' :: s) ↔
      (∃ content' s'', Quoted.IsRun s content' (':' :: s'') ∧
        (':' :: s'').length < s'.length) ∨ Overreaches s' := by
  constructor
  · intro h
    generalize hs : ':' :: s = t at h
    cases h with
    | here hrun' hlonger hlt =>
      obtain ⟨-, rfl⟩ := List.cons.inj hs
      obtain ⟨-, rfl⟩ := hrun.unique hrun'
      exact .inl ⟨_, _, hlonger, hlt⟩
    | quoted hrun' h =>
      obtain ⟨-, rfl⟩ := List.cons.inj hs
      obtain ⟨-, rfl⟩ := hrun.unique hrun'
      exact .inr h
    | bare hne hw _ =>
      obtain ⟨-, rfl⟩ := List.cons.inj hs
      exact absurd hrun.1 (not_isRun_of_bare hne hw)
  · rintro (⟨content', s'', hlonger, hlt⟩ | h)
    · exact .here hrun hlonger hlt
    · exact .quoted hrun h

/-- In front of a bare value the reader overreaches with a later one. -/
theorem overreaches_bare_iff {w s : List Char} (hne : w ≠ [])
    (hw : ∀ c ∈ w, isBareValueChar c = true) (hs : atValueEnd s = true) :
    Overreaches (':' :: (w ++ s)) ↔ Overreaches s := by
  constructor
  · intro h
    generalize ht : ':' :: (w ++ s) = t at h
    cases h with
    | here hrun _ _ =>
      rw [← (List.cons.inj ht).2] at hrun
      exact absurd hrun.1 (not_isRun_of_bare hne hw)
    | quoted hrun _ =>
      rw [← (List.cons.inj ht).2] at hrun
      exact absurd hrun.1 (not_isRun_of_bare hne hw)
    | bare _ hw' h =>
      obtain ⟨-, rfl⟩ := bare_unique (List.cons.inj ht).2 hw hw' hs h.completes.atValueEnd
      exact h
  · exact .bare hne hw

/-- The run that is preferred is the longest behind which a value may end, unless a longer one is
followed by a colon. -/
theorem isLongestRun_iff {s s' content : List Char} (hcompletes : Completes s') :
    Quoted.IsLongestRun atValueEnd s content s' ↔
      PrefersRun s content s' ∧
        ¬ ∃ content' s'', Quoted.IsRun s content' (':' :: s'') ∧
          (':' :: s'').length < s'.length := by
  constructor
  · rintro ⟨hrun, -, hlongest⟩
    refine ⟨⟨hrun, hcompletes, ?_⟩, ?_⟩
    · intro content' rest' hrun' hcompletes'
      exact hlongest content' rest' hrun' hcompletes'.atValueEnd
    · rintro ⟨content', s'', hlonger, hlt⟩
      have hle := hlongest content' _ hlonger rfl
      omega
  · rintro ⟨⟨hrun, -, hlongest⟩, hover⟩
    refine ⟨hrun, hcompletes.atValueEnd, ?_⟩
    intro content' rest' hrun' hend'
    by_cases hword : atWordEnd rest' = true
    · exact hlongest content' rest' hrun' (completes_of_atWordEnd hword)
    · -- a value may end here for the sake of a colon only
      unfold atValueEnd at hend'
      split at hend'
      · next s'' =>
        refine Nat.le_of_not_lt fun hlt => hover ?_
        exact ⟨content', s'', hrun', hlt⟩
      · exact absurd hend' hword

/-- **What the committed reader finds**, up to where a word may end, are the preferred values, and
it finds them unless it overreaches. -/
theorem isValues_iff {s rest : List Char} {values : List String} :
    IsValues s values rest ∧ atWordEnd rest = true ↔
      PrefersValues s values rest ∧ ¬ Overreaches s := by
  constructor
  · rintro ⟨h, hend⟩
    induction h with
    | done hcolon =>
      refine ⟨.done hend, ?_⟩
      intro hover
      obtain ⟨s', rfl⟩ := hover.exists_eq_colon
      exact hcolon s' rfl
    | cons hvalue _ ih =>
      obtain ⟨hvalues, hover⟩ := ih hend
      cases hvalue with
      | quoted hrun =>
        obtain ⟨hrun, hhere⟩ := (isLongestRun_iff hvalues.completes).mp hrun
        refine ⟨.quoted hrun hvalues, ?_⟩
        rw [overreaches_run_iff hrun, not_or]
        exact ⟨hhere, hover⟩
      | bare hne hw hstop _ =>
        refine ⟨.bare hne hw hvalues, ?_⟩
        rw [overreaches_bare_iff hne hw hvalues.completes.atValueEnd]
        exact hover
  · rintro ⟨h, hover⟩
    induction h with
    | @done rest hend =>
      refine ⟨.done ?_, hend⟩
      rintro r rfl
      rw [atWordEnd_colon] at hend
      cases hend
    | quoted hrun hvalues ih =>
      rw [overreaches_run_iff hrun, not_or] at hover
      obtain ⟨hvalues', hend⟩ := ih hover.2
      have hlongest := (isLongestRun_iff hvalues.completes).mpr ⟨hrun, hover.1⟩
      exact ⟨.cons (.quoted hlongest) hvalues', hend⟩
    | bare hne hw hvalues ih =>
      have hstop := hvalues.completes.atValueEnd
      rw [overreaches_bare_iff hne hw hstop] at hover
      obtain ⟨hvalues', hend⟩ := ih hover
      refine ⟨.cons (.bare hne hw ?_ ?_) hvalues', hend⟩
      · rintro c r rfl
        exact isBareValueChar_of_atValueEnd hstop
      · intro content rest' hrun
        exact absurd hrun (not_isRun_of_bare hne hw)

/-! ## Facets -/

/-- An identifier in front of a colon is the longest one there is. -/
theorem isIdentifier_colon_iff {s rest : List Char} {name : String} :
    IsIdentifier s name (':' :: rest) ↔ DerivesIdentifier s name (':' :: rest) := by
  constructor
  · intro h
    generalize hr : ':' :: rest = r at h ⊢
    cases h with
    | mk hc hlater _ => exact .mk hc hlater
  · intro h
    generalize hr : ':' :: rest = r at h ⊢
    cases h with
    | mk hc hlater =>
      refine .mk hc hlater ?_
      intro d r' hd
      rw [← hr] at hd
      obtain ⟨rfl, -⟩ := List.cons.inj hd
      decide

theorem IsIdentifier.unique {s rest rest' : List Char} {name name' : String}
    (h : IsIdentifier s name rest) (h' : IsIdentifier s name' rest') :
    name = name' ∧ rest = rest' := by
  have hfound := identifier?_eq_some_iff.mpr h
  rw [identifier?_eq_some_iff.mpr h'] at hfound
  obtain ⟨rfl, rfl⟩ := Prod.mk.inj (Option.some.inj hfound)
  exact ⟨rfl, rfl⟩

theorem PrefersValues.exists_eq_colon {s rest : List Char} {values : List String}
    (h : PrefersValues s values rest) (hne : values ≠ []) : ∃ s', s = ':' :: s' := by
  cases h with
  | done => exact absurd rfl hne
  | quoted => exact ⟨_, rfl⟩
  | bare => exact ⟨_, rfl⟩

theorem PrefersFacet.derives {s rest : List Char} {entry : Entry} (h : PrefersFacet s entry rest) :
    DerivesFacet s entry rest := by
  obtain ⟨hname, hvalues, hne⟩ := h
  exact .mk hname hvalues.derives.1 hne hvalues.derives.2

/-- **Where there is a facet to be found, there is a preferred one.** -/
theorem exists_prefersFacet {s rest : List Char} {entry : Entry} (h : DerivesFacet s entry rest) :
    ∃ entry' rest', PrefersFacet s entry' rest' := by
  obtain ⟨hname, hvalues, hne, hend⟩ := h
  obtain ⟨values', rest', hvalues'⟩ := exists_prefersValues ⟨_, _, hvalues, hend⟩
  refine ⟨_, rest', .mk hname hvalues' ?_⟩
  rintro rfl
  -- the values that are given start with a colon, and no preferred ones end there
  cases hvalues with
  | done => exact hne rfl
  | cons =>
    have hend' := hvalues'.derives.2
    cases hvalues' with
    | done =>
      rw [atWordEnd_colon] at hend'
      cases hend'

/-- **The preferred facet of a text is unique.** -/
theorem PrefersFacet.unique {s rest rest' : List Char} {entry entry' : Entry}
    (h : PrefersFacet s entry rest) (h' : PrefersFacet s entry' rest') :
    entry = entry' ∧ rest = rest' := by
  obtain ⟨hname, hvalues, hne⟩ := h
  obtain ⟨hname', hvalues', hne'⟩ := h'
  obtain ⟨t, rfl⟩ := hvalues.exists_eq_colon hne
  obtain ⟨t', rfl⟩ := hvalues'.exists_eq_colon hne'
  obtain ⟨rfl, ht⟩ :=
    (isIdentifier_colon_iff.mpr hname).unique (isIdentifier_colon_iff.mpr hname')
  obtain ⟨-, rfl⟩ := List.cons.inj ht
  obtain ⟨rfl, rfl⟩ := hvalues.unique hvalues'
  exact ⟨rfl, rfl⟩

theorem FacetOverreaches.exists_derives {s : List Char} (h : FacetOverreaches s) :
    ∃ entry rest, DerivesFacet s entry rest := by
  obtain ⟨name, s', hname, hover⟩ := h
  obtain ⟨values, rest, hvalues⟩ := exists_prefersValues hover.completes
  obtain ⟨t, rfl⟩ := hover.exists_eq_colon
  refine ⟨_, rest, .mk hname hvalues.derives.1 ?_ hvalues.derives.2⟩
  rintro rfl
  cases hvalues with
  | done hend =>
    rw [atWordEnd_colon] at hend
    cases hend

/-- **The facet that the committed reader finds** is the preferred one, and it finds it unless it
overreaches. -/
theorem isFacet_iff {s rest : List Char} {entry : Entry} :
    IsFacet s entry rest ↔ PrefersFacet s entry rest ∧ ¬ FacetOverreaches s := by
  constructor
  · rintro ⟨hname, hvalues, hne, hend⟩
    obtain ⟨hvalues, hover⟩ := isValues_iff.mp ⟨hvalues, hend⟩
    obtain ⟨t, rfl⟩ := hvalues.exists_eq_colon hne
    refine ⟨.mk (isIdentifier_colon_iff.mp hname) hvalues hne, ?_⟩
    rintro ⟨name', s', hname', hover'⟩
    obtain ⟨t', rfl⟩ := hover'.exists_eq_colon
    obtain ⟨-, ht⟩ := hname.unique (isIdentifier_colon_iff.mpr hname')
    rw [ht] at hover
    exact hover hover'
  · rintro ⟨⟨hname, hvalues, hne⟩, hover⟩
    obtain ⟨hvalues', hend⟩ := isValues_iff.mpr ⟨hvalues, fun h => hover ⟨_, _, hname, h⟩⟩
    obtain ⟨t, rfl⟩ := hvalues.exists_eq_colon hne
    exact .mk (isIdentifier_colon_iff.mpr hname) hvalues' hne hend

/-! ## Facets by position -/

/-- The text can be read, from `pos` up to `stop`, as the facet. -/
def DerivesFacetAt (text : List Char) (pos : Nat) (entry : Entry) (stop : Nat) : Prop :=
  stop ≤ text.length ∧ DerivesFacet (text.drop pos) entry (text.drop stop)

/-- Of the ways to read the text at `pos` as a facet, this is the preferred one. -/
def PrefersFacetAt (text : List Char) (pos : Nat) (entry : Entry) (stop : Nat) : Prop :=
  stop ≤ text.length ∧ PrefersFacet (text.drop pos) entry (text.drop stop)

/-- In the preferred way to read the text at `pos` as a facet, there is a quoted value in whose
place a longer run could be read, and that longer run is followed by a colon. -/
def OverreachesAt (text : List Char) (pos : Nat) : Prop :=
  FacetOverreaches (text.drop pos)

variable {text : List Char} {pos : Nat}

theorem DerivesValues.suffix {s rest : List Char} {values : List String}
    (h : DerivesValues s values rest) : rest <:+ s := by
  induction h with
  | done => exact List.suffix_rfl
  | cons hvalue _ ih => exact (ih.trans hvalue.suffix).trans (List.suffix_cons _ _)

/-- What follows a facet is a later part of the text. -/
theorem DerivesFacet.suffix {s rest : List Char} {entry : Entry} (h : DerivesFacet s entry rest) :
    rest <:+ s := by
  obtain ⟨⟨_, _⟩, hvalues, _, _⟩ := h
  exact (hvalues.suffix.trans (List.suffix_append _ _)).trans (List.suffix_cons _ _)

theorem DerivesFacet.derivesFacetAt {entry : Entry} {rest : List Char}
    (h : DerivesFacet (text.drop pos) entry rest) :
    DerivesFacetAt text pos entry (text.length - rest.length) := by
  refine ⟨Nat.sub_le _ _, ?_⟩
  rw [drop_length_sub_length h.suffix]
  exact h

theorem PrefersFacet.prefersFacetAt {entry : Entry} {rest : List Char}
    (h : PrefersFacet (text.drop pos) entry rest) :
    PrefersFacetAt text pos entry (text.length - rest.length) := by
  refine ⟨Nat.sub_le _ _, ?_⟩
  rw [drop_length_sub_length h.derives.suffix]
  exact h

theorem PrefersFacetAt.derivesFacetAt {entry : Entry} {stop : Nat}
    (h : PrefersFacetAt text pos entry stop) : DerivesFacetAt text pos entry stop :=
  ⟨h.1, h.2.derives⟩

theorem PrefersFacetAt.unique {entry entry' : Entry} {stop stop' : Nat}
    (h : PrefersFacetAt text pos entry stop) (h' : PrefersFacetAt text pos entry' stop') :
    entry = entry' ∧ stop = stop' := by
  obtain ⟨hstop, h⟩ := h
  obtain ⟨hstop', h'⟩ := h'
  obtain ⟨hentry, hrest⟩ := h.unique h'
  exact ⟨hentry, eq_of_drop_eq hstop hstop' hrest⟩

/-- A text can be read as a facet exactly if there is a preferred way to do so. -/
theorem exists_prefersFacetAt_iff :
    (∃ entry stop, PrefersFacetAt text pos entry stop) ↔
      ∃ entry stop, DerivesFacetAt text pos entry stop := by
  constructor
  · rintro ⟨entry, stop, h⟩
    exact ⟨entry, stop, h.derivesFacetAt⟩
  · rintro ⟨entry, stop, -, h⟩
    obtain ⟨entry', rest', h'⟩ := exists_prefersFacet h
    exact ⟨entry', _, h'.prefersFacetAt⟩

theorem OverreachesAt.exists_derivesFacetAt (h : OverreachesAt text pos) :
    ∃ entry stop, DerivesFacetAt text pos entry stop := by
  obtain ⟨entry, rest, h⟩ := h.exists_derives
  exact ⟨entry, _, h.derivesFacetAt⟩

/-- **What the committed reader finds at a position** is the preferred facet. -/
theorem facetAt?_eq_some_iff {entry : Entry} {stop : Nat} :
    facetAt? text pos = some (entry, stop) ↔
      PrefersFacetAt text pos entry stop ∧ ¬ OverreachesAt text pos := by
  rw [facetAt?_eq_some_iff_facet?, facet?_eq_some_iff, isFacet_iff]
  exact and_assoc.symm

/-- **Where the committed reader finds nothing**, there is nothing, or it overreaches. -/
theorem facetAt?_eq_none_iff :
    facetAt? text pos = none ↔
      (¬ ∃ entry stop, DerivesFacetAt text pos entry stop) ∨ OverreachesAt text pos := by
  constructor
  · intro hnone
    by_cases hover : OverreachesAt text pos
    · exact .inr hover
    · refine .inl fun h => ?_
      obtain ⟨entry, stop, hprefers⟩ := exists_prefersFacetAt_iff.mpr h
      rw [facetAt?_eq_some_iff.mpr ⟨hprefers, hover⟩] at hnone
      cases hnone
  · intro h
    refine Option.eq_none_iff_forall_ne_some.mpr ?_
    rintro ⟨entry, stop⟩ hfound
    obtain ⟨hprefers, hover⟩ := facetAt?_eq_some_iff.mp hfound
    rcases h with h | h
    · exact h ⟨entry, stop, hprefers.derivesFacetAt⟩
    · exact hover h

/-! ## A colon that no value follows -/

/-- The text `a:"x\" b":`, whose value may end behind the escaped quote, in front of the blank, or
behind the last quote, in front of a colon that no value follows. -/
def emptyColon : List Char := ['a', ':', '"', 'x', '\\', '"', ' ', 'b', '"', ':']

theorem closes_emptyColon : Quoted.closes (emptyColon.drop 2) =
    [⟨['b', ' ', '"', 'x'], [':']⟩, ⟨['\\', 'x'], [' ', 'b', '"', ':']⟩] := by
  decide

/-- A colon at the end of a text is followed by no value. -/
theorem not_completes_colon : ¬ Completes [':'] := by
  intro h
  rcases h.cases with hend | ⟨s', value, rest, hs, hvalue, -⟩
  · rw [atWordEnd_colon] at hend
    cases hend
  · obtain ⟨-, rfl⟩ := List.cons.inj hs
    generalize hnil : ([] : List Char) = s at hvalue
    cases hvalue with
    | quoted hrun =>
      obtain ⟨_, _, hcons, -⟩ := hrun
      rw [← hnil] at hcons
      cases hcons
    | bare hne => exact hne (List.append_eq_nil_iff.mp hnil.symm).1

theorem prefersRun_emptyColon :
    PrefersRun (emptyColon.drop 2) ['x', '\\'] (emptyColon.drop 6) := by
  refine ⟨?_, completes_of_atWordEnd (by decide), ?_⟩
  · have hmem : ⟨['\\', 'x'], emptyColon.drop 6⟩ ∈ Quoted.closes (emptyColon.drop 2) := by decide
    exact Quoted.mem_closes_iff.mp hmem
  · intro content rest hrun hcompletes
    have hmem : ⟨content.reverse, rest⟩ ∈ Quoted.closes (emptyColon.drop 2) :=
      Quoted.mem_closes_iff.mpr (by rwa [List.reverse_reverse])
    rw [closes_emptyColon] at hmem
    rcases List.mem_cons.mp hmem with heq | hmem
    · have hrest : rest = [':'] := congrArg Quoted.Close.rest heq
      rw [hrest] at hcompletes
      exact absurd hcompletes not_completes_colon
    · have hrest : rest = emptyColon.drop 6 :=
        congrArg Quoted.Close.rest (List.mem_singleton.mp hmem)
      exact Nat.le_of_eq (congrArg List.length hrest).symm

/-! ## What commitment costs -/

/-- **The committed reader and the one that goes back.** The one that goes back finds a facet, and
finds one only, wherever the text can be read as one. The committed reader finds that same facet,
except where it overreaches; there it finds nothing, though there is a facet. -/
theorem facetAt?_backtracking (text : List Char) (pos : Nat) :
    ((∃ entry stop, PrefersFacetAt text pos entry stop) ↔
      ∃ entry stop, DerivesFacetAt text pos entry stop) ∧
    (∀ entry stop, PrefersFacetAt text pos entry stop → DerivesFacetAt text pos entry stop) ∧
    (∀ entry entry' stop stop', PrefersFacetAt text pos entry stop →
      PrefersFacetAt text pos entry' stop' → entry = entry' ∧ stop = stop') ∧
    (∀ entry stop, facetAt? text pos = some (entry, stop) ↔
      PrefersFacetAt text pos entry stop ∧ ¬ OverreachesAt text pos) ∧
    (facetAt? text pos = none ↔
      (¬ ∃ entry stop, DerivesFacetAt text pos entry stop) ∨ OverreachesAt text pos) ∧
    (OverreachesAt text pos → ∃ entry stop, DerivesFacetAt text pos entry stop) := by
  refine ⟨exists_prefersFacetAt_iff, ?_, ?_, ?_, facetAt?_eq_none_iff, ?_⟩
  · intro entry stop h
    exact h.derivesFacetAt
  · intro entry entry' stop stop' h h'
    exact h.unique h'
  · intro entry stop
    exact facetAt?_eq_some_iff
  · intro h
    exact h.exists_derivesFacetAt

/-- The committed reader finds nothing in it, though there is one facet to be found. -/
theorem facetAt?_backtracking_emptyColon :
    facetAt? emptyColon 0 = none ∧ DerivesFacetAt emptyColon 0 ["a", "x\\"] 6 ∧
      ∀ entry stop, PrefersFacetAt emptyColon 0 entry stop → entry = ["a", "x\\"] ∧ stop = 6 := by
  obtain ⟨-, hderives, hunique, -, hnone, -⟩ := facetAt?_backtracking emptyColon 0
  have hname : DerivesIdentifier emptyColon "a" (emptyColon.drop 1) :=
    @DerivesIdentifier.mk 'a' [] _ (by decide) fun d hd => absurd hd List.not_mem_nil
  have hlonger : Quoted.IsRun (emptyColon.drop 2) ['x', '"', ' ', 'b'] [':'] := by
    have hmem : ⟨['b', ' ', '"', 'x'], [':']⟩ ∈ Quoted.closes (emptyColon.drop 2) := by decide
    exact Quoted.mem_closes_iff.mp hmem
  have hover : OverreachesAt emptyColon 0 :=
    ⟨"a", _, hname, .here prefersRun_emptyColon hlonger (by decide)⟩
  have hprefers : PrefersFacetAt emptyColon 0 ["a", "x\\"] 6 := by
    refine ⟨by decide, .mk hname (.quoted prefersRun_emptyColon (.done (by decide))) ?_⟩
    exact List.cons_ne_nil _ _
  refine ⟨hnone.mpr (.inr hover), hderives _ _ hprefers, ?_⟩
  intro entry stop h
  exact hunique _ _ _ _ h hprefers

end CommandBar.Search
