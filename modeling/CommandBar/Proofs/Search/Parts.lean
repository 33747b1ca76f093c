import CommandBar.Proofs.Search.Modes
import Mathlib

/-!
# The parts of a search

A search is a sequence of facets and of words between them, whatever becomes of the words. The parts
do not depend on the options under which a search is read, nor on where in a longer text they stand;
what a reading gives is a function of them.

- `partsOf`: the facets and words of a text, in order.
- `partsOf_of_allBlank`, `partsOf_facet`, `partsOf_word`: one equation for each thing that can come
  next.
- `IsLayout.partsOf_drop`: the parts are the units of the layout, without their places.
- `Options.IsBuiltIn`, `Options.gather`: the options that name no fallback, and what becomes of the
  parts under them.
- `exists_result_of_isBuiltIn`: **what a reading gives is gathered from the parts**.
-/

namespace CommandBar.Search

variable {ε : Type} {text s rest : List Char} {pos : Nat} {entry : Entry} {units : List Placed}

/-- Only facets are facets throughout. -/
theorem Part.mapM_facet?_eq_some_iff {parts : List Part} {entries : List Entry} :
    parts.mapM facet? = some entries ↔ parts = entries.map facet := by
  constructor
  · intro h
    induction parts generalizing entries with
    | nil =>
      cases h
      rfl
    | cons part parts ih =>
      rw [List.mapM_cons] at h
      cases part with
      | word => cases h
      | facet entry =>
        obtain ⟨_, ⟨⟩, h⟩ := Option.bind_eq_some_iff.mp h
        obtain ⟨entries', hentries, h⟩ := Option.bind_eq_some_iff.mp h
        cases h
        rw [ih hentries]
        rfl
  · rintro rfl
    induction entries with
    | nil => rfl
    | cons entry entries ih =>
      rw [List.map_cons, List.mapM_cons, ih]
      rfl

theorem length_afterWord_skipBlanks_lt (h : skipBlanks s ≠ []) :
    (afterWord (skipBlanks s)).length < (skipBlanks s).length := by
  cases hs : skipBlanks s with
  | nil => exact absurd hs h
  | cons c rest => exact length_afterWord_lt (isBlank_of_skipBlanks_eq_cons hs)

/-- The parts of a text: a facet wherever one starts, and otherwise the next word. -/
def partsOf (s : List Char) : List Part :=
  if hnil : skipBlanks s = [] then []
  else
    have _ := length_skipBlanks_le s
    match hfacet : facet? (skipBlanks s) with
    | some (entry, rest) =>
      have _ := length_rest_lt_of_facet? hfacet
      .facet entry :: partsOf rest
    | none =>
      have _ := length_afterWord_skipBlanks_lt hnil
      .word (String.ofList (word (skipBlanks s))) :: partsOf (afterWord (skipBlanks s))
termination_by s.length

/-! ## What can come next -/

theorem partsOf_of_allBlank (h : AllBlank s) : partsOf s = [] := by
  rw [partsOf, dif_pos (skipBlanks_eq_nil_iff.mpr h)]

theorem partsOf_facet (h : facet? (skipBlanks s) = some (entry, rest)) :
    partsOf s = .facet entry :: partsOf rest := by
  rw [partsOf, dif_neg (ne_nil_of_facet? h)]
  split
  · next hfacet =>
    rw [h] at hfacet
    cases hfacet
    rfl
  · next hfacet =>
    rw [h] at hfacet
    cases hfacet

theorem partsOf_word (hne : ¬ AllBlank s) (h : facet? (skipBlanks s) = none) :
    partsOf s =
      .word (String.ofList (word (skipBlanks s))) :: partsOf (afterWord (skipBlanks s)) := by
  rw [partsOf, dif_neg (mt skipBlanks_eq_nil_iff.mp hne)]
  split
  · next hfacet =>
    rw [h] at hfacet
    cases hfacet
  · rfl

/-- Blanks in front are no part. -/
theorem partsOf_gap {gap : List Char} (h : AllBlank gap) : partsOf (gap ++ s) = partsOf s := by
  have hskip : skipBlanks (gap ++ s) = skipBlanks s := skipBlanks_append h
  by_cases hs : AllBlank s
  · rw [partsOf_of_allBlank (List.forall_mem_append.mpr ⟨h, hs⟩), partsOf_of_allBlank hs]
  · have hall : ¬ AllBlank (gap ++ s) := fun hall => hs (List.forall_mem_append.mp hall).2
    cases hfacet : facet? (skipBlanks s) with
    | some found => rw [partsOf_facet hfacet, partsOf_facet (hskip ▸ hfacet)]
    | none => rw [partsOf_word hs hfacet, partsOf_word hall (hskip ▸ hfacet), hskip]

/-! ## Parts and layouts -/

/-- **The parts of a text are the units of its layout.** -/
theorem IsLayout.partsOf_drop (h : IsLayout text pos units) :
    partsOf (text.drop pos) = units.map (Placed.part text) := by
  induction h with
  | done hblank => exact partsOf_of_allBlank hblank
  | cons hpos hgap hunit _ ih =>
    have hskip := hunit.skipBlanks_drop hpos hgap
    rw [List.map_cons, ← ih]
    cases hunit with
    | facet hfacet => exact partsOf_facet (hskip ▸ facet?_of_facetAt? hfacet)
    | @word start c hc hblank hnone =>
      have hne : ¬ AllBlank (text.drop _) :=
        mt skipBlanks_eq_nil_iff.mpr (hskip ▸ (IsUnitAt.word hc hblank hnone).drop_ne_nil)
      rw [partsOf_word hne (hskip ▸ Option.map_eq_none_iff.mp hnone), hskip]
      show _ = Part.word (String.ofList (text.extract start (afterWordAt text start))) :: _
      rw [extract_afterWordAt, drop_afterWordAt]

/-- A facet in front is one more entry. -/
theorem result_cons_facet (reading : Reading ε) :
    (reading.cons (.facet entry)).result = reading.result.map (·.map (entry :: ·)) := by
  obtain ⟨turns, ending⟩ := reading
  cases ending <;> rfl

/-- Without a fallback the facets are given, provided that every part is one. -/
theorem result_readFrom_bare (earlier : List (List Char)) (s : List Char) :
    (readFrom none earlier (skipBlanks s) : Reading ε).result =
      .ok ((partsOf s).mapM Part.facet?) := by
  fun_induction partsOf s with
  | case1 s hnil =>
    rw [hnil, readFrom_nil]
    rfl
  | case2 s hne _ entry rest hfacet _ ih =>
    rw [readFrom_facet hfacet, result_cons_facet, ih, List.mapM_cons]
    cases (partsOf rest).mapM Part.facet? <;> rfl
  | case3 s hne _ hfacet _ ih =>
    rw [readFrom_stuck hne hfacet, List.mapM_cons]
    rfl

/-! ## Options that name no fallback -/

namespace Options

/-- The options that name no fallback: words end the reading, are skipped, or are added under a
tag. -/
inductive IsBuiltIn : Options ε → Prop
  | bare : IsBuiltIn {}
  | skipping : IsBuiltIn { skipUnmatched := true }
  | tagging (tag : String) : IsBuiltIn { literal := some tag }

/-- What becomes of the parts of a text under such options. There is nothing if a word ends the
reading. -/
def gather (options : Options ε) (parts : List Part) : Option (List Entry) :=
  match options.literal with
  | some tag => some (parts.map (Part.tagged tag))
  | none =>
    if options.skipUnmatched then some (parts.filterMap Part.facet?) else parts.mapM Part.facet?

theorem gather_append (options : Options ε) (parts parts' : List Part) :
    options.gather (parts ++ parts') = do
      return (← options.gather parts) ++ (← options.gather parts') := by
  unfold gather
  split
  · rw [List.map_append]
    rfl
  · split
    · rw [List.filterMap_append]
      rfl
    · exact List.mapM_append

end Options

/-- **What a reading gives is gathered from the parts of the text**, under options that name no
fallback. -/
theorem exists_result_of_isBuiltIn {options : Options ε} (h : options.IsBuiltIn) (text : String) :
    ∃ reading, parse options text = .ok reading ∧
      reading.result = .ok (options.gather (partsOf text.toList)) := by
  obtain ⟨units, hlayout⟩ := exists_isLayout text.toList 0
  have hparts := hlayout.partsOf_drop
  rw [List.drop_zero] at hparts
  cases h with
  | bare => exact ⟨read none text, rfl, result_readFrom_bare [] text.toList⟩
  | skipping =>
    refine ⟨read (some .skip) text, rfl, ?_⟩
    rw [hlayout.result_read_skip, hparts, ← Placed.facet?_part text.toList, ← List.filterMap_map]
    rfl
  | tagging tag =>
    refine ⟨read (some (.literal tag)) text, rfl, ?_⟩
    have hentries : units.map (Placed.tagged tag text.toList) =
        (units.map (Placed.part text.toList)).map (Part.tagged tag) := List.map_map.symm
    rw [hlayout.result_read_literal tag, hparts, hentries]
    rfl

end CommandBar.Search
