import CommandBar.Notice
import CommandBar.Proofs.Search.Layout
import CommandBar.Proofs.Search.Steps
import Mathlib

/-!
# The three ways to deal with words

Words that are no facets can be added under a tag, skipped, or left to end the reading. The three
readings of a text take the same units one after the other, and differ only in what becomes of the
words.

- `Part`, `Placed.part`: a facet or a word, and the part that stands at a place.
- `Fallback.wordwise`: the fallbacks that take a word at a time, such as adding and skipping words.
- `IsUnitAt.readFrom_wordwise`, `IsLayout.readFrom_wordwise`: a turn takes a unit, and the whole
  reading takes all of them.
- `IsLayout.result_read_literal`, `IsLayout.result_read_skip`: what is read with words added under a
  tag, and with words skipped.
- `IsLayout.readFrom_facets`: facets are read alike under every fallback.
- `IsLayout.read_bare_of_facets`, `IsLayout.read_bare_of_word`: without a fallback the reading ends
  at the first word, if there is one.
- `read_modes`: **what the three readings have in common**.
-/

namespace CommandBar.Search

variable {ε : Type} {text : List Char} {pos start : Nat} {unit : Placed} {units : List Placed}
  {tag : String}

/-! ## Parts -/

/-- A part of a search. -/
inductive Part where
  /-- A facet. -/
  | facet (entry : Entry)
  /-- A word at which no facet starts. -/
  | word (text : String)
  deriving Repr, DecidableEq

namespace Part

/-- What the part adds, if `add` says what a word adds. -/
def entry? (add : String → Option Entry) : Part → Option Entry
  | facet entry => some entry
  | word text => add text

/-- What the part adds if words are added under the tag. -/
def tagged (tag : String) : Part → Entry
  | facet entry => entry
  | word text => [tag, text]

/-- The facet, unless the part is a word. -/
def facet? : Part → Option Entry
  | facet entry => some entry
  | word _ => none

theorem entry?_under (tag : String) : entry? (fun word => some [tag, word]) = some ∘ tagged tag :=
  funext fun part => by cases part <;> rfl

theorem entry?_skipped : entry? (fun _ => none) = facet? :=
  funext fun part => by cases part <;> rfl

end Part

namespace Placed

/-- The piece of the text that the unit stands on. -/
def piece (text : List Char) (unit : Placed) : String :=
  String.ofList (text.extract unit.start unit.stop)

/-- The unit without its place. -/
def part (text : List Char) (unit : Placed) : Part :=
  match unit.facet with
  | some entry => .facet entry
  | none => .word (unit.piece text)

/-- What the unit adds if words are added under the tag. -/
def tagged (tag : String) (text : List Char) (unit : Placed) : Entry :=
  (unit.part text).tagged tag

theorem facet?_part (text : List Char) : Part.facet? ∘ part text = facet := by
  funext unit
  obtain ⟨start, stop, facet⟩ := unit
  cases facet <;> rfl

end Placed

/-! ## Words taken one at a time -/

/-- Takes the next word, and adds what is to be added for it. -/
def Fallback.wordwise (add : String → Option Entry) : Fallback ε :=
  fun _ given => .ok ⟨(splitWord given).2, add (splitWord given).1⟩

/-- The word at a position at which no blank stands. -/
theorem splitWord_drop (h : skipBlanks (text.drop start) = text.drop start) :
    splitWord (text.drop start) =
      (String.ofList (text.extract start (afterWordAt text start)),
        skipBlanks (text.drop (afterWordAt text start))) := by
  rw [splitWord, h, extract_afterWordAt, drop_afterWordAt]

/-- **A turn takes a unit** under a fallback that takes words. -/
theorem IsUnitAt.readFrom_wordwise (h : IsUnitAt text unit) (add : String → Option Entry)
    (earlier : List (List Char)) :
    ∃ turn : Turn ε, turn.entry? = Part.entry? add (unit.part text) ∧
      readFrom (some (.wordwise add)) earlier (text.drop unit.start) =
        (readFrom (some (.wordwise add)) (turn.given?.toList ++ earlier)
          (skipBlanks (text.drop unit.stop))).cons turn := by
  have hlt := h.length_drop_stop_lt
  have hskip := h.skipBlanks_drop (Nat.le_refl _) (by simp [AllBlank])
  have hne := h.drop_ne_nil
  have hnone := h.facet?_eq_none
  cases h with
  | facet hfacet => exact ⟨.facet _, rfl, readFrom_facet (facet?_of_facetAt? hfacet)⟩
  | @word start =>
    dsimp only at hlt hskip hne hnone ⊢
    have hanswer : (Fallback.wordwise add : Fallback ε) earlier (text.drop start) =
        .ok ⟨skipBlanks (text.drop (afterWordAt text start)),
          add (String.ofList (text.extract start (afterWordAt text start)))⟩ := by
      rw [Fallback.wordwise, splitWord_drop hskip]
    have hle := length_skipBlanks_le (text.drop (afterWordAt text start))
    have hread := readFrom_answered hne (hnone rfl) hanswer
    -- a word is not empty, so the turn makes progress
    rw [skipBlanks_skipBlanks, if_pos (Nat.lt_of_le_of_lt hle hlt)] at hread
    refine ⟨_, ?_, hread⟩
    rfl

/-- **A reading takes all units** under a fallback that takes words. The induction is on the units;
what the fallback has been handed before is left open, since each word adds to it. -/
theorem IsLayout.readFrom_wordwise (h : IsLayout text pos units) (add : String → Option Entry)
    (earlier : List (List Char)) :
    ∃ turns, readFrom (some (.wordwise add)) earlier (skipBlanks (text.drop pos)) =
        (⟨turns, .finished⟩ : Reading ε) ∧
      turns.filterMap Turn.entry? =
        (units.map (Placed.part text)).filterMap (Part.entry? add) := by
  induction h generalizing earlier with
  | done hblank =>
    rw [skipBlanks_eq_nil_iff.mpr hblank, readFrom_nil]
    exact ⟨[], rfl, rfl⟩
  | cons hpos hgap hunit _ ih =>
    obtain ⟨turn, hturn, hread⟩ := hunit.readFrom_wordwise (ε := ε) add earlier
    obtain ⟨turns, hrest, hentries⟩ := ih (turn.given?.toList ++ earlier)
    refine ⟨turn :: turns, ?_, ?_⟩
    · rw [hunit.skipBlanks_drop hpos hgap, hread, hrest]
      rfl
    · rw [List.map_cons, List.filterMap_cons, List.filterMap_cons, hturn, hentries]

theorem IsLayout.result_read_wordwise {text : String} (h : IsLayout text.toList 0 units)
    (add : String → Option Entry) :
    (read (some (.wordwise add)) text : Reading ε).result =
      .ok (some ((units.map (Placed.part text.toList)).filterMap (Part.entry? add))) := by
  obtain ⟨turns, hread, hentries⟩ := h.readFrom_wordwise (ε := ε) add []
  rw [List.drop_zero] at hread
  rw [read, hread, ← hentries]
  rfl

/-- With words added under a tag, every unit has an entry. -/
theorem IsLayout.result_read_literal {text : String} (h : IsLayout text.toList 0 units)
    (tag : String) :
    (read (some (.literal tag)) text : Reading ε).result =
      .ok (some (units.map (Placed.tagged tag text.toList))) := by
  refine (h.result_read_wordwise fun word => some [tag, word]).trans ?_
  rw [Part.entry?_under, List.filterMap_eq_map, List.map_map]
  rfl

/-- With words skipped, the facets are left. -/
theorem IsLayout.result_read_skip {text : String} (h : IsLayout text.toList 0 units) :
    (read (some .skip) text : Reading ε).result = .ok (some (units.filterMap Placed.facet)) := by
  refine (h.result_read_wordwise fun _ => none).trans ?_
  rw [Part.entry?_skipped, List.filterMap_map, Placed.facet?_part]

/-! ## Words that end the reading -/

/-- **Facets are read alike** under every fallback, up to where the other units begin. -/
theorem IsLayout.readFrom_facets {facets : List Placed} (h : IsLayout text pos (facets ++ units))
    (hfacets : ∀ unit ∈ facets, unit.facet ≠ none) :
    ∃ stop, IsLayout text stop units ∧ ∀ (fallback : Option (Fallback ε)) earlier,
      readFrom fallback earlier (skipBlanks (text.drop pos)) =
        ⟨(facets.filterMap Placed.facet).map .facet ++
            (readFrom fallback earlier (skipBlanks (text.drop stop))).turns,
          (readFrom fallback earlier (skipBlanks (text.drop stop))).ending⟩ := by
  induction facets generalizing pos with
  | nil => exact ⟨pos, h, fun fallback earlier => rfl⟩
  | cons unit facets ih =>
    obtain ⟨hunit, hfacets⟩ := List.forall_mem_cons.mp hfacets
    cases h with
    | cons hpos hgap hat h =>
      obtain ⟨stop, hstop, hread⟩ := ih h hfacets
      refine ⟨stop, hstop, fun fallback earlier => ?_⟩
      rw [hat.skipBlanks_drop hpos hgap]
      cases hat with
      | facet hfacet =>
        rw [readFrom_facet (facet?_of_facetAt? hfacet), hread]
        rfl
      | word => exact absurd rfl hunit

/-- Without a fallback facets are read to the end of the text. -/
theorem IsLayout.read_bare_of_facets {text : String} (h : IsLayout text.toList 0 units)
    (hfacets : ∀ unit ∈ units, unit.facet ≠ none) :
    (read none text : Reading ε).result = .ok (some (units.filterMap Placed.facet)) ∧
      (read none text : Reading ε).notices = [] := by
  rw [← List.append_nil units] at h
  obtain ⟨stop, hstop, hread⟩ := h.readFrom_facets (ε := ε) hfacets
  cases hstop with
  | done hblank =>
    rw [read, ← List.drop_zero (l := text.toList), hread, skipBlanks_eq_nil_iff.mpr hblank,
      readFrom_nil, List.append_nil]
    exact ⟨congrArg (Except.ok ∘ some) (entries_map_facet _ _), rfl⟩

/-- **Without a fallback the reading ends at the first word**, and leaves a notice of it. -/
theorem IsLayout.read_bare_of_word {text : String} {before after : List Placed}
    (h : IsLayout text.toList 0 (before ++ unit :: after))
    (hbefore : ∀ unit ∈ before, unit.facet ≠ none) (hunit : unit.facet = none) :
    (read none text : Reading ε).result = .ok none ∧
      (read none text : Reading ε).notices = [.stalled (text.toList.drop unit.start)] := by
  obtain ⟨stop, hstop, hread⟩ := h.readFrom_facets (ε := ε) hbefore
  cases hstop with
  | cons hpos hgap hat _ =>
    rw [read, ← List.drop_zero (l := text.toList), hread, hat.skipBlanks_drop hpos hgap,
      readFrom_stuck hat.drop_ne_nil (hat.facet?_eq_none hunit)]
    exact ⟨rfl, rfl⟩

/-! ## The entries of the three readings -/

/-- An entry under the tag comes from a word: a facet starts with its name. -/
theorem IsUnitAt.head?_tagged_eq_iff (h : IsUnitAt text unit) (htag : ¬ IsName tag) :
    (unit.tagged tag text).head? = some tag ↔ unit.facet = none := by
  cases h with
  | facet hfacet =>
    obtain ⟨⟨name, hhead, hname⟩, -⟩ := exists_name_of_facet? (facet?_of_facetAt? hfacet)
    refine ⟨fun h => absurd hname ?_, fun h => by cases h⟩
    obtain rfl := Option.some.inj (hhead.symm.trans h)
    exact htag
  | word => exact ⟨fun _ => rfl, fun _ => rfl⟩

/-- Without the entries under the tag, the facets are left. -/
theorem filter_tagged (h : ∀ unit ∈ units, IsUnitAt text unit) (htag : ¬ IsName tag) :
    (units.map (Placed.tagged tag text)).filter (·.head? ≠ some tag) =
      units.filterMap Placed.facet := by
  induction units with
  | nil => rfl
  | cons unit units ih =>
    obtain ⟨hunit, hunits⟩ := List.forall_mem_cons.mp h
    have hhead := hunit.head?_tagged_eq_iff htag
    rw [List.map_cons, List.filterMap_cons]
    cases hfacet : unit.facet with
    | none =>
      rw [List.filter_cons_of_neg (by simp [hhead.mpr hfacet]), ih hunits]
    | some entry =>
      have hentry : unit.tagged tag text = entry := by
        rw [Placed.tagged, Placed.part, hfacet]
        rfl
      rw [hentry, hfacet] at hhead
      rw [hentry, List.filter_cons_of_pos (by simp [hhead]), ih hunits]

/-- If there is a word among the units, there is a first one. -/
theorem exists_first_word (h : ∃ unit ∈ units, unit.facet = none) :
    ∃ before unit after, units = before ++ unit :: after ∧
      (∀ unit ∈ before, unit.facet ≠ none) ∧ unit.facet = none := by
  have hsome : (units.find? (·.facet.isNone)).isSome := by
    simpa [List.find?_isSome] using h
  obtain ⟨unit, hunit⟩ := Option.isSome_iff_exists.mp hsome
  obtain ⟨hword, before, after, hunits, hbefore⟩ := List.find?_eq_some_iff_append.mp hunit
  refine ⟨before, unit, after, hunits, fun unit hmem => ?_, by simpa using hword⟩
  simpa [Option.isSome_iff_ne_none] using hbefore unit hmem

/-- **The three readings of a text**: with words added under a tag that cannot be the name of a
facet, with words skipped, and with no way to deal with words. The text is laid out in units, and
the first reading has an entry for each. The second has the same entries without those under the
tag. The third has the same entries if none is under the tag; otherwise it has none at all, and one
notice, which reports what is left of the text from the first unit on whose entry is under the
tag. -/
theorem read_modes (text : String) (htag : ¬ IsName tag) :
    ∃ (labelled skipped bare : Reading ε) (units : List Placed) (entries : List Entry),
      parse { literal := some tag } text = .ok labelled ∧
      parse { skipUnmatched := true } text = .ok skipped ∧
      parse {} text = .ok bare ∧
      IsLayout text.toList 0 units ∧ entries = units.map (Placed.tagged tag text.toList) ∧
      labelled.result = .ok (some entries) ∧
      skipped.result = .ok (some (entries.filter (·.head? ≠ some tag))) ∧
      ((∀ entry ∈ entries, entry.head? ≠ some tag) →
        bare.result = .ok (some entries) ∧ bare.notices = []) ∧
      ((∃ entry ∈ entries, entry.head? = some tag) →
        bare.result = .ok none ∧ ∃ before unit after, units = before ++ unit :: after ∧
          (∀ unit ∈ before, (unit.tagged tag text.toList).head? ≠ some tag) ∧
          (unit.tagged tag text.toList).head? = some tag ∧
          bare.notices = [.stalled (text.toList.drop unit.start)]) := by
  obtain ⟨units, h⟩ := exists_isLayout text.toList 0
  have hfilter := filter_tagged h.isUnitAt htag
  have hhead := fun unit hmem => (h.isUnitAt unit hmem).head?_tagged_eq_iff htag
  refine ⟨read (some (.literal tag)) text, read (some .skip) text, read none text, units, _, rfl,
    rfl, rfl, h, rfl, h.result_read_literal tag, ?_, ?_, ?_⟩
  · rw [hfilter, h.result_read_skip]
  · -- no entry is under the tag, so no unit is a word
    intro hnone
    have hfacets : ∀ unit ∈ units, unit.facet ≠ none := fun unit hmem hword =>
      hnone _ (List.mem_map_of_mem hmem) ((hhead unit hmem).mpr hword)
    rw [← List.filter_eq_self.mpr fun entry hmem => decide_eq_true (hnone entry hmem), hfilter]
    exact h.read_bare_of_facets hfacets
  · -- an entry is under the tag, so there is a first word, and before it there are facets only
    rintro ⟨entry, hentry, hunder⟩
    obtain ⟨unit, hmem, rfl⟩ := List.mem_map.mp hentry
    obtain ⟨before, unit, after, rfl, hbefore, hword⟩ :=
      exists_first_word ⟨unit, hmem, (hhead unit hmem).mp hunder⟩
    obtain ⟨hresult, hnotices⟩ := h.read_bare_of_word (ε := ε) hbefore hword
    refine ⟨hresult, before, unit, after, rfl, ?_, ?_, hnotices⟩
    · intro facet hfacet hunder
      have hmem := List.mem_append_left (unit :: after) hfacet
      exact hbefore facet hfacet ((hhead facet hmem).mp hunder)
    · exact (hhead unit (List.mem_append_right before List.mem_cons_self)).mpr hword

/-- A word between two facets: the three readings of the text. -/
theorem read_modes_wordBetween :
    ¬ IsName "#" ∧ ∃ labelled skipped bare : Reading String,
      parse { literal := some "#" } "a:b  c d:e" = .ok labelled ∧
      parse { skipUnmatched := true } "a:b  c d:e" = .ok skipped ∧
      parse {} "a:b  c d:e" = .ok bare ∧
      labelled.result = .ok (some [["a", "b"], ["#", "c"], ["d", "e"]]) ∧
      skipped.result = .ok (some [["a", "b"], ["d", "e"]]) ∧
      bare.result = .ok none ∧ bare.notices = [.stalled "c d:e".toList] := by
  have htag : ¬ IsName "#" := by
    rw [IsName]
    decide
  obtain ⟨labelled, skipped, bare, units, entries, hlabelled, hskipped, hbare, -, -, hentries,
    hothers, -, hnone⟩ := @read_modes String "#" "a:b  c d:e" htag
  have hresult : (read (some (.literal "#")) "a:b  c d:e" : Reading String).result =
      .ok (some [["a", "b"], ["#", "c"], ["d", "e"]]) := by
    cbv
  have hnotices : (read none "a:b  c d:e" : Reading String).notices =
      [.stalled "c d:e".toList] := by
    cbv
  obtain rfl := Except.ok.inj hlabelled
  obtain rfl := Except.ok.inj hbare
  obtain rfl := Option.some.inj (Except.ok.inj (hresult.symm.trans hentries))
  exact ⟨htag, _, skipped, _, hlabelled, hskipped, hbare, hentries, hothers,
    (hnone ⟨["#", "c"], by decide, by decide⟩).1, hnotices⟩

end CommandBar.Search
