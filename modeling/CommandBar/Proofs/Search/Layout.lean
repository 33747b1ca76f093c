import CommandBar.Proofs.Search.Position
import CommandBar.Proofs.Text.Word
import CommandBar.Search.Spelling

/-!
# The layout of a search

Where the facets of a search stand, and the words between them. Wherever no facet starts, the next
word is a unit of its own, whatever a reader makes of it.

- `Placed`, `IsUnitAt`: a facet or a word, with the piece of the text that it stands on.
- `IsLayout`: the units with their pieces, and how these lie in the text.
- `isName_iff`, `exists_name_of_facet?`: what a name is made of, and a facet starts with one.
- `IsUnitAt.skipBlanks_drop`, `IsUnitAt.length_drop_stop_lt`: what is left in front of a unit, and
  behind it.
- `exists_isLayout`: every text has a layout.
-/

namespace CommandBar.Search

variable {text s rest : List Char} {pos start stop : Nat}

/-- A unit of a search, and the piece of the text that it stands on: from `start` up to `stop`. -/
structure Placed where
  start : Nat
  stop : Nat
  /-- The facet; nothing if the unit is a word. -/
  facet : Option Entry
  deriving Repr, DecidableEq

/-- The unit stands in the text: a facet that starts at the position, or the whole word at a
position at which no facet starts. -/
inductive IsUnitAt (text : List Char) : Placed → Prop
  | facet {start stop : Nat} {entry : Entry} :
      facetAt? text start = some (entry, stop) → IsUnitAt text ⟨start, stop, some entry⟩
  | word {start : Nat} {c : Char} :
      text[start]? = some c → isBlank c = false → facetAt? text start = none →
        IsUnitAt text ⟨start, afterWordAt text start, none⟩

/-- From `pos` on the text consists of the units, each on its piece, with only blanks in front of
each and behind the last. -/
inductive IsLayout (text : List Char) : (pos : Nat) → List Placed → Prop
  | done {pos : Nat} : AllBlank (text.drop pos) → IsLayout text pos []
  | cons {pos : Nat} {unit : Placed} {units : List Placed} :
      pos ≤ unit.start → AllBlank (text.extract pos unit.start) → IsUnitAt text unit →
        IsLayout text unit.stop units → IsLayout text pos (unit :: units)

/-! ## The front of a facet -/

/-- No range of blanks reaches into the characters that leave a mark on paper. -/
theorem isBlank_of_visible {c : Char} (hlow : 33 ≤ c.toNat) (hhigh : c.toNat ≤ 126) :
    isBlank c = false := by
  have hapart : ∀ r ∈ blanks.ranges, r.last < 33 ∨ 126 < r.first := by decide
  rw [Bool.eq_false_iff, isBlank, Ne, CodeClass.contains_iff]
  rintro ⟨r, hr, hfirst, hlast⟩
  have := hapart r hr
  omega

theorem Identifier.isLater_of_isFirst {c : Char} (h : isFirst c = true) : isLater c = true := by
  simp only [isFirst, isLater, Char.isAlphanum, Bool.or_eq_true] at h ⊢
  exact .inl (h.imp_left .inl)

/-- Letters, digits, hyphens and underscores are ASCII, and they leave a mark on paper. -/
theorem Identifier.visible_of_isLater {c : Char} (h : isLater c = true) :
    33 ≤ c.toNat ∧ c.toNat ≤ 126 := by
  simp only [isLater, Char.isAlphanum, Bool.or_eq_true, decide_eq_true_eq] at h
  rcases h with ((hletter | hdigit) | rfl) | rfl
  · rcases Bool.or_eq_true_iff.mp hletter with hupper | hlower
    · have hrange : 65 ≤ c.toNat ∧ c.toNat ≤ 90 := of_decide_eq_true hupper
      omega
    · obtain ⟨hlow, hhigh⟩ := Bool.and_eq_true_iff.mp hlower
      have hrange : 97 ≤ c.toNat ∧ c.toNat ≤ 122 :=
        ⟨of_decide_eq_true hlow, of_decide_eq_true hhigh⟩
      omega
  · obtain ⟨hlow, hhigh⟩ := Bool.and_eq_true_iff.mp hdigit
    have hrange : 48 ≤ c.toNat ∧ c.toNat ≤ 57 :=
      ⟨of_decide_eq_true hlow, of_decide_eq_true hhigh⟩
    omega
  · decide
  · decide

theorem isBlank_of_isLater {c : Char} (h : Identifier.isLater c = true) : isBlank c = false := by
  obtain ⟨hlow, hhigh⟩ := Identifier.visible_of_isLater h
  exact isBlank_of_visible hlow hhigh

theorem isBlank_of_isFirst {c : Char} (h : Identifier.isFirst c = true) : isBlank c = false :=
  isBlank_of_isLater (Identifier.isLater_of_isFirst h)

/-- **A name** is a letter or a hyphen with letters, digits, hyphens and underscores behind it. -/
theorem isName_iff {name : String} :
    IsName name ↔
      ∃ c later, name.toList = c :: later ∧ Identifier.isFirst c = true ∧
        ∀ d ∈ later, Identifier.isLater d = true := by
  rw [IsName, identifier?_eq_some_iff]
  constructor
  · intro h
    generalize name.toList = s at h
    generalize hrest : ([] : List Char) = rest at h
    cases h with
    | @mk c later _ hc hlater _ =>
      rw [← hrest, List.append_nil]
      exact ⟨c, later, rfl, hc, hlater⟩
  · rintro ⟨c, later, hs, hc, hlater⟩
    have hwhole : IsIdentifier (c :: (later ++ [])) (String.ofList (c :: later)) [] :=
      .mk hc hlater fun d r h => absurd h.symm (List.cons_ne_nil d r)
    rwa [List.append_nil, ← hs, String.ofList_toList] at hwhole

/-- The identifier that starts a text is one as a whole. -/
theorem IsIdentifier.isName {name : String} (h : IsIdentifier s name rest) : IsName name := by
  cases h with
  | mk hc hlater _ => exact isName_iff.mpr ⟨_, _, String.toList_ofList, hc, hlater⟩

/-- **A facet starts with its name**, and the text of a facet with a character that is not blank. -/
theorem exists_name_of_facet? {entry : Entry} (h : facet? s = some (entry, rest)) :
    (∃ name, entry.head? = some name ∧ IsName name) ∧ ∃ c s', s = c :: s' ∧ isBlank c = false := by
  obtain ⟨hname, -, -, -⟩ := facet?_eq_some_iff.mp h
  refine ⟨⟨_, rfl, hname.isName⟩, ?_⟩
  cases hname with
  | mk hc => exact ⟨_, _, rfl, isBlank_of_isFirst hc⟩

/-! ## A unit by what is left of the text -/

/-- A facet at a position is one that starts what is left there. -/
theorem facet?_of_facetAt? {entry : Entry} (h : facetAt? text start = some (entry, stop)) :
    facet? (text.drop start) = some (entry, text.drop stop) :=
  (facetAt?_eq_some_iff_facet?.mp h).2

/-- A unit starts with a character that is not blank. -/
theorem IsUnitAt.exists_first {unit : Placed} (h : IsUnitAt text unit) :
    ∃ c rest, text.drop unit.start = c :: rest ∧ isBlank c = false := by
  cases h with
  | facet hfacet => exact (exists_name_of_facet? (facet?_of_facetAt? hfacet)).2
  | word hc hblank _ => exact ⟨_, _, drop_eq_cons_iff.mpr ⟨hc, rfl⟩, hblank⟩

theorem IsUnitAt.drop_ne_nil {unit : Placed} (h : IsUnitAt text unit) :
    text.drop unit.start ≠ [] := by
  obtain ⟨c, rest, hstart, -⟩ := h.exists_first
  rw [hstart]
  exact List.cons_ne_nil c rest

/-- Where a unit is a word, no facet starts. -/
theorem IsUnitAt.facet?_eq_none {unit : Placed} (h : IsUnitAt text unit)
    (hword : unit.facet = none) : facet? (text.drop unit.start) = none := by
  cases h with
  | facet => cases hword
  | word _ _ hnone => exact Option.map_eq_none_iff.mp hnone

/-- Once the blanks in front of a unit are skipped, the text is left from the unit on. -/
theorem IsUnitAt.skipBlanks_drop {unit : Placed} (h : IsUnitAt text unit) (hpos : pos ≤ unit.start)
    (hgap : AllBlank (text.extract pos unit.start)) :
    skipBlanks (text.drop pos) = text.drop unit.start := by
  obtain ⟨c, rest, hstart, hblank⟩ := h.exists_first
  rw [drop_eq_extract_append hpos, skipBlanks_append hgap, hstart, skipBlanks_cons hblank]

/-- Behind a unit there is less left than in front of it. -/
theorem IsUnitAt.length_drop_stop_lt {unit : Placed} (h : IsUnitAt text unit) :
    (text.drop unit.stop).length < (text.drop unit.start).length := by
  obtain ⟨c, rest, hstart, hblank⟩ := h.exists_first
  cases h with
  | facet hfacet => exact length_rest_lt_of_facet? (facet?_of_facetAt? hfacet)
  | word _ _ _ =>
    rw [drop_afterWordAt, hstart]
    exact length_afterWord_lt hblank

/-! ## Every text has a layout -/

/-- From every position at which something is left there is a unit, behind blanks. -/
theorem exists_isUnitAt (h : ¬ AllBlank (text.drop pos)) :
    ∃ unit, pos ≤ unit.start ∧ AllBlank (text.extract pos unit.start) ∧ IsUnitAt text unit := by
  obtain ⟨gap, hgap, hs⟩ := exists_gap (text.drop pos)
  have hextract := extract_add_length hs
  have hdrop := drop_add_length hs
  cases hfacet : facetAt? text (pos + gap.length) with
  | some found =>
    obtain ⟨entry, stop⟩ := found
    refine ⟨⟨pos + gap.length, stop, some entry⟩, Nat.le_add_right _ _, ?_, .facet hfacet⟩
    rwa [hextract]
  | none =>
    cases hrest : skipBlanks (text.drop pos) with
    | nil => exact absurd (skipBlanks_eq_nil_iff.mp hrest) h
    | cons c rest =>
      rw [hrest] at hdrop
      have hblank := isBlank_of_skipBlanks_eq_cons hrest
      refine ⟨⟨pos + gap.length, afterWordAt text (pos + gap.length), none⟩,
        Nat.le_add_right _ _, ?_, .word (drop_eq_cons_iff.mp hdrop).1 hblank hfacet⟩
      rwa [hextract]

/-- **Every text has a layout.** -/
theorem exists_isLayout (text : List Char) (pos : Nat) : ∃ units, IsLayout text pos units := by
  induction hlength : (text.drop pos).length using Nat.strongRecOn generalizing pos with
  | ind length ih =>
    by_cases hblank : AllBlank (text.drop pos)
    · exact ⟨[], .done hblank⟩
    · obtain ⟨unit, hpos, hgap, hunit⟩ := exists_isUnitAt hblank
      -- a unit is not empty, so behind it there is less left than at `pos`
      have hlt : (text.drop unit.stop).length < length := by
        have hstop := hunit.length_drop_stop_lt
        rw [List.length_drop, List.length_drop] at hstop
        rw [List.length_drop] at hlength ⊢
        omega
      obtain ⟨units, hunits⟩ := ih _ hlt unit.stop rfl
      exact ⟨unit :: units, .cons hpos hgap hunit hunits⟩

theorem IsLayout.isUnitAt {units : List Placed} (h : IsLayout text pos units) :
    ∀ unit ∈ units, IsUnitAt text unit := by
  induction h with
  | done => exact fun unit h => absurd h List.not_mem_nil
  | cons _ _ hunit _ ih => exact List.forall_mem_cons.mpr ⟨hunit, ih⟩

end CommandBar.Search
