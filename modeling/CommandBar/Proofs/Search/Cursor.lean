import CommandBar.Proofs.Search.Checked
import CommandBar.Proofs.Search.Modes
import CommandBar.Proofs.Text.Tiling

/-!
# Reading a search with a cursor

The reader of searches works on what is left of a text, and looks after every turn whether it has
become less. A cursor that moves over the whole text, from one unit to the next, needs no such look:
it always moves on. Words taken under a tag are read the same in both ways.

- `readUnitAt`, `readUnitsAt`, `scanUnits`: the units that the cursor finds, with every read
  checked.
- `lt_of_readUnitAt`: the cursor moves on.
- `IsLayout.readUnitsAt_eq`: **it finds the layout of the text**, and no read fails.
- `IsLayout.existsUnique_covers`: every character that is not blank lies in one unit.
- `parse_eq_scanUnits`: **reading what is left is moving the cursor**.
-/

namespace CommandBar.Search

variable {ε : Type} {text : List Char} {pos i : Nat} {c : Char} {unit : Placed}
  {units : List Placed}

/-- The unit at the position, and the position at which the cursor stands next: a facet if one
starts there, otherwise the word, and then behind the blanks. -/
def readUnitAt (text : List Char) (pos : Nat) : Except PastEnd (Placed × Nat) := do
  match ← readFacetAt text pos with
  | some (entry, stop) => return (⟨pos, stop, some entry⟩, ← spanEnd isBlank text stop)
  | none =>
    let stop ← spanEnd (!isBlank ·) text pos
    return (⟨pos, stop, none⟩, ← spanEnd isBlank text stop)

/-- The unit that the cursor finds at the position. -/
def unitAt (text : List Char) (pos : Nat) : Placed :=
  match facetAt? text pos with
  | some (entry, stop) => ⟨pos, stop, some entry⟩
  | none => ⟨pos, afterWordAt text pos, none⟩

/-! ## The cursor moves on -/

theorem readUnitAt_eq (text : List Char) (pos : Nat) :
    readUnitAt text pos =
      .ok (unitAt text pos, afterBlanksAt text (unitAt text pos).stop) := by
  rw [readUnitAt, readFacetAt_eq, Outcome.ok_bind, unitAt]
  cases facetAt? text pos with
  | some found =>
    dsimp only
    rw [spanEnd_blank]
    rfl
  | none =>
    dsimp only
    rw [spanEnd_word, Outcome.ok_bind, spanEnd_blank]
    rfl

/-- Behind the unit and the blanks at a position the cursor stands further on. If it stood at a
blank, the unit is empty and the blanks are not. -/
theorem lt_afterBlanksAt_unitAt (h : pos < text.length) :
    pos < afterBlanksAt text (unitAt text pos).stop := by
  obtain ⟨c, rest, hs⟩ := exists_drop_eq_cons h
  rw [unitAt]
  cases hfacet : facetAt? text pos with
  | some found =>
    obtain ⟨entry, stop⟩ := found
    have hlt := (facetAt?_eq_some_iff_isFacetAt.mp hfacet).start_lt_stop
    exact Nat.lt_of_lt_of_le hlt (le_afterBlanksAt text stop)
  | none =>
    cases hblank : isBlank c with
    | true =>
      have hword : afterWordAt text pos = pos := by
        rw [afterWordAt_eq_self_iff, hs, word, List.takeWhile_cons_of_neg (by simp [hblank])]
      show pos < afterBlanksAt text (afterWordAt text pos)
      rw [hword, afterBlanksAt, hs, List.takeWhile_cons_of_pos hblank, List.length_cons]
      omega
    | false =>
      have hword : pos < afterWordAt text pos := by
        rw [afterWordAt, hs, word, List.takeWhile_cons_of_pos (by simp [hblank]), List.length_cons]
        omega
      exact Nat.lt_of_lt_of_le hword (le_afterBlanksAt text _)

theorem lt_of_readUnitAt {next : Nat} (h : readUnitAt text pos = .ok (unit, next))
    (hpos : pos < text.length) : pos < next := by
  rw [readUnitAt_eq] at h
  obtain ⟨-, rfl⟩ := Prod.mk.inj (Except.ok.inj h)
  exact lt_afterBlanksAt_unitAt hpos

/-- The units from the position on. -/
def readUnitsAt (text : List Char) (pos : Nat) : Except PastEnd (List Placed) :=
  if hpos : pos < text.length then
    match h : readUnitAt text pos with
    | .error e => .error e
    | .ok (unit, next) =>
      have _ := lt_of_readUnitAt h hpos
      return unit :: (← readUnitsAt text next)
  else return []
termination_by text.length - pos

/-- The units of the text. The cursor starts at the first character that is not blank. -/
def scanUnits (text : List Char) : Except PastEnd (List Placed) := do
  readUnitsAt text (← spanEnd isBlank text 0)

theorem readUnitsAt_of_lt (h : pos < text.length) :
    readUnitsAt text pos =
      (readUnitsAt text (afterBlanksAt text (unitAt text pos).stop)).map
        (unitAt text pos :: ·) := by
  rw [readUnitsAt, dif_pos h]
  split
  · next hread =>
    rw [readUnitAt_eq] at hread
    cases hread
  · next hread =>
    rw [readUnitAt_eq] at hread
    obtain ⟨rfl, rfl⟩ := Prod.mk.inj (Except.ok.inj hread)
    rfl

theorem readUnitsAt_of_not_lt (h : ¬ pos < text.length) : readUnitsAt text pos = .ok [] := by
  rw [readUnitsAt, dif_neg h]
  rfl

/-! ## The cursor finds the layout -/

/-- The cursor finds a unit where it stands. -/
theorem IsUnitAt.unitAt_eq (h : IsUnitAt text unit) : unitAt text unit.start = unit := by
  cases h with
  | facet hfacet =>
    dsimp only
    rw [unitAt, hfacet]
  | word _ _ hnone =>
    dsimp only
    rw [unitAt, hnone]

theorem IsUnitAt.getElem?_start (h : IsUnitAt text unit) :
    ∃ c, text[unit.start]? = some c ∧ isBlank c = false := by
  obtain ⟨c, rest, hs, hblank⟩ := h.exists_first
  exact ⟨c, (drop_eq_cons_iff.mp hs).1, hblank⟩

/-- **The cursor finds the layout of the text**, and no read fails. The induction is on the layout:
behind the blanks in front of a unit the cursor stands at its start. -/
theorem IsLayout.readUnitsAt_eq (h : IsLayout text pos units) :
    readUnitsAt text (afterBlanksAt text pos) = .ok units := by
  induction h with
  | done hblank =>
    exact readUnitsAt_of_not_lt (Nat.not_lt.mpr (length_le_afterBlanksAt_iff.mpr hblank))
  | @cons pos unit units hpos hgap hunit _ ih =>
    obtain ⟨c, hc, hblank⟩ := hunit.getElem?_start
    obtain ⟨hlt, -⟩ := List.getElem?_eq_some_iff.mp hc
    rw [afterBlanksAt_eq hpos hgap hc hblank, readUnitsAt_of_lt hlt, hunit.unitAt_eq, ih]
    rfl

theorem IsLayout.scanUnits_eq (h : IsLayout text 0 units) : scanUnits text = .ok units := by
  rw [scanUnits, spanEnd_blank, Outcome.ok_bind]
  exact h.readUnitsAt_eq

/-! ## What a unit covers -/

theorem IsUnitAt.start_lt_stop (h : IsUnitAt text unit) : unit.start < unit.stop := by
  have hlt := h.length_drop_stop_lt
  rw [List.length_drop, List.length_drop] at hlt
  omega

/-- The units stand on pieces of the text that follow one another. -/
theorem IsLayout.tiles (h : IsLayout text pos units) :
    Tiles Placed.start Placed.stop text pos units := by
  induction h with
  | done hblank => exact .done hblank
  | cons hpos hgap hunit _ ih => exact .cons hpos hgap hunit.start_lt_stop ih

/-- **Every character that is not blank lies in one unit.** -/
theorem IsLayout.existsUnique_covers (h : IsLayout text pos units) (hpos : pos ≤ i)
    (hc : text[i]? = some c) (hblank : isBlank c = false) :
    ∃! unit, unit ∈ units ∧ unit.start ≤ i ∧ i < unit.stop :=
  h.tiles.existsUnique_covers hpos hc hblank

/-! ## The two ways to read -/

/-- **Reading what is left is moving the cursor.** Whatever the text and the tag, the reader that
adds words under the tag goes through to the end, and what it adds are the units that the cursor
finds, each facet as it is and each word under the tag. No read of the cursor fails, and every
character of the text that is not blank lies in exactly one unit. -/
theorem parse_eq_scanUnits (tag text : String) :
    ∃ (reading : Reading ε) (units : List Placed),
      parse { literal := some tag } text = .ok reading ∧
      scanUnits text.toList = .ok units ∧
      reading.result = .ok (some (units.map (Placed.tagged tag text.toList))) ∧
      IsLayout text.toList 0 units ∧
      ∀ i c, text.toList[i]? = some c → isBlank c = false →
        ∃! unit, unit ∈ units ∧ unit.start ≤ i ∧ i < unit.stop := by
  obtain ⟨units, h⟩ := exists_isLayout text.toList 0
  refine ⟨read (some (.literal tag)) text, units, rfl, h.scanUnits_eq, h.result_read_literal tag, h,
    ?_⟩
  intro i c hc hblank
  exact h.existsUnique_covers (Nat.zero_le i) hc hblank

/-- A word, a facet with a blank in its value, and a name without a value, which is a word. The last
character in front of the closing quote belongs to the facet alone. -/
theorem parse_eq_scanUnits_threeUnits :
    ∃ (reading : Reading String) (units : List Placed),
      parse { literal := some "#" } "  c a:\"b d\"\td: " = .ok reading ∧
      reading.result = .ok (some [["#", "c"], ["a", "b d"], ["#", "d:"]]) ∧
      units = [⟨2, 3, none⟩, ⟨4, 11, some ["a", "b d"]⟩, ⟨12, 14, none⟩] ∧
      ∃! unit, unit ∈ units ∧ unit.start ≤ 9 ∧ 9 < unit.stop := by
  obtain ⟨reading, units, hparse, hscan, hresult, -, hcovers⟩ :=
    @parse_eq_scanUnits String "#" "  c a:\"b d\"\td: "
  have hunits : scanUnits "  c a:\"b d\"\td: ".toList =
      .ok [⟨2, 3, none⟩, ⟨4, 11, some ["a", "b d"]⟩, ⟨12, 14, none⟩] := by
    decide +kernel
  obtain rfl := Except.ok.inj (hscan.symm.trans hunits)
  have hentries : [⟨2, 3, none⟩, ⟨4, 11, some ["a", "b d"]⟩, ⟨12, 14, none⟩].map
      (Placed.tagged "#" "  c a:\"b d\"\td: ".toList) =
        [["#", "c"], ["a", "b d"], ["#", "d:"]] := by
    decide +kernel
  rw [hentries] at hresult
  exact ⟨reading, _, hparse, hresult, rfl, hcovers 9 'd' (by decide) (by decide)⟩

end CommandBar.Search
