import CommandBar.Proofs.Text.Extract
import Mathlib.Logic.ExistsUnique

/-!
# Texts cut into pieces

A reader that takes one thing after the other cuts the text into pieces with blanks between them.
What the things are does not matter here, only where each starts and stops.

- `Tiles`: pieces that lie one behind the other, with only blanks outside of them.
- `start_le_of_allBlank`: a piece does not start behind a character that is not blank.
- `Tiles.existsUnique_covers`: **every character that is not blank lies in one piece**.
-/

namespace CommandBar

variable {α : Type} {start stop : α → Nat} {text : List Char} {pos i : Nat} {c : Char}
  {pieces : List α}

/-- From `pos` on the text consists of the pieces, none of them empty, with only blanks in front of
each and behind the last. -/
inductive Tiles (start stop : α → Nat) (text : List Char) : (pos : Nat) → List α → Prop
  | done {pos : Nat} : AllBlank (text.drop pos) → Tiles start stop text pos []
  | cons {pos : Nat} {piece : α} {pieces : List α} :
      pos ≤ start piece → AllBlank (text.extract pos (start piece)) → start piece < stop piece →
        Tiles start stop text (stop piece) pieces → Tiles start stop text pos (piece :: pieces)

/-- Up to the start of a piece there are blanks only. -/
theorem start_le_of_allBlank {start : Nat} (hgap : AllBlank (text.extract pos start))
    (hpos : pos ≤ i) (hc : text[i]? = some c) (hblank : isBlank c = false) : start ≤ i := by
  refine Nat.le_of_not_lt fun hlt => ?_
  rw [hgap c (mem_extract_of_getElem? hpos hlt hc)] at hblank
  cases hblank

theorem Tiles.le_start (h : Tiles start stop text pos pieces) :
    ∀ piece ∈ pieces, pos ≤ start piece := by
  induction h with
  | done => exact fun piece h => absurd h List.not_mem_nil
  | cons hpos _ hlt _ ih =>
    intro piece hmem
    rcases List.mem_cons.mp hmem with rfl | hmem
    · exact hpos
    · have := ih piece hmem
      omega

/-- **Every character that is not blank lies in one piece.** -/
theorem Tiles.existsUnique_covers (h : Tiles start stop text pos pieces) (hpos : pos ≤ i)
    (hc : text[i]? = some c) (hblank : isBlank c = false) :
    ∃! piece, piece ∈ pieces ∧ start piece ≤ i ∧ i < stop piece := by
  induction h with
  | done hblank' =>
    rw [hblank' c (mem_drop_of_getElem? hpos hc)] at hblank
    cases hblank
  | @cons pos piece pieces hle hgap hlt hrest ih =>
    have hstart := start_le_of_allBlank hgap hpos hc hblank
    by_cases hstop : i < stop piece
    · -- the later pieces start behind this one
      refine ⟨piece, ⟨List.mem_cons_self, hstart, hstop⟩, ?_⟩
      rintro other ⟨hmem, hstart', -⟩
      rcases List.mem_cons.mp hmem with rfl | hmem
      · rfl
      · have := hrest.le_start other hmem
        omega
    · obtain ⟨covering, ⟨hmem, hcovers⟩, honly⟩ := ih (by omega)
      refine ⟨covering, ⟨List.mem_cons_of_mem _ hmem, hcovers⟩, ?_⟩
      rintro other ⟨hmem', hcovers'⟩
      rcases List.mem_cons.mp hmem' with rfl | hmem'
      · exact absurd hcovers'.2 hstop
      · exact honly other ⟨hmem', hcovers'⟩

end CommandBar
