import CommandBar.Proofs.Search.Checked
import Mathlib

/-!
# Looking behind a front

Whoever looks for a quoted run or for a facet at a position reads nothing in front of it. So behind
any front the same is found, and every end is greater by the length of the front: those that are
found, and those that are asked about on the way. A reader may cut off what it has read, or it may
keep the whole text and go by position.

- `moveEnd`, `Quoted.Search.move`: what was found, with its ends moved.
- `Quoted.runsAt_append`: behind a front there are the same runs.
- `Quoted.runAt_of_runsAt`, `Quoted.findRunAt_of_runsAt`: where the runs are the same but for their
  ends, the same is found, if the same ends are accepted.
- `facetAt?_append`: behind a front there is the same facet.
- `found_append`: **what is found behind a front**, and what is found in a text that was cut off.
-/

namespace CommandBar

variable {front text text' rest : List Char} {pos pos' offset : Nat}

/-- What was found, with its end moved. -/
def moveEnd {α : Type} (offset : Nat) (found : α × Nat) : α × Nat :=
  (found.1, offset + found.2)

theorem drop_front (front text : List Char) (pos : Nat) :
    (front ++ text).drop (front.length + pos) = text.drop pos := by
  rw [← List.drop_drop, List.drop_left]

/-- What is left of a text ends where it ended, but for the front. -/
theorem length_front_sub_length (front : List Char) (h : rest.length ≤ text.length) :
    (front ++ text).length - rest.length = front.length + (text.length - rest.length) := by
  rw [List.length_append]
  omega

namespace Quoted

/-- What came of looking for a quoted run, with all ends moved. -/
def Search.move (offset : Nat) (search : Search) : Search :=
  ⟨search.found.map (moveEnd offset), search.asked.map (offset + ·)⟩

/-! ## Quoted runs -/

/-- **Behind a front there are the same runs.** -/
theorem runsAt_append (front text : List Char) (pos : Nat) :
    runsAt (front ++ text) (front.length + pos) =
      (runsAt text pos).map (moveEnd front.length) := by
  rw [runsAt, drop_front, runsAt, List.map_map]
  refine List.map_congr_left fun close hclose => ?_
  have hlt := length_rest_lt_of_mem_closes hclose
  rw [List.length_drop] at hlt
  exact Prod.ext rfl (length_front_sub_length front (by omega))

/-- **The runs at a position** are those at the start of what is left there. -/
theorem runsAt_drop (text : List Char) (pos : Nat) :
    runsAt text pos = (runsAt (text.drop pos) 0).map (moveEnd pos) := by
  by_cases hpos : pos ≤ text.length
  · have happend := runsAt_append (text.take pos) (text.drop pos) 0
    rwa [List.take_append_drop, List.length_take, Nat.min_eq_left hpos] at happend
  · rw [runsAt, runsAt, List.drop_eq_nil_iff.mpr (Nat.le_of_not_le hpos)]
    rfl

theorem throughFirst_map {α β : Type} (f : α → β) (test : β → Bool) (as : List α) :
    throughFirst test (as.map f) = (throughFirst (fun a => test (f a)) as).map f := by
  induction as with
  | nil => rfl
  | cons a as ih =>
    rw [List.map_cons, throughFirst, throughFirst]
    split
    · rfl
    · rw [ih, List.map_cons]

/-- Looking for a run is choosing among those that start at the position. -/
theorem runAt_eq (accept : Option (Nat → Bool)) (text : List Char) (pos : Nat) :
    runAt accept text pos =
      match accept with
      | none => ⟨(runsAt text pos).head?, []⟩
      | some accept => ⟨(runsAt text pos).find? fun run => accept run.2,
          throughFirst accept ((runsAt text pos).map (·.2))⟩ := by
  cases accept with
  | none =>
    dsimp only
    rw [runsAt, List.head?_map]
    rfl
  | some accept =>
    dsimp only
    rw [runsAt, List.find?_map, List.map_map]
    rfl

/-- **Where the runs are the same but for their ends, the same is found**, and the same ends are
asked about. -/
theorem runAt_of_runsAt (h : runsAt text' pos' = (runsAt text pos).map (moveEnd offset))
    (accept : Option (Nat → Bool)) :
    runAt accept text' pos' =
      (runAt (accept.map fun accept stop => accept (offset + stop)) text pos).move offset := by
  rw [runAt_eq, runAt_eq, h]
  cases accept with
  | none =>
    dsimp only [Option.map_none]
    rw [List.head?_map]
    rfl
  | some accept =>
    dsimp only [Option.map_some]
    have hends : ((runsAt text pos).map (moveEnd offset)).map (·.2) =
        ((runsAt text pos).map (·.2)).map (offset + ·) := by
      rw [List.map_map, List.map_map]
      rfl
    rw [List.find?_map, hends, throughFirst_map]
    rfl

theorem findRunAt_of_runsAt (h : runsAt text' pos' = (runsAt text pos).map (moveEnd offset))
    (accept : Nat → Except PastEnd Bool) :
    findRunAt accept text' pos' =
      (findRunAt (fun stop => accept (offset + stop)) text pos).map
        (Option.map (moveEnd offset)) := by
  rw [findRunAt_eq_findM?, findRunAt_eq_findM?, h, Outcome.findM?_map]
  rfl

end Quoted

namespace Search

/-! ## Facets -/

/-- **Behind a front there is the same facet.** -/
theorem facetAt?_append (front text : List Char) (pos : Nat) :
    facetAt? (front ++ text) (front.length + pos) =
      (facetAt? text pos).map (moveEnd front.length) := by
  rw [facetAt?, drop_front, facetAt?, Option.map_map]
  refine Option.map_congr fun found hfound => ?_
  have hlt := length_rest_lt_of_facet? (Option.mem_def.mp hfound)
  rw [List.length_drop] at hlt
  exact Prod.ext rfl (length_front_sub_length front (by omega))

theorem facetAt?_drop (text : List Char) (pos : Nat) :
    facetAt? text pos = (facetAt? (text.drop pos) 0).map (moveEnd pos) := by
  by_cases hpos : pos ≤ text.length
  · have happend := facetAt?_append (text.take pos) (text.drop pos) 0
    rwa [List.take_append_drop, List.length_take, Nat.min_eq_left hpos] at happend
  · rw [facetAt?, facetAt?, List.drop_eq_nil_iff.mpr (Nat.le_of_not_le hpos)]
    rfl

theorem readFacetAt_of_facetAt?
    (h : facetAt? text' pos' = (facetAt? text pos).map (moveEnd offset)) :
    readFacetAt text' pos' = (readFacetAt text pos).map (Option.map (moveEnd offset)) := by
  rw [readFacetAt_eq, readFacetAt_eq, h]
  rfl

/-! ## Behind a front -/

/-- **What is found behind a front**, whatever the front and the text. A quoted run is found as it
is in the text alone, if the ends are accepted that lie behind the front by as much as those
accepted there; its end is moved by the length of the front, and so are the ends that are asked
about. A facet is found as it is in the text alone, with its end moved. This is so of the readers
that check each read as well: behind a front they do not fail where they did not fail before. And
what is found at a position is what is found at the start of the text that is left when the front
is cut off. -/
theorem found_append (front text : List Char) (pos : Nat) :
    (∀ accept, Quoted.runAt accept (front ++ text) (front.length + pos) =
      (Quoted.runAt (accept.map fun accept stop => accept (front.length + stop)) text pos).move
        front.length) ∧
    facetAt? (front ++ text) (front.length + pos) =
      (facetAt? text pos).map (moveEnd front.length) ∧
    (∀ accept, Quoted.findRunAt accept (front ++ text) (front.length + pos) =
      (Quoted.findRunAt (fun stop => accept (front.length + stop)) text pos).map
        (Option.map (moveEnd front.length))) ∧
    readFacetAt (front ++ text) (front.length + pos) =
      (readFacetAt text pos).map (Option.map (moveEnd front.length)) ∧
    (∀ accept, Quoted.runAt accept text pos =
      (Quoted.runAt (accept.map fun accept stop => accept (pos + stop)) (text.drop pos) 0).move
        pos) ∧
    facetAt? text pos = (facetAt? (text.drop pos) 0).map (moveEnd pos) := by
  have hruns := Quoted.runsAt_append front text pos
  have hfacet := facetAt?_append front text pos
  refine ⟨Quoted.runAt_of_runsAt hruns, hfacet, Quoted.findRunAt_of_runsAt hruns,
    readFacetAt_of_facetAt? hfacet, ?_, facetAt?_drop text pos⟩
  exact Quoted.runAt_of_runsAt (Quoted.runsAt_drop text pos)

end Search

end CommandBar
