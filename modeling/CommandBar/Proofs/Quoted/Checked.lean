import CommandBar.Proofs.Outcome
import CommandBar.Proofs.Quoted.Escape
import CommandBar.Proofs.Quoted.Longest
import CommandBar.Proofs.Text.Checked
import Mathlib.Data.List.Find

/-!
# Looking for a quoted run by position, with every read checked

The search for a quoted run looks one character ahead behind every backslash, and whoever looks for
the run is asked about ends that may be the end of the text. Neither leads beyond it.

- `escapedAt`: the quote that a backslash at a position escapes.
- `scanAt`, `findRunAt`: every way to close a run, and the longest run whose end is accepted.
- `runsAt`: the runs that start at a position, by their contents and ends.
- `scanAt_eq`, `findRunAt_eq`: what they find is what is found in what is left at the position, and
  no read fails.
-/

namespace CommandBar.Quoted

variable {text s : List Char} {pos : Nat} {c q : Char}

/-- The quote that is escaped at the position: a backslash stands there, and a quote behind it. -/
def escapedAt (text : List Char) (pos : Nat) : Except PastEnd (Option Char) := do
  let c ← charAt text pos
  if c = '\\' ∧ pos + 1 < text.length then
    let q ← charAt text (pos + 1)
    return if isGlyph q then some q else none
  else return none

/-- Every way to close a run of which `enclosed` has been read up to the position, longest first,
and then the `shorter` ways that have been passed; each by its content and its end. -/
def scanAt (text : List Char) (shorter : List (String × Nat)) (enclosed : List Char) (pos : Nat) :
    Except PastEnd (List (String × Nat)) :=
  if _h : pos < text.length then do
    match ← escapedAt text pos with
    | some q =>
      let closed := (String.ofList ('\\' :: enclosed).reverse, pos + 2)
      scanAt text (if isCloser q then closed :: shorter else shorter) (q :: enclosed) (pos + 2)
    | none =>
      let c ← charAt text pos
      if isCloser c then return (String.ofList enclosed.reverse, pos + 1) :: shorter
      else if isGlyph c || isControl c then return shorter
      else scanAt text shorter (c :: enclosed) (pos + 1)
  else return shorter
termination_by text.length - pos

/-- The longest quoted run that starts at the position and whose end is accepted. -/
def findRunAt (accept : Nat → Except PastEnd Bool) (text : List Char) (pos : Nat) :
    Except PastEnd (Option (String × Nat)) :=
  if pos < text.length then do
    if isOpener (← charAt text pos) then
      (← scanAt text [] [] (pos + 1)).findM? fun close => accept close.2
    else return none
  else return none

/-- A way to close a run, by its content and its end. -/
def Close.located (text : List Char) (close : Close) : String × Nat :=
  (close.content, close.endIn text)

/-- The runs that start at the position, longest first, each by its content and its end. -/
def runsAt (text : List Char) (pos : Nat) : List (String × Nat) :=
  (closes (text.drop pos)).map (Close.located text)

/-! ## No read fails -/

theorem escapedAt_of_isGlyph (hs : text.drop pos = '\\' :: q :: s) (hq : isGlyph q = true) :
    escapedAt text pos = .ok (some q) := by
  have hnext := (drop_eq_cons_iff.mp hs).2
  have hlt := lt_length_of_drop_eq_cons hnext
  rw [escapedAt, charAt_of_drop_eq_cons hs, Outcome.ok_bind, if_pos ⟨rfl, hlt⟩,
    charAt_of_drop_eq_cons hnext, Outcome.ok_bind, if_pos hq]
  rfl

/-- Behind a backslash the reader looks ahead only if there is a next character. -/
theorem escapedAt_eq_none (hs : text.drop pos = c :: s)
    (hnext : c = '\\' → ∀ q s', s = q :: s' → isGlyph q = false) :
    escapedAt text pos = .ok none := by
  rw [escapedAt, charAt_of_drop_eq_cons hs, Outcome.ok_bind]
  split
  · next hback =>
    obtain ⟨hc, hlt⟩ := hback
    obtain ⟨q, s', hs'⟩ := exists_drop_eq_cons hlt
    have hq := hnext hc q s' ((drop_eq_cons_iff.mp hs).2.symm.trans hs')
    rw [charAt_of_drop_eq_cons hs', Outcome.ok_bind, hq]
    rfl
  · rfl

theorem scanAt_of_drop_eq_nil {shorter : List (String × Nat)} {enclosed : List Char}
    (hs : text.drop pos = []) : scanAt text shorter enclosed pos = .ok shorter := by
  rw [scanAt, dif_neg (not_lt_length_of_drop_eq_nil hs)]
  rfl

theorem scanAt_escaped {shorter : List (String × Nat)} {enclosed : List Char}
    (hs : text.drop pos = '\\' :: q :: s) (hq : isGlyph q = true) :
    scanAt text shorter enclosed pos =
      scanAt text
        (if isCloser q then (String.ofList ('\\' :: enclosed).reverse, pos + 2) :: shorter
          else shorter)
        (q :: enclosed) (pos + 2) := by
  rw [scanAt, dif_pos (lt_length_of_drop_eq_cons hs), escapedAt_of_isGlyph hs hq, Outcome.ok_bind]

theorem scanAt_cons {shorter : List (String × Nat)} {enclosed : List Char}
    (hs : text.drop pos = c :: s) (hnext : c = '\\' → ∀ q s', s = q :: s' → isGlyph q = false) :
    scanAt text shorter enclosed pos =
      if isCloser c then .ok ((String.ofList enclosed.reverse, pos + 1) :: shorter)
      else if isGlyph c || isControl c then .ok shorter
      else scanAt text shorter (c :: enclosed) (pos + 1) := by
  rw [scanAt, dif_pos (lt_length_of_drop_eq_cons hs), escapedAt_eq_none hs hnext, Outcome.ok_bind,
    charAt_of_drop_eq_cons hs]
  rfl

/-- A way to close a run ends where its rest is left. -/
theorem located_eq {enclosed rest : List Char} (hs : text.drop pos = rest)
    (hpos : pos ≤ text.length) :
    Close.located text ⟨enclosed, rest⟩ = (String.ofList enclosed.reverse, pos) := by
  subst hs
  exact Prod.ext rfl (length_sub_length_drop hpos)

/-- **Every way to close a run is found by position**, and no read fails. -/
theorem scanAt_eq (shorter : List Close) (enclosed : List Char) (hs : text.drop pos = s) :
    scanAt text (shorter.map (Close.located text)) enclosed pos =
      .ok ((scan shorter enclosed s).map (Close.located text)) := by
  fun_induction scan shorter enclosed s generalizing pos with
  | case1 => exact scanAt_of_drop_eq_nil hs
  | case2 shorter enclosed q s hq ih =>
    have hnext := (drop_eq_cons_iff.mp hs).2
    have hrest := (drop_eq_cons_iff.mp hnext).2
    have hlt := lt_length_of_drop_eq_cons hnext
    rw [← ih hrest, scanAt_escaped hs hq]
    split
    · rw [List.map_cons, located_eq hrest hlt]
    · rfl
  | case3 shorter enclosed q s hq ih =>
    have hq : isGlyph q = false := by simpa using hq
    have hback : '\\' = '\\' → ∀ q' s', q :: s = q' :: s' → isGlyph q' = false := by
      rintro - _ _ ⟨⟩
      exact hq
    rw [← ih (drop_eq_cons_iff.mp hs).2, scanAt_cons hs hback]
    rfl
  | case4 shorter enclosed c s hnext hc =>
    have hlt := lt_length_of_drop_eq_cons hs
    rw [scanAt_cons hs fun hback q s' hs' => (hnext q s' hback hs').elim, if_pos hc, List.map_cons,
      located_eq (drop_eq_cons_iff.mp hs).2 hlt]
  | case5 shorter enclosed c s hnext hc hstop =>
    rw [scanAt_cons hs fun hback q s' hs' => (hnext q s' hback hs').elim, if_neg hc, if_pos hstop]
  | case6 shorter enclosed c s hnext hc hstop ih =>
    rw [← ih (drop_eq_cons_iff.mp hs).2,
      scanAt_cons hs fun hback q s' hs' => (hnext q s' hback hs').elim, if_neg hc, if_neg hstop]

/-- Behind an opening quote the scan finds the runs that start with it. -/
theorem scanAt_closes (hs : text.drop pos = c :: s) (hopens : isOpener c = true) :
    scanAt text [] [] (pos + 1) = .ok (runsAt text pos) := by
  rw [runsAt, hs, closes, if_pos hopens]
  exact scanAt_eq [] [] (drop_eq_cons_iff.mp hs).2

/-- **The ends of the runs are asked about one after the other**, and nothing but accepting them can
fail. -/
theorem findRunAt_eq_findM? (accept : Nat → Except PastEnd Bool) (text : List Char) (pos : Nat) :
    findRunAt accept text pos = (runsAt text pos).findM? fun run => accept run.2 := by
  rw [findRunAt]
  cases hs : text.drop pos with
  | nil =>
    rw [if_neg (not_lt_length_of_drop_eq_nil hs), runsAt, hs]
    rfl
  | cons c s =>
    rw [if_pos (lt_length_of_drop_eq_cons hs), charAt_of_drop_eq_cons hs, Outcome.ok_bind]
    split
    · next hopens => rw [scanAt_closes hs hopens, Outcome.ok_bind]
    · next hopens =>
      rw [runsAt, hs, closes, if_neg hopens]
      rfl

/-- **The longest run whose end is accepted is found by position**, and no read fails, if none fails
in accepting an end. -/
theorem findRunAt_eq {accept : Nat → Except PastEnd Bool} {welcome : List Char → Bool}
    (haccept : ∀ stop, accept stop = .ok (welcome (text.drop stop))) (pos : Nat) :
    findRunAt accept text pos =
      .ok ((run? welcome (text.drop pos)).map (Close.located text)) := by
  have hfind : run? welcome (text.drop pos) =
      (closes (text.drop pos)).find? fun close => welcome (text.drop (close.endIn text)) := by
    refine List.find?_congr fun close hclose => ?_
    -- a run leaves a later part of the text
    rw [Close.endIn, drop_length_sub_length (mem_closes_iff.mp hclose).suffix]
  have hpure : (fun run : String × Nat => accept run.2) =
      fun run => pure (welcome (text.drop run.2)) :=
    funext fun run => haccept run.2
  rw [findRunAt_eq_findM?, hpure, List.findM?_pure, runsAt, List.find?_map, hfind]
  rfl

end CommandBar.Quoted
