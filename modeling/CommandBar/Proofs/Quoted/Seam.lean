import CommandBar.Proofs.Quoted.Escape
import CommandBar.Text.Word

/-!
# Quoted runs that do not cross a seam

A quoted run may hold blanks, so blanks between two texts do not keep a run that opens in the first
from closing in the second. They do if one of them is a control character, or if the second text
has no closing quote; then the runs of the first text are the same whether or not the second one
follows.

- `Seam`: blanks, and a later text into which no run can be carried over them.
- `Seals`: a text in which no run can be closed that was opened in front of it.
- `scan_stray`, `scan_of_no_closer`, `scan_of_mem_control`: where there is no way to close a run.
- `Seam.seals`: behind a seam, a text seals what is in front.
- `seam_tab`: a tab is a seam in front of any text.
- `closes_append`, `run?_append`: in front of a text that seals it, a text has the runs that it has
  alone.
-/

namespace CommandBar.Quoted

/-- The blanks `gap` keep what stands in front of them apart from the text `later`. -/
structure Seam (gap later : List Char) : Prop where
  ne_nil : gap ≠ []
  blank : AllBlank gap
  shut : (∃ c ∈ gap, isControl c = true) ∨ ∀ c ∈ later, isCloser c = false

/-- No run that was opened in front of the text can be closed in it. It does not start with a quote,
either: behind a backslash that quote would be taken for an escaped one. -/
structure Seals (s : List Char) : Prop where
  head : ∀ q s', s = q :: s' → isGlyph q = false
  scan_eq : ∀ shorter enclosed, scan shorter enclosed s = shorter

/-- The same way to close a run, with a text behind what follows it. -/
def Close.followedBy (later : List Char) (close : Close) : Close :=
  ⟨close.enclosed, close.rest ++ later⟩

/-! ## What seals -/

theorem isGlyph_of_isBlank {c : Char} (h : isBlank c = true) : isGlyph c = false := by
  have hall : glyphs.all (!isBlank ·) = true := by decide
  cases hc : isGlyph c with
  | false => rfl
  | true =>
    have hblank := List.all_eq_true.mp hall c (by simpa [isGlyph] using hc)
    simp [h] at hblank

/-- A quote that only opens ends the search for a way to close the run. -/
theorem scan_stray {shorter : List Close} {enclosed s : List Char} {c : Char}
    (hglyph : isGlyph c = true) (hcloser : isCloser c = false) :
    scan shorter enclosed (c :: s) = shorter := by
  have hne : c ≠ '\\' := by
    rintro rfl
    rw [isGlyph_backslash] at hglyph
    cases hglyph
  rw [scan, if_neg (by simp [hcloser]), if_pos (by simp [hglyph])]
  intro q s' h
  exact absurd h hne

/-- **No run is closed in a text that has no closing quote in front of its first control
character**, for there the search ends. -/
theorem scan_of_no_closer {shorter : List Close} {enclosed s : List Char}
    (h : ∀ c ∈ s.takeWhile (!isControl ·), isCloser c = false) :
    scan shorter enclosed s = shorter := by
  -- what is scanned is no control character, so it counts as long as scanning goes on
  have hcons {c : Char} {s : List Char} (hc : isControl c = false)
      (h : ∀ d ∈ (c :: s).takeWhile (!isControl ·), isCloser d = false) :
      isCloser c = false ∧ ∀ d ∈ s.takeWhile (!isControl ·), isCloser d = false := by
    rw [List.takeWhile_cons_of_pos (by simp [hc])] at h
    exact List.forall_mem_cons.mp h
  fun_induction scan shorter enclosed s with
  | case1 => rfl
  | case2 shorter enclosed q s hq ih =>
    obtain ⟨hcloser, hs⟩ := hcons (isControl_of_isGlyph hq) (hcons isControl_backslash h).2
    rw [hcloser] at ih ⊢
    exact ih hs
  | case3 shorter enclosed q s _ ih => exact ih (hcons isControl_backslash h).2
  | case4 shorter enclosed c s _ hc =>
    rw [(hcons (isControl_of_isGlyph (isGlyph_of_isCloser hc)) h).1] at hc
    cases hc
  | case5 => rfl
  | case6 shorter enclosed c s _ _ hstop ih =>
    have hstop : isGlyph c = false ∧ isControl c = false := by simpa using hstop
    exact ih (hcons hstop.2 h).2

/-- No run is closed in characters that are no quotes, nor behind them, if one of them is a control
character. -/
theorem scan_of_mem_control {shorter : List Close} {enclosed w later : List Char} {c : Char}
    (hw : ∀ d ∈ w, isGlyph d = false) (hc : c ∈ w) (hcontrol : isControl c = true) :
    scan shorter enclosed (w ++ later) = shorter := by
  refine scan_of_no_closer fun d hd => isCloser_eq_false (hw d ?_)
  obtain ⟨before, after, rfl⟩ := List.append_of_mem hc
  rw [List.append_assoc, List.cons_append, List.takeWhile_append] at hd
  split at hd
  · rw [List.takeWhile_cons_of_neg (by simp [hcontrol]), List.append_nil] at hd
    exact List.mem_append_left _ hd
  · exact List.mem_append_left _ ((List.takeWhile_sublist _).subset hd)

/-- Blanks are enclosed one after the other, up to the first that is a control character. -/
theorem scan_gap {shorter : List Close} {enclosed gap later : List Char} (hblank : AllBlank gap)
    (h : (∃ c ∈ gap, isControl c = true) ∨ ∀ c ∈ later, isCloser c = false) :
    scan shorter enclosed (gap ++ later) = shorter := by
  have hglyph : ∀ c ∈ gap, isGlyph c = false := fun c hc => isGlyph_of_isBlank (hblank c hc)
  rcases h with ⟨c, hc, hcontrol⟩ | hlater
  · exact scan_of_mem_control hglyph hc hcontrol
  · have hgap : ∀ c ∈ gap, isCloser c = false := fun c hc => isCloser_eq_false (hglyph c hc)
    have hnone : ∀ c ∈ gap ++ later, isCloser c = false := List.forall_mem_append.mpr ⟨hgap, hlater⟩
    exact scan_of_no_closer fun c hc => hnone c ((List.takeWhile_sublist _).subset hc)

theorem Seam.exists_eq_cons {gap later : List Char} (h : Seam gap later) :
    ∃ c gap', gap = c :: gap' ∧ isBlank c = true := by
  obtain ⟨hne, hblank, -⟩ := h
  cases gap with
  | nil => exact absurd rfl hne
  | cons c gap => exact ⟨c, gap, rfl, hblank c List.mem_cons_self⟩

/-- **Behind a seam, a text seals what is in front.** -/
theorem Seam.seals {gap later : List Char} (h : Seam gap later) : Seals (gap ++ later) := by
  refine ⟨?_, fun _ _ => scan_gap h.blank h.shut⟩
  rintro q s' hs
  obtain ⟨c, gap', rfl, hc⟩ := h.exists_eq_cons
  obtain ⟨rfl, -⟩ := List.cons.inj hs
  exact isGlyph_of_isBlank hc

/-- A tab is a seam in front of any text, for it is a blank and a control character. -/
theorem seam_tab (later : List Char) : Seam ['\t'] later := by
  refine ⟨List.cons_ne_nil _ _, ?_, .inl ⟨'\t', List.mem_cons_self, by decide⟩⟩
  intro c hc
  obtain rfl := List.mem_singleton.mp hc
  decide

/-- A word may end in front of a seam. -/
theorem Seam.atWordEnd {gap later : List Char} (h : Seam gap later) :
    atWordEnd (gap ++ later) = true := by
  obtain ⟨c, gap', rfl, hc⟩ := h.exists_eq_cons
  exact hc

/-! ## The runs in front of what seals them -/

/-- **Scanning stops at what seals**: the ways to close the run are those there are without it. -/
theorem scan_append {shorter : List Close} {enclosed s later : List Char} (h : Seals later) :
    scan (shorter.map (·.followedBy later)) enclosed (s ++ later) =
      (scan shorter enclosed s).map (·.followedBy later) := by
  fun_induction scan shorter enclosed s with
  | case1 => exact h.scan_eq _ _
  | case2 shorter enclosed q s hq ih =>
    rw [← ih, List.cons_append, List.cons_append, scan, if_pos hq]
    split <;> rfl
  | case3 shorter enclosed q s hq ih =>
    rw [← ih, List.cons_append, List.cons_append, scan, if_neg hq]
  | case4 shorter enclosed c s _ hc =>
    rw [List.cons_append, scan_closer hc]
    rfl
  | case5 shorter enclosed c s hnext hc hstop =>
    rw [List.cons_append, scan, if_neg hc, if_pos hstop]
    -- what stops the search is no backslash in front of a quote
    rintro q s' rfl -
    revert hstop
    decide
  | case6 shorter enclosed c s hnext hc hstop ih =>
    obtain ⟨hglyph, hcontrol⟩ : isGlyph c = false ∧ isControl c = false := by simpa using hstop
    rw [← ih, List.cons_append]
    refine scan_plain hglyph hcontrol fun hback q s' hs => ?_
    cases s with
    | nil => exact h.head q s' hs
    | cons d s => exact absurd rfl (hnext d s hback)

/-- **A text has the runs that it has alone**, in front of a text that seals it. -/
theorem closes_append {s later : List Char} (h : Seals later) :
    closes (s ++ later) = (closes s).map (·.followedBy later) := by
  cases s with
  | nil =>
    cases later with
    | nil => rfl
    | cons q later =>
      have hopens : ¬ isOpener q = true := by
        intro hopens
        have hglyph := h.head q later rfl
        rw [isGlyph_of_isOpener hopens] at hglyph
        cases hglyph
      show (if isOpener q = true then _ else []) = []
      rw [if_neg hopens]
  | cons c s =>
    rw [List.cons_append, closes, closes]
    split
    · exact @scan_append [] [] s later h
    · rfl

/-- The longest welcome run is the same, too. -/
theorem run?_append {welcome : List Char → Bool} {s later : List Char} (h : Seals later) :
    run? welcome (s ++ later) =
      (run? (fun rest => welcome (rest ++ later)) s).map (·.followedBy later) := by
  rw [run?, closes_append h, List.find?_map]
  rfl

end CommandBar.Quoted
