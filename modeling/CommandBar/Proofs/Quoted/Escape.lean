import CommandBar.Quoted.Escape
import CommandBar.Quoted.Grammar

/-!
# Reading back what was written between quotes

Backslashes are not doubled when a text is written between quotes, so it is not plain that the text
is read back: each backslash must be paired with the right character. The reader keeps what it has
enclosed and the ways to close that it has passed. Reading the escaped content moves the content
from one to the other, whatever ways to close are passed meanwhile.

- `scan_escape`: reading escaped content, unless its last backslash runs into a quote.
- `closes_of_spells`: content without a backslash at its end is the longest run, whatever follows.
- `closes_of_trailing_backslash`, `closes_of_quoted`: content with one is, too, if nothing that
  follows closes a run.
-/

namespace CommandBar.Quoted

variable {shorter : List Close} {enclosed s rest content : List Char}

/-! ## Steps of the reader -/

/-- An ordinary character is enclosed, unless it is a backslash and a quote comes next. -/
theorem scan_plain {c : Char} (hglyph : isGlyph c = false) (hcontrol : isControl c = false)
    (hnext : c = '\\' → ∀ q s', s = q :: s' → isGlyph q = false) :
    scan shorter enclosed (c :: s) = scan shorter (c :: enclosed) s := by
  have hcloser := isCloser_eq_false hglyph
  by_cases hc : c = '\\'
  · subst hc
    cases s with
    | nil => simp [scan, hcloser, hglyph, hcontrol]
    | cons q s' => rw [scan, if_neg (by simp [hnext rfl q s' rfl])]
  · rw [scan, if_neg (by simp [hcloser]), if_neg (by simp [hglyph, hcontrol])]
    intro q s' h
    exact absurd h hc

/-- An escaped quote is enclosed, and may be a way to close the run that is passed. -/
theorem exists_scan_escaped {q : Char} (hq : isGlyph q = true) :
    ∃ shorter', scan shorter enclosed ('\\' :: q :: s) = scan shorter' (q :: enclosed) s := by
  rw [scan, if_pos hq]
  exact ⟨_, rfl⟩

/-! ## Reading escaped content -/

theorem escape_cons_of_isGlyph {c : Char} (h : isGlyph c = true) :
    escape (c :: content) = '\\' :: c :: escape content := by
  simp [escape, h]

theorem escape_cons_of_not_isGlyph {c : Char} (h : isGlyph c = false) :
    escape (c :: content) = c :: escape content := by
  simp [escape, h]

theorem escape_append (a b : List Char) : escape (a ++ b) = escape a ++ escape b :=
  List.flatMap_append

/-- Escaping leaves the last character in its place. -/
theorem getLast?_escape (content : List Char) : (escape content).getLast? = content.getLast? := by
  rcases List.eq_nil_or_concat content with rfl | ⟨init, c, rfl⟩
  · rfl
  · rw [List.concat_eq_append, escape_append, escape, escape, List.flatMap_singleton]
    split <;> simp

/-- Escaped content starts with no quote: there is a backslash before each. -/
theorem isGlyph_of_escape_append_eq_cons {q : Char} (hne : content ≠ [])
    (h : escape content ++ rest = q :: s) : isGlyph q = false := by
  cases content with
  | nil => exact absurd rfl hne
  | cons c content =>
    cases hc : isGlyph c with
    | true =>
      rw [escape_cons_of_isGlyph hc] at h
      obtain ⟨rfl, -⟩ := List.cons.inj h
      exact isGlyph_backslash
    | false =>
      rw [escape_cons_of_not_isGlyph hc] at h
      obtain ⟨rfl, -⟩ := List.cons.inj h
      exact hc

/-- **Reading escaped content** moves it to what is enclosed. The only backslash that can be taken
for the beginning of an escape is one at the end of the content, before a quote. -/
theorem scan_escape (hcontrol : ∀ c ∈ content, isControl c = false)
    (hlast : content.getLast? = some '\\' → ∀ q s, rest = q :: s → isGlyph q = false) :
    ∃ shorter', scan shorter enclosed (escape content ++ rest) =
      scan shorter' (content.reverse ++ enclosed) rest := by
  induction content generalizing shorter enclosed with
  | nil => exact ⟨shorter, rfl⟩
  | cons c content ih =>
    have hc := hcontrol c List.mem_cons_self
    have hcontrol' := fun d hd => hcontrol d (List.mem_cons_of_mem c hd)
    have hlast' : content.getLast? = some '\\' → ∀ q s, rest = q :: s → isGlyph q = false := by
      intro h
      refine hlast ?_
      rw [List.getLast?_cons, h]
      rfl
    rw [List.reverse_cons, List.append_assoc]
    cases hglyph : isGlyph c with
    | true =>
      rw [escape_cons_of_isGlyph hglyph]
      rw [List.cons_append, List.cons_append]
      obtain ⟨passed, hescaped⟩ := exists_scan_escaped hglyph
      rw [hescaped]
      exact ih hcontrol' hlast'
    | false =>
      have hnext : c = '\\' → ∀ q s, escape content ++ rest = q :: s → isGlyph q = false := by
        rintro rfl q s hs
        by_cases hne : content = []
        · subst hne
          exact hlast rfl q s hs
        · exact isGlyph_of_escape_append_eq_cons hne hs
      rw [escape_cons_of_not_isGlyph hglyph, List.cons_append, scan_plain hglyph hc hnext]
      exact ih hcontrol' hlast'

/-! ## Runs that were written -/

/-- A closing quote ends the longest run. -/
theorem scan_closer {c : Char} (hc : isCloser c = true) :
    scan shorter enclosed (c :: rest) = ⟨enclosed, rest⟩ :: shorter := by
  have hne : c ≠ '\\' := by
    rintro rfl
    exact absurd hc (by decide)
  rw [scan, if_pos hc]
  intro q s h
  exact absurd h hne

/-- **What was written between quotes is the longest run**, whatever follows it. -/
theorem closes_of_spells (h : Spells content s) :
    ∃ shorter, closes (s ++ rest) = ⟨content.reverse, rest⟩ :: shorter := by
  cases h with
  | @mk opener closer content hopens hcloses hcontrol hlast =>
    obtain ⟨passed, hscan⟩ : ∃ passed, scan [] [] (escape content ++ closer :: rest) =
        scan passed (content.reverse ++ []) (closer :: rest) :=
      scan_escape hcontrol fun h => absurd h hlast
    refine ⟨passed, ?_⟩
    rw [List.cons_append, List.append_assoc, closes, if_pos hopens]
    show scan [] [] (escape content ++ closer :: rest) = _
    rw [hscan, scan_closer hcloses, List.append_nil]

/-- Content that ends in a backslash is the longest run, too, if the reader finds no way to close a
run in what follows: the last way that it passed was that behind the last backslash. -/
theorem closes_of_trailing_backslash {opener closer : Char} (hopens : isOpener opener = true)
    (hcloses : isCloser closer = true) (hcontrol : ∀ c ∈ content, isControl c = false)
    (hlast : content.getLast? = some '\\')
    (hrest : ∀ shorter enclosed, scan shorter enclosed rest = shorter) :
    ∃ shorter, closes (opener :: (escape content ++ closer :: rest)) =
      ⟨content.reverse, rest⟩ :: shorter := by
  obtain ⟨init, rfl⟩ := List.getLast?_eq_some_iff.mp hlast
  have hinit : ∀ c ∈ init, isControl c = false :=
    fun c hc => hcontrol c (List.mem_append_left _ hc)
  have hescape : escape (init ++ ['\\']) = escape init ++ ['\\'] := escape_append init ['\\']
  obtain ⟨passed, hscan⟩ : ∃ passed, scan [] [] (escape init ++ '\\' :: closer :: rest) =
      scan passed (init.reverse ++ []) ('\\' :: closer :: rest) := by
    refine scan_escape hinit fun _ q s hs => ?_
    obtain ⟨rfl, -⟩ := List.cons.inj hs
    exact isGlyph_backslash
  refine ⟨passed, ?_⟩
  rw [closes, if_pos hopens, hescape, List.append_assoc]
  show scan [] [] (escape init ++ '\\' :: closer :: rest) = _
  rw [hscan, scan, if_pos (isGlyph_of_isCloser hcloses), if_pos hcloses, hrest]
  simp

/-- So what is between quotes is the longest run, in front of any text if it does not end in a
backslash, and otherwise in front of a text in which no run can be closed. -/
theorem closes_of_quoted {opener closer : Char} (hopens : isOpener opener = true)
    (hcloses : isCloser closer = true) (hcontrol : ∀ c ∈ content, isControl c = false)
    (hrest : content.getLast? = some '\\' →
      ∀ shorter enclosed, scan shorter enclosed rest = shorter) :
    ∃ shorter, closes (opener :: (escape content ++ closer :: rest)) =
      ⟨content.reverse, rest⟩ :: shorter := by
  by_cases hlast : content.getLast? = some '\\'
  · exact closes_of_trailing_backslash hopens hcloses hcontrol hlast (hrest hlast)
  · have hspells : Spells content (opener :: (escape content ++ [closer])) :=
      .mk hopens hcloses hcontrol hlast
    obtain ⟨shorter, hfirst⟩ := closes_of_spells hspells
    rw [List.cons_append, List.append_assoc] at hfirst
    exact ⟨shorter, hfirst⟩

/-- The longest run is taken, if what follows it is welcome. -/
theorem run?_of_closes_eq_cons {welcome : List Char → Bool} {close : Close}
    (h : closes s = close :: shorter) (hrest : welcome close.rest = true) :
    run? welcome s = some close := by
  rw [run?, h]
  exact List.find?_cons_of_pos hrest

end CommandBar.Quoted
