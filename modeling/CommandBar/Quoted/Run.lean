import CommandBar.Quoted.Glyph
import CommandBar.Text.Control

/-!
# Quoted runs

A quoted run is an opening quote, what it encloses, and a closing quote. A backslash and a quote
inside it stand for the quote; other quotes and control characters may not occur. But where the
quote is a closing one, the backslash may as well stand for itself and the quote end the run: in
`"a\" b"` the run is either the whole text or only `"a\"`. So a text may start with several runs.
Whoever reads it says after which of them it wants to go on, and gets the longest such run.

- `Close`: one way to close a run, by what is enclosed and what follows.
- `closes`: every way to close the run that starts a text, longest first.
- `run?`: the longest run after which the text goes on as the reader wants.
- `length_rest_lt_of_mem_closes`, `length_rest_lt_of_run?`: a run leaves less than it was given, so
  a reader that takes runs comes to an end.
-/

namespace CommandBar.Quoted

/-- One way to close a quoted run. -/
structure Close where
  /-- The characters between the quotes, last one first, the escaped ones without backslash. -/
  enclosed : List Char
  /-- What follows the closing quote. -/
  rest : List Char
  deriving Repr, DecidableEq

/-- The text between the quotes. -/
def Close.content (close : Close) : String :=
  String.ofList close.enclosed.reverse

/-- Every way to close a run of which `enclosed` has been read, longest first, and then the
`shorter` ways that have been passed. A backslash before a closing quote offers a way to close the
run and is then read as an escape. The first closing quote without one is the longest way; before a
stray opening quote, a control character or the end of the text there is no way to close it but
those passed. -/
def scan (shorter : List Close) (enclosed : List Char) : List Char → List Close
  | [] => shorter
  | '\\' :: q :: s =>
    if isGlyph q then
      scan (if isCloser q then ⟨'\\' :: enclosed, s⟩ :: shorter else shorter) (q :: enclosed) s
    else scan shorter ('\\' :: enclosed) (q :: s)
  | c :: s =>
    if isCloser c then ⟨enclosed, s⟩ :: shorter
    else if isGlyph c || isControl c then shorter
    else scan shorter (c :: enclosed) s

/-- Every way to close the quoted run that starts the text, longest first. There is none if the
text starts with no opening quote. -/
def closes : List Char → List Close
  | [] => []
  | c :: s => if isOpener c then scan [] [] s else []

/-- The longest quoted run that starts the text and leaves something `welcome`. -/
def run? (welcome : List Char → Bool) (s : List Char) : Option Close :=
  (closes s).find? fun close => welcome close.rest

/-! ## Runs consume the text -/

/-- A way to close the run is either one that was passed, or leaves less than there was to read. -/
theorem length_rest_lt_of_mem_scan {shorter : List Close} {enclosed s : List Char} {close : Close}
    (h : close ∈ scan shorter enclosed s) :
    close ∈ shorter ∨ close.rest.length < s.length := by
  fun_induction scan shorter enclosed s with
  | case1 => exact .inl h
  | case2 shorter enclosed q s hq ih =>
    rcases ih h with h | h
    · by_cases hcloser : isCloser q = true
      · rcases List.mem_cons.mp (by simpa [hcloser] using h) with rfl | h
        · exact .inr (by simp only [List.length_cons]; omega)
        · exact .inl h
      · exact .inl (by simpa [hcloser] using h)
    · exact .inr (by simp only [List.length_cons]; omega)
  | case3 shorter enclosed q s hq ih =>
    exact (ih h).imp_right fun h => by simp only [List.length_cons] at h ⊢; omega
  | case4 shorter enclosed c s _ hc =>
    rcases List.mem_cons.mp h with rfl | h
    · exact .inr (by simp)
    · exact .inl h
  | case5 => exact .inl h
  | case6 shorter enclosed c s _ hc hstop ih =>
    exact (ih h).imp_right fun h => by simp only [List.length_cons]; omega

theorem length_rest_lt_of_mem_closes {s : List Char} {close : Close} (h : close ∈ closes s) :
    close.rest.length < s.length := by
  cases s with
  | nil => simp [closes] at h
  | cons c s =>
    by_cases hc : isOpener c = true
    · rcases length_rest_lt_of_mem_scan (by simpa [closes, hc] using h) with h | h
      · simp at h
      · simp only [List.length_cons]; omega
    · simp [closes, hc] at h

theorem length_rest_lt_of_run? {welcome : List Char → Bool} {s : List Char} {close : Close}
    (h : run? welcome s = some close) : close.rest.length < s.length :=
  length_rest_lt_of_mem_closes (List.mem_of_find?_eq_some h)

end CommandBar.Quoted
