/-!
# Quote glyphs

Three characters act as quotes: the straight one, which opens and closes, and the two curly ones,
of which the left opens and the right closes. Any opener goes with any closer.

- `openers`, `closers`, `glyphs`: the characters of each kind, by code point.
- `isGlyph_of_isOpener`, `isGlyph_of_isCloser`: every opener and every closer is a glyph.
-/

namespace CommandBar.Quoted

/-- The quotes that begin a quoted run. -/
def openers : List Char := ['"', '“']

/-- The quotes that end a quoted run. -/
def closers : List Char := ['"', '”']

/-- The quotes of either kind. -/
def glyphs : List Char := ['"', '“', '”']

/-- The character begins a quoted run. -/
def isOpener (c : Char) : Bool := openers.contains c

/-- The character ends a quoted run, unless it is escaped. -/
def isCloser (c : Char) : Bool := closers.contains c

/-- The character is a quote. -/
def isGlyph (c : Char) : Bool := glyphs.contains c

theorem isGlyph_of_isOpener {c : Char} (h : isOpener c = true) : isGlyph c = true := by
  simp only [isOpener, openers, isGlyph, glyphs, List.contains_eq_mem, List.mem_cons,
    List.not_mem_nil, or_false, decide_eq_true_eq] at h ⊢
  rcases h with h | h <;> simp [h]

theorem isGlyph_of_isCloser {c : Char} (h : isCloser c = true) : isGlyph c = true := by
  simp only [isCloser, closers, isGlyph, glyphs, List.contains_eq_mem, List.mem_cons,
    List.not_mem_nil, or_false, decide_eq_true_eq] at h ⊢
  rcases h with h | h <;> simp [h]

end CommandBar.Quoted
