import CommandBar.Quoted.Glyph
import CommandBar.Text.Control

/-!
# Writing quoted runs

- `escape`: characters as they are written between quotes.
- `Spells`: the ways to write characters as a quoted run that reads back whatever follows it.
-/

namespace CommandBar.Quoted

/-- The characters as they are written between quotes: with a backslash before each quote.
Backslashes are not doubled, for only before a quote does a backslash mean anything. -/
def escape (content : List Char) : List Char :=
  content.flatMap fun c => if isGlyph c then ['\\', c] else [c]

/-- The text `s` writes the content between some pair of quotes. Control characters cannot be
written so, and what ends in a backslash can be only where no quote follows: its last backslash and
the closing quote look like an escaped quote. -/
inductive Spells : (content s : List Char) → Prop
  | mk {opener closer : Char} {content : List Char} :
      isOpener opener = true → isCloser closer = true → (∀ c ∈ content, isControl c = false) →
        content.getLast? ≠ some '\\' → Spells content (opener :: (escape content ++ [closer]))

end CommandBar.Quoted
