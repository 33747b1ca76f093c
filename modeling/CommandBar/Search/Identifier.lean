/-!
# Identifiers

The name of a facet starts with a letter or a hyphen and goes on with letters, digits, hyphens and
underscores. Letters and digits are the ASCII ones.

- `Identifier.isFirst`, `Identifier.isLater`: the characters it may start with, and go on with.
- `identifier?`: the longest identifier that starts a text.
- `identifierAt?`: the same at a position.
- `Identifier.pattern`: the rule as a regular expression.
-/

namespace CommandBar.Search

namespace Identifier

/-- The rule for identifiers as a regular expression. -/
def pattern : String := "[-a-zA-Z][-_a-zA-Z0-9]*"

/-- The character may start an identifier. -/
def isFirst (c : Char) : Bool := c.isAlpha || c = '-'

/-- The character may stand in an identifier after the first. -/
def isLater (c : Char) : Bool := c.isAlphanum || c = '-' || c = '_'

end Identifier

/-- The longest identifier that starts the text, and what follows it. -/
def identifier? : List Char → Option (String × List Char)
  | [] => none
  | c :: s =>
    if Identifier.isFirst c then
      some (String.ofList (c :: s.takeWhile Identifier.isLater), s.dropWhile Identifier.isLater)
    else none

/-- The longest identifier that starts at the position. -/
def identifierAt? (text : List Char) (pos : Nat) : Option String :=
  (identifier? (text.drop pos)).map (·.1)

theorem length_rest_lt_of_identifier? {s rest : List Char} {name : String}
    (h : identifier? s = some (name, rest)) : rest.length < s.length := by
  cases s with
  | nil => cases h
  | cons c s =>
    rw [identifier?] at h
    split at h
    · cases h
      exact Nat.lt_succ_of_le (List.dropWhile_sublist _).length_le
    · cases h

end CommandBar.Search
