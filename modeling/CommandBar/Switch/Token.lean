/-!
# Tokens of a switch line

A switch line such as `/to ann /subject "see you" /urgent` is a sequence of tokens: the commands,
which begin with a slash, and the literals between them.

- `Token`: a command or a literal.
- `nameChars`: the characters of which a command's name is made.
-/

namespace CommandBar.Switch

/-- A unit of a switch line. -/
inductive Token where
  /-- A slash and a name; the name is without the slash. -/
  | command (name : String)
  /-- A bare word, or the text between quotes. -/
  | literal (text : String)
  deriving Repr, DecidableEq

/-- The characters of a command's name, by code point. Capitals are not among them. -/
def nameChars : List Char :=
  ['-', 'a', 'b', 'c', 'd', 'e', 'f', 'g', 'h', 'i', 'j', 'k', 'l', 'm', 'n', 'o', 'p', 'q', 'r',
    's', 't', 'u', 'v', 'w', 'x', 'y', 'z']

/-- The character may stand in a command's name. -/
def isNameChar (c : Char) : Bool := nameChars.contains c

end CommandBar.Switch
