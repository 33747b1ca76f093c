import CommandBar.Quoted.Escape
import CommandBar.Switch.Token
import CommandBar.Text.Blank
import CommandBar.Text.Visible

/-!
# Pieces of a written switch line

A switch is written as its command and one piece for each argument. An argument is written bare if
it reads back as a word, and otherwise between straight quotes, with a backslash before each quote
in it.

- `WriteError`: why switches cannot be written.
- `Piece`, `Piece.render`: what is written, and how.
- `Piece.ofName`, `Piece.ofArgument`: the pieces of a name and of an argument.
- `writeArgument`: an argument as it is written.
-/

namespace CommandBar.Switch

/-- Why switches cannot be written. -/
inductive WriteError where
  /-- The argument holds a control character, and quotes do not protect it. -/
  | control (arg : String)
  /-- A switch is empty. -/
  | noCommand
  /-- The name of a switch is empty, or has a character that no command's name has. -/
  | badName (name : String)
  /-- The quoted piece ends in a backslash, and another piece follows it. -/
  | trailingBackslash (piece : String)
  deriving Repr, DecidableEq

/-- What the caller is told. -/
def WriteError.message : WriteError → String
  | .control arg => "argument contains control characters: " ++ visible arg
  | .noCommand => "switch has no command"
  | .badName name => "bogus /command: /" ++ name
  | .trailingBackslash piece => "quoted argument ending in a backslash must come last: " ++ piece

/-- A unit of a written switch line. -/
inductive Piece where
  | command (name : String)
  | bare (arg : String)
  | quoted (arg : String)
  deriving Repr, DecidableEq

namespace Piece

/-- The piece as it is written. -/
def render : Piece → String
  | command name => "/" ++ name
  | bare arg => arg
  | quoted arg => String.ofList ('"' :: Quoted.escape arg.toList ++ ['"'])

/-- The argument reads back as a bare word. -/
def fitsBare : List Char → Bool
  | [] => false
  | c :: s => !Quoted.isOpener c && !(c :: s).any fun d => d = '/' || isBlank d

/-- The name can be a command's. -/
def isName (name : List Char) : Bool :=
  !name.isEmpty && name.all isNameChar

/-- The piece that writes the name of a switch. -/
def ofName (name : String) : Except WriteError Piece :=
  if isName name.toList then .ok (command name) else .error (.badName name)

/-- The piece that writes an argument. -/
def ofArgument (arg : String) : Except WriteError Piece :=
  if arg.toList.any isControl then .error (.control arg)
  else if fitsBare arg.toList then .ok (bare arg)
  else .ok (quoted arg)

/-- The piece is quoted and what it encloses ends in a backslash. This backslash and the closing
quote look like an escaped quote, so the piece closes where it should only if no quote follows. -/
def endsInBackslash : Piece → Bool
  | quoted arg => arg.toList.getLast? = some '\\'
  | command _ | bare _ => false

end Piece

/-- The argument as it is written in a switch line. -/
def writeArgument (arg : String) : Except WriteError String :=
  (Piece.ofArgument arg).map Piece.render

end CommandBar.Switch
