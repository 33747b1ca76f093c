import CommandBar.Entry
import CommandBar.Switch.Piece

/-!
# Writing switches

- `pieces`: the pieces of one switch.
- `join`: pieces as one line, with a space between them.
- `write`, `writeOne`: switches as a line from which they can be read back.

A mistake in a piece is reported before one in the way the pieces are joined, and of two mistakes of
a kind the leftmost.
-/

namespace CommandBar.Switch

/-- The pieces of one switch: its command, then its arguments. -/
def pieces : Entry → Except WriteError (List Piece)
  | [] => .error .noCommand
  | name :: args => do
    let command ← Piece.ofName name
    let args ← args.mapM Piece.ofArgument
    return command :: args

/-- The line that the pieces make. Only the last may be quoted and end in a backslash. -/
def join (ps : List Piece) : Except WriteError String :=
  match ps.dropLast.find? Piece.endsInBackslash with
  | some piece => .error (.trailingBackslash piece.render)
  | none => .ok (" ".intercalate (ps.map Piece.render))

/-- The line that spells the switches. -/
def write (switches : List Entry) : Except WriteError String := do
  let ps ← switches.mapM pieces
  join ps.flatten

/-- The line that spells a single switch. -/
def writeOne (switch : Entry) : Except WriteError String := do
  join (← pieces switch)

end CommandBar.Switch
