import CommandBar.Entry
import CommandBar.Switch.Rejection
import CommandBar.Switch.Token
import CommandBar.Text.Visible

/-!
# Assembling switches

Each command starts a switch, and the literals up to the next command are its arguments. A literal
before the first command belongs to no switch.

- `chunks`, `assemble`: the switches of a list of tokens.
- `flatten`: the tokens of a list of switches.
- `Item`, `assembleItems`: the same for a list in which other things may stand among the tokens.
  The first thing that is out of place is reported.
-/

namespace CommandBar.Switch

/-- The literals before the first command, and the switches from there on. -/
def chunks : List Token → List String × List Entry
  | [] => ([], [])
  | .literal text :: tokens =>
    let (args, switches) := chunks tokens
    (text :: args, switches)
  | .command name :: tokens =>
    let (args, switches) := chunks tokens
    ([], (name :: args) :: switches)

/-- The switches that the tokens make up, one for each command. -/
def assemble (tokens : List Token) : Except Rejection (List Entry) :=
  match chunks tokens with
  | ([], switches) => .ok switches
  | (_ :: _, _) => .error .orphanArgument

/-- The tokens of one switch: a command for its name, a literal for each argument. -/
def flattenOne : Entry → List Token
  | [] => []
  | name :: args => .command name :: args.map .literal

/-- The tokens of a list of switches. -/
def flatten (switches : List Entry) : List Token :=
  switches.flatMap flattenOne

/-! ## Lists in which other things stand among the tokens -/

/-- A token, or a text that stands among tokens without being one. -/
inductive Item where
  | token (token : Token)
  | foreign (text : String)
  deriving Repr, DecidableEq

/-- Why items do not make up switches. -/
inductive AssemblyError where
  /-- A literal comes before the first command. -/
  | orphanArgument
  /-- The text is no token. -/
  | foreign (text : String)
  deriving Repr, DecidableEq

/-- What the caller is told. -/
def AssemblyError.message : AssemblyError → String
  | .orphanArgument => Rejection.orphanArgument.message
  | .foreign text => "unexpected token: " ++ visible text

/-- The items as tokens, or the first that is none. -/
def tokensAmong : List Item → Except AssemblyError (List Token)
  | [] => .ok []
  | .foreign text :: _ => .error (.foreign text)
  | .token token :: items => (tokensAmong items).map (token :: ·)

/-- The switches that the items make up, or what is wrong with the first one out of place. A literal
is out of place at the front only: behind any other first item there is a switch that it belongs to,
or something else is reported. -/
def assembleItems : List Item → Except AssemblyError (List Entry)
  | .token (.literal _) :: _ => .error .orphanArgument
  | items => (tokensAmong items).map fun tokens => (chunks tokens).2

end CommandBar.Switch
