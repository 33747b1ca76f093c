/-!
# Why a switch line is rejected

- `Rejection`: the reasons.
- `Rejection.message`: what the user is told.
-/

namespace CommandBar.Switch

/-- Why a switch line cannot be read. -/
inductive Rejection where
  /-- A slash is followed by something that is no name; the run is what follows the slash. -/
  | badCommand (run : String)
  /-- A slash stands alone. -/
  | loneSlash
  /-- A bare word has a slash in it. -/
  | slashInWord
  /-- An argument comes before the first command. -/
  | orphanArgument
  /-- No rule applies. -/
  | unrecognized
  deriving Repr, DecidableEq

/-- The diagnostic for the user. -/
def Rejection.message : Rejection → String
  | .badCommand run => "bogus /command: /" ++ run
  | .loneSlash => "bogus input: / with no command!"
  | .slashInWord => "unquoted arguments may not contain slash"
  | .orphanArgument => "text with no switch"
  | .unrecognized => "incomprehensible input"

end CommandBar.Switch
