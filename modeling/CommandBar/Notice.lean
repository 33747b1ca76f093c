import CommandBar.Search.Reading
import CommandBar.Switch.Parser
import CommandBar.Text.Visible

/-!
# Notices

Reading leaves a notice for whoever looks into why a text was not understood.

- `Notice`, `Notice.message`: what is noticed, and how it is worded.
- `Switch.notices`, `Search.Reading.notices`: the notices of reading a switch line and a search.
-/

namespace CommandBar

/-- Something worth telling about a text that was not understood. -/
inductive Notice where
  /-- A switch line was rejected. -/
  | rejected (text : String) (why : Switch.Rejection)
  /-- A search made no progress; `rest` is what was left to read. -/
  | stalled (rest : List Char)
  deriving Repr, DecidableEq

/-- The wording of the notice. -/
def Notice.message : Notice → String
  | .rejected text why => "rejected switch input " ++ visible text ++ ": " ++ why.message
  | .stalled rest => "colonstring parse made no progress at " ++ visible (String.ofList rest)

/-- The notices that reading the text as a switch line leaves. -/
def Switch.notices (text : String) : List Notice :=
  match Switch.parse text with
  | .ok _ => []
  | .error why => [.rejected text why]

/-- The notices that the reading of a search leaves. -/
def Search.Reading.notices {ε : Type} (reading : Search.Reading ε) : List Notice :=
  match reading.ending with
  | .stalled rest => [.stalled rest]
  | .finished | .failed _ => []

end CommandBar
