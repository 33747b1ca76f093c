import CommandBar.Entry.Name
import CommandBar.Notice
import CommandBar.Switch.Printer

/-!
# Sessions

A command bar holds a text and the entries that were last read from it. A session is a sequence of
actions on the two: typing, reading, editing the entries and writing them back.

- `State`: the text and the entries.
- `Action`: what can be done.
- `Outcome`: the state after an action, and what there is to report.
- `State.perform`, `State.run`: one action, and a sequence of them.
- `perform_failure`: an action that fails changes nothing.
-/

namespace CommandBar.Session

/-- What a command bar holds. -/
structure State where
  text : String := ""
  /-- The entries; nothing after a text could not be read. -/
  entries : Option (List Entry) := some []
  deriving Repr, DecidableEq

/-- What can be done with a command bar. A fallback's error is a message. -/
inductive Action where
  | setText (text : String)
  | setEntries (entries : List Entry)
  /-- The text is read as a switch line. -/
  | readSwitches
  /-- The text is read as a search. -/
  | readSearch (options : Search.Options String)
  /-- The names of the entries are replaced by those they stand for. -/
  | canonicalize (aliases : Aliases)
  /-- The entries are written as a switch line. -/
  | write
  /-- An entry is added at the end. -/
  | push (entry : Entry)
  /-- A word is added at the end of the entry at the index. -/
  | append (index : Nat) (word : String)

/-- Why an action fails. -/
inductive Failure where
  | options (error : Search.Options.Error)
  | fallback (message : String)
  | write (error : Switch.WriteError)
  deriving Repr, DecidableEq

/-- What the user is told. -/
def Failure.message : Failure → String
  | .options error => error.message
  | .fallback message => message
  | .write error => error.message

/-- What there is to report after an action. -/
inductive Report where
  /-- Nothing. -/
  | quiet
  /-- Whether a switch line could be read, and if not, why. -/
  | diagnosis (why : Option Switch.Rejection)
  /-- The action failed. -/
  | failure (why : Failure)
  deriving Repr, DecidableEq

/-- What came of an action. -/
structure Outcome where
  state : State
  report : Report := .quiet
  notices : List Notice := []
  deriving Repr, DecidableEq

namespace State

/-- The state with its entries changed. Where a text could not be read there are none to change. -/
def edit (state : State) (change : List Entry → List Entry) : State :=
  { state with entries := state.entries.map change }

/-- Reads the text as a switch line. -/
def readSwitches (state : State) : Outcome :=
  match Switch.parse state.text with
  | .ok switches => ⟨{ state with entries := some switches }, .diagnosis none, []⟩
  | .error why =>
    ⟨{ state with entries := none }, .diagnosis (some why), Switch.notices state.text⟩

/-- Reads the text as a search. -/
def readSearch (state : State) (options : Search.Options String) : Outcome :=
  match Search.parse options state.text with
  | .error error => ⟨state, .failure (.options error), []⟩
  | .ok reading =>
    match reading.result with
    | .ok entries => ⟨{ state with entries }, .quiet, reading.notices⟩
    | .error message => ⟨state, .failure (.fallback message), reading.notices⟩

/-- Writes the entries as a switch line. Where there are none, the text stays. -/
def write (state : State) : Outcome :=
  match state.entries.map Switch.write with
  | none => { state }
  | some (.ok text) => { state := { state with text } }
  | some (.error error) => ⟨state, .failure (.write error), []⟩

/-- What comes of an action. -/
def perform (state : State) : Action → Outcome
  | .setText text => { state := { state with text } }
  | .setEntries entries => { state := { state with entries := some entries } }
  | .readSwitches => state.readSwitches
  | .readSearch options => state.readSearch options
  | .canonicalize aliases => { state := state.edit (CommandBar.canonicalize aliases) }
  | .write => state.write
  | .push entry => { state := state.edit (· ++ [entry]) }
  | .append index word => { state := state.edit (·.modify index (· ++ [word])) }

/-- What comes of each of a sequence of actions. -/
def run (state : State) : List Action → List Outcome
  | [] => []
  | action :: actions =>
    let outcome := state.perform action
    outcome :: outcome.state.run actions

end State

/-- **An action that fails changes nothing.** -/
theorem perform_failure {state : State} {action : Action} {why : Failure}
    (h : (state.perform action).report = .failure why) : (state.perform action).state = state := by
  revert h
  cases action with
  | readSwitches =>
    simp only [State.perform, State.readSwitches]
    split <;> exact nofun
  | readSearch options =>
    simp only [State.perform, State.readSearch]
    split
    · exact fun _ => rfl
    · split
      · exact nofun
      · exact fun _ => rfl
  | write =>
    simp only [State.perform, State.write]
    split
    · exact nofun
    · exact nofun
    · exact fun _ => rfl
  | _ => exact nofun

end CommandBar.Session
