import CommandBar.Search.Facet
import CommandBar.Search.Options

/-!
# Reading a search

A search such as `author:ann "last week" urgent` is read from the front. Where a facet starts, it is
taken; anything else is handed to the fallback, if there is one. The reading stops when a turn has
left no less to read than there was before it, so no fallback can keep it going for ever.

- `Turn`, `Ending`, `Reading`: what happened, turn by turn, and how it ended.
- `step`, `readFrom`: one turn, and the reading of a text under a fallback.
- `Reading.entries`, `Reading.calls`, `Reading.result`: the entries in order, what the fallback was
  handed, and what the caller gets.
- `parse`: the reading of a text under options.
-/

namespace CommandBar.Search

/-- A turn of a reading. -/
inductive Turn (ε : Type) where
  /-- A facet was taken. -/
  | facet (entry : Entry)
  /-- The fallback was handed the text that was left, and answered. -/
  | handed (given : List Char) (answer : Except ε Reply)

/-- How a reading ends. -/
inductive Ending (ε : Type) where
  /-- Nothing is left to read. -/
  | finished
  /-- The last turn made no progress; `rest` is what is left to read. -/
  | stalled (rest : List Char)
  /-- The fallback gave up. -/
  | failed (error : ε)

/-- What happened when a text was read. -/
structure Reading (ε : Type) where
  turns : List (Turn ε)
  ending : Ending ε

variable {ε : Type}

namespace Turn

/-- The entry that the turn adds. -/
def entry? : Turn ε → Option Entry
  | facet entry => some entry
  | handed _ (.ok reply) => reply.entry
  | handed _ (.error _) => none

/-- What the fallback is handed in the turn. -/
def given? : Turn ε → Option (List Char)
  | facet _ => none
  | handed given _ => some given

end Turn

namespace Reading

/-- The reading that starts with the turn and goes on as the given one. -/
def cons (turn : Turn ε) (reading : Reading ε) : Reading ε :=
  ⟨turn :: reading.turns, reading.ending⟩

/-- The entries that were added, in order. -/
def entries (reading : Reading ε) : List Entry :=
  reading.turns.filterMap Turn.entry?

/-- What the fallback was handed, call by call. -/
def calls (reading : Reading ε) : List (List Char) :=
  reading.turns.filterMap Turn.given?

/-- What the caller gets: the entries, or nothing if the reading stalled. An error of the fallback
is passed on. -/
def result (reading : Reading ε) : Except ε (Option (List Entry)) :=
  match reading.ending with
  | .finished => .ok (some reading.entries)
  | .stalled _ => .ok none
  | .failed error => .error error

end Reading

/-! ## Reading turn by turn -/

/-- What the front of a text leads to. -/
inductive Step (ε : Type) where
  /-- A turn; `rest` is what it leaves to read. -/
  | took (turn : Turn ε) (rest : List Char)
  /-- No turn: there is no facet, and no fallback to hand the text to. -/
  | stuck
  /-- The fallback gives up. -/
  | failed (error : ε)

/-- What the front of the text `s` leads to. -/
def step (fallback : Option (Fallback ε)) (earlier : List (List Char)) (s : List Char) : Step ε :=
  match facet? s with
  | some (entry, rest) => .took (.facet entry) rest
  | none =>
    match fallback with
    | none => .stuck
    | some handler =>
      match handler earlier s with
      | .ok reply => .took (.handed s (.ok reply)) reply.rest
      | .error error => .failed error

/-- Reads a text that does not start with a blank. The fallback has been handed the `earlier` texts
before, latest first. A turn is the last if it has left no less to read than it found. -/
def readFrom (fallback : Option (Fallback ε)) (earlier : List (List Char)) (s : List Char) :
    Reading ε :=
  if s.isEmpty then ⟨[], .finished⟩
  else
    match step fallback earlier s with
    | .stuck => ⟨[], .stalled s⟩
    | .failed error => ⟨[.handed s (.error error)], .failed error⟩
    | .took turn rest =>
      let left := skipBlanks rest
      if left.length < s.length then
        (readFrom fallback (turn.given?.toList ++ earlier) left).cons turn
      else ⟨[turn], .stalled left⟩
termination_by s.length

/-- Reads a text under a fallback. Blanks may stand before, between and after what is read. -/
def read (fallback : Option (Fallback ε)) (text : String) : Reading ε :=
  readFrom fallback [] (skipBlanks text.toList)

/-- Reads a text under options; nothing is read if the options make no sense. -/
def parse (options : Options ε) (text : String) : Except Options.Error (Reading ε) :=
  options.resolve.map (read · text)

end CommandBar.Search
