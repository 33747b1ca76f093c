import CommandBar.Quoted.Run

/-!
# Quoted runs at a position

Whoever looks for a quoted run inside a longer text may choose among its ends by position.

- `Search`: what was found, and which ends were asked about on the way.
- `runAt`: looks for the longest run whose end is accepted. The ends are asked about from the
  longest run down, and nothing is asked once an end has been accepted.
-/

namespace CommandBar.Quoted

/-- What came of looking for a quoted run. -/
structure Search where
  /-- The text between the quotes, and the position after the closing quote. -/
  found : Option (String × Nat)
  /-- The ends that were asked about, in that order. -/
  asked : List Nat
  deriving Repr, DecidableEq

/-- The position at which a run of the text ends. -/
def Close.endIn (text : List Char) (close : Close) : Nat :=
  text.length - close.rest.length

/-- The elements up to the first that satisfies the test, that one included. -/
def throughFirst {α : Type} (test : α → Bool) : List α → List α
  | [] => []
  | a :: as => if test a then [a] else a :: throughFirst test as

/-- Looks for the longest quoted run that starts at the position and whose end is accepted. Where
nothing is given to accept ends by, the longest run is found and no end is asked about. -/
def runAt (accept : Option (Nat → Bool)) (text : List Char) (pos : Nat) : Search :=
  let closes := closes (text.drop pos)
  let located := fun close : Close => (close.content, close.endIn text)
  match accept with
  | none => ⟨closes.head?.map located, []⟩
  | some accept =>
    let ends := closes.map (·.endIn text)
    ⟨(closes.find? fun close => accept (close.endIn text)).map located, throughFirst accept ends⟩

end CommandBar.Quoted
