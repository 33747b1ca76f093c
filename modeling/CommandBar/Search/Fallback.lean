import CommandBar.Entry
import CommandBar.Quoted.Run
import CommandBar.Text.Word

/-!
# Fallbacks

Where a search holds something that is no facet, a fallback is handed the text that is still to be
read. It takes from it what it likes, and may add an entry; or it gives up with an error of its
own. A fallback may remember what it was handed before.

- `Reply`: what a fallback leaves and adds.
- `Fallback`: what a fallback is.
- `Fallback.literal`, `Fallback.skip`: the two that every search offers. They take a word at a time.
- `Fallback.chars`, `Fallback.words`, `Fallback.phrase`: other ways to take from the text.
- `Fallback.stay`, `Fallback.script`, `Fallback.wordsUntil`: fallbacks that leave the text as it
  is, that put other texts in its place, and that give up in the end. How a search deals with the
  worst is tried out on them.
-/

namespace CommandBar.Search

/-- The answer of a fallback. -/
structure Reply where
  /-- The text that is left to be read. Nothing forces it to be a part of what was handed over. -/
  rest : List Char
  /-- The entry to be added, if any. -/
  entry : Option Entry
  deriving Repr, DecidableEq

/-- A handler of text that is no facet. It is given everything that it was handed `earlier` in the
same search, latest first, and the text that is handed to it now; so it can do all that a handler
with a memory can. An error ends the search. -/
abbrev Fallback (ε : Type) := (earlier : List (List Char)) → (given : List Char) → Except ε Reply

namespace Reply

/-- The first word is taken and added under the tag. -/
def literal (tag : String) (given : List Char) : Reply :=
  let (word, rest) := splitWord given
  ⟨rest, some [tag, word]⟩

/-- The first word is taken and nothing is added. -/
def skip (given : List Char) : Reply :=
  ⟨(splitWord given).2, none⟩

end Reply

namespace Fallback

variable {ε : Type}

/-- Adds the next word under the tag. -/
def literal (tag : String) : Fallback ε :=
  fun _ given => .ok (.literal tag given)

/-- Drops the next word. -/
def skip : Fallback ε :=
  fun _ given => .ok (.skip given)

/-- Takes some characters, or all if there are fewer, and adds them under the tag. -/
def chars (count : Nat) (tag : String) : Fallback ε :=
  fun _ given => .ok ⟨given.drop count, some [tag, String.ofList (given.take count)]⟩

/-- The first words of the text, empty ones once there are no more, and what is left. -/
def splitWords : Nat → List Char → List String × List Char
  | 0, s => ([], s)
  | count + 1, s =>
    let (word, rest) := splitWord s
    let (words, rest) := splitWords count rest
    (word :: words, rest)

/-- Takes some words and adds them under the tag. -/
def words (count : Nat) (tag : String) : Fallback ε :=
  fun _ given =>
    let (words, rest) := splitWords count given
    .ok ⟨rest, some (tag :: words)⟩

/-- Takes a quoted run, however it is followed, and adds it as a phrase; where there is none, takes
a word and adds it as a word. -/
def phrase : Fallback ε :=
  fun _ given =>
    match Quoted.run? (fun _ => true) given with
    | some close => .ok ⟨close.rest, some ["phrase", close.content]⟩
    | none => .ok (.literal "word" given)

/-- Takes nothing. -/
def stay (entry : Option Entry) : Fallback ε :=
  fun _ given => .ok ⟨given, entry⟩

/-- Puts one text after another in the place of what is left, and stays with the last. -/
def script (texts : List String) (entry : Option Entry) : Fallback ε :=
  fun earlier given =>
    match texts[min earlier.length (texts.length - 1)]? with
    | some text => .ok ⟨text.toList, entry⟩
    | none => .ok ⟨given, entry⟩

/-- Takes a word at a time for a number of calls, and then gives up. -/
def wordsUntil (count : Nat) (error : ε) : Fallback ε :=
  fun earlier given =>
    if count ≤ earlier.length then .error error else .ok (.literal "word" given)

end Fallback

end CommandBar.Search
