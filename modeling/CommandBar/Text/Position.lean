import CommandBar.Text.Word

/-!
# Positions in a text

A position counts the characters before it. One that lies beyond the end of the text is taken for
the end: a word may end there, and there is nothing to skip.

- `isWordEndAt`, `afterBlanksAt`, `afterWordAt`: the readers of words, at a position.
-/

namespace CommandBar

/-- A word may end at the position. -/
def isWordEndAt (text : List Char) (pos : Nat) : Bool :=
  atWordEnd (text.drop pos)

/-- The first position from `pos` on at which no blank stands. -/
def afterBlanksAt (text : List Char) (pos : Nat) : Nat :=
  pos + ((text.drop pos).takeWhile isBlank).length

/-- The first position from `pos` on at which a word may end. -/
def afterWordAt (text : List Char) (pos : Nat) : Nat :=
  pos + (word (text.drop pos)).length

end CommandBar
