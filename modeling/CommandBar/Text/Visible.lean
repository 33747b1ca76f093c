import CommandBar.Text.Blank
import CommandBar.Text.Control

/-!
# Texts made visible

A message that quotes what was typed must show every character of it, also those that leave no
mark. The text is put between apostrophes, or between quotation marks if it holds an apostrophe and
no quotation mark.

- `Visible.spell`: how a character is written between a given pair of marks.
- `visible`: the text as a message shows it.
-/

namespace CommandBar

namespace Visible

/-- The apostrophe, which encloses a text unless quotation marks serve it better. -/
def apostrophe : Char := '\x27'

/-- The mark that encloses a text in a message. -/
def mark (text : List Char) : Char :=
  if text.contains apostrophe && !text.contains '"' then '"' else apostrophe

/-- A number in lower-case hexadecimal, with zeros in front up to the given width. -/
def hex (width code : Nat) : List Char :=
  let digits := Nat.toDigits 16 code
  List.replicate (width - digits.length) '0' ++ digits

/-- The code of a character in the shortest of the three numeric forms that can hold it. -/
def numeric (code : Nat) : List Char :=
  if code < 0x100 then '\\' :: 'x' :: hex 2 code
  else if code < 0x10000 then '\\' :: 'u' :: hex 4 code
  else '\\' :: 'U' :: hex 8 code

/-- The character leaves a mark of its own on paper. Of the blanks, only the space does. -/
def isPrintable (c : Char) : Bool :=
  c = ' ' || !(isBlank c || isControl c)

/-- A character as it is written in a text enclosed by `mark`. -/
def spell (mark c : Char) : List Char :=
  if c = '\\' || c = mark then ['\\', c]
  else if c = '\t' then ['\\', 't']
  else if c = '\n' then ['\\', 'n']
  else if c = '\r' then ['\\', 'r']
  else if isPrintable c then [c]
  else numeric c.toNat

end Visible

/-- The text as a message shows it: enclosed by marks, and with every character that cannot be seen,
or that would be taken for the closing mark, spelt out. -/
def visible (text : String) : String :=
  let mark := Visible.mark text.toList
  String.ofList (mark :: text.toList.flatMap (Visible.spell mark) ++ [mark])

end CommandBar
