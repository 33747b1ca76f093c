import CommandBar.Text.CodeRange

/-!
# Blank characters

The characters that separate words: the space, the tab and the line ends, the four information
separators, and the spaces and separators of Unicode. A zero-width space is not blank.

- `blanks`, `isBlank`: the blank characters, and whether a character is one.
- `AllBlank`: a text without a word.
-/

namespace CommandBar

/-- The blank characters. -/
def blanks : CodeClass where
  ranges :=
    [⟨0x9, 0xD⟩, ⟨0x1C, 0x20⟩, ⟨0x85, 0x85⟩, ⟨0xA0, 0xA0⟩, ⟨0x1680, 0x1680⟩, ⟨0x2000, 0x200A⟩,
      ⟨0x2028, 0x2029⟩, ⟨0x202F, 0x202F⟩, ⟨0x205F, 0x205F⟩, ⟨0x3000, 0x3000⟩]
  ascend := by decide

/-- The character separates words. -/
def isBlank (c : Char) : Bool :=
  blanks.contains c.toNat

/-- The text holds nothing but blanks. -/
def AllBlank (s : List Char) : Prop :=
  ∀ c ∈ s, isBlank c = true

end CommandBar
