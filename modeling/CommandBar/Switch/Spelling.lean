import CommandBar.Quoted.Escape
import CommandBar.Switch.Assembly
import CommandBar.Text.Word

/-!
# The ways to write a switch line

The same switches can be typed in many ways: an argument bare or between quotes of any kind, and any
blanks between them.

- `SpellsToken`: the ways to write a token.
- `SpellsTokens`: the ways to write a sequence of tokens.
- `SpellsLine`: the ways to write switches.
-/

namespace CommandBar.Switch

/-- The text writes the token, and reads back as that token wherever it stands. -/
inductive SpellsToken : Token → (s : List Char) → Prop
  | command {name : List Char} :
      name ≠ [] → (∀ c ∈ name, isNameChar c = true) →
        SpellsToken (.command (String.ofList name)) ('/' :: name)
  | bare {c : Char} {w : List Char} :
      Quoted.isOpener c = false → (∀ d ∈ c :: w, isBlank d = false ∧ d ≠ '/') →
        SpellsToken (.literal (String.ofList (c :: w))) (c :: w)
  | quoted {content s : List Char} :
      Quoted.Spells content s → SpellsToken (.literal (String.ofList content)) s

/-- The text writes the tokens one after the other, with blanks in between and possibly around
them. A word may end behind each token, so the next one, which is not empty, has at least one blank
in front of it. -/
inductive SpellsTokens : List Token → (s : List Char) → Prop
  | nil {gap : List Char} : AllBlank gap → SpellsTokens [] gap
  | cons {gap s rest : List Char} {token : Token} {tokens : List Token} :
      AllBlank gap → SpellsToken token s → atWordEnd rest = true → SpellsTokens tokens rest →
        SpellsTokens (token :: tokens) (gap ++ (s ++ rest))

/-- The text writes the switches, none of which may be empty. -/
def SpellsLine (switches : List Entry) (s : List Char) : Prop :=
  (∀ switch ∈ switches, switch ≠ []) ∧ SpellsTokens (flatten switches) s

end CommandBar.Switch
