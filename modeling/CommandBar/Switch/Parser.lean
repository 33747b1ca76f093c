import CommandBar.Switch.Assembly
import CommandBar.Switch.Tokens

/-!
# Reading a switch line

- `parse`: the switches of a text, or why it is rejected. A line is read as a whole or not at all,
  and a mistake in a token is reported before an argument that belongs to no switch.
-/

namespace CommandBar.Switch

/-- The switches that the text spells, each a name followed by its arguments. -/
def parse (text : String) : Except Rejection (List Entry) := do
  assemble (← tokenize text)

end CommandBar.Switch
