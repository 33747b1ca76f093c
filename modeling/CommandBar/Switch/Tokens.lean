import CommandBar.Switch.Rule

/-!
# The tokens of a switch line

- `tokensOf`, `tokenize`: the tokens of a text in order, or the first reason to reject it. Blanks
  may stand before, between and after the tokens.
-/

namespace CommandBar.Switch

/-- The tokens of the text that is still to be read. -/
def tokensOf (s : List Char) : Except Rejection (List Token) :=
  if (skipBlanks s).isEmpty then .ok []
  else
    match h : judge (skipBlanks s) with
    | .declines => .error .unrecognized
    | .rejects why => .error why
    | .takes token rest =>
      have _ := length_rest_lt_of_judge h
      have _ := length_skipBlanks_le s
      (tokensOf rest).map (token :: ·)
termination_by s.length

/-- The tokens of a switch line, or the first reason to reject it. -/
def tokenize (text : String) : Except Rejection (List Token) :=
  tokensOf text.toList

end CommandBar.Switch
