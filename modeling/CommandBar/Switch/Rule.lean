import CommandBar.Quoted.Run
import CommandBar.Switch.Rejection
import CommandBar.Switch.Token
import CommandBar.Text.Word

/-!
# The rules by which tokens are recognized

Where a token of a switch line is due, five rules look at the text one after the other. A rule
declines, rejects the line or takes a token, and the first that does not decline decides. Each
rule leaves to the later ones what it declines: the rules that reject a slash need not know what a
command looks like, and the last rule takes what is neither a command nor quoted.

- `Verdict`: what a rule makes of a text.
- `Rule`, `Rule.judge`: the rules.
- `judge`: the verdict of the first rule that does not decline.
- `Rule.stepAt`: a single rule at a position of a text.
- `length_rest_lt_of_judge`: whatever is taken is not empty, so taking tokens comes to an end.
-/

namespace CommandBar.Switch

/-- What a rule makes of the text at which a token is due. -/
inductive Verdict where
  /-- The rule does not apply. -/
  | declines
  /-- The line cannot be read. -/
  | rejects (why : Rejection)
  /-- A token was taken; `rest` is what follows it. -/
  | takes (token : Token) (rest : List Char)
  deriving Repr, DecidableEq

/-- The rules, in the order in which they are tried. -/
inductive Rule where
  /-- A slash and a name that is a whole word are a command. -/
  | command
  /-- A slash and any other word are a mistake. -/
  | badCommand
  /-- A slash and no word are a mistake. -/
  | loneSlash
  /-- A quoted run that ends where a word may end is a literal. -/
  | quoted
  /-- A word without a slash is a literal, and one with a slash is a mistake. -/
  | bareWord
  deriving Repr, DecidableEq

namespace Rule

/-- Every rule, in the order in which they are tried. -/
def all : List Rule := [command, badCommand, loneSlash, quoted, bareWord]

/-- What a command that starts the text amounts to. -/
def judgeCommand : List Char → Verdict
  | '/' :: s =>
    let name := s.takeWhile isNameChar
    let rest := s.dropWhile isNameChar
    if !name.isEmpty && atWordEnd rest then .takes (.command (String.ofList name)) rest
    else .declines
  | _ => .declines

/-- What a slash and a word amount to. -/
def judgeBadCommand : List Char → Verdict
  | '/' :: s =>
    if (word s).isEmpty then .declines else .rejects (.badCommand (String.ofList (word s)))
  | _ => .declines

/-- What a slash and no word amount to. -/
def judgeLoneSlash : List Char → Verdict
  | '/' :: s => if atWordEnd s then .rejects .loneSlash else .declines
  | _ => .declines

/-- What a quoted run that starts the text amounts to. -/
def judgeQuoted (s : List Char) : Verdict :=
  match Quoted.run? atWordEnd s with
  | some close => .takes (.literal close.content) close.rest
  | none => .declines

/-- What a word that starts the text amounts to. -/
def judgeBareWord (s : List Char) : Verdict :=
  if (word s).isEmpty then .declines
  else if (word s).contains '/' then .rejects .slashInWord
  else .takes (.literal (String.ofList (word s))) (afterWord s)

/-- What the rule makes of a text. -/
def judge : Rule → List Char → Verdict
  | command => judgeCommand
  | badCommand => judgeBadCommand
  | loneSlash => judgeLoneSlash
  | quoted => judgeQuoted
  | bareWord => judgeBareWord

end Rule

/-- The verdict of the first of the rules that does not decline. -/
def judgeBy (s : List Char) : List Rule → Verdict
  | [] => .declines
  | rule :: rules =>
    match rule.judge s with
    | .declines => judgeBy s rules
    | verdict => verdict

/-- What the rules together make of the text at which a token is due. -/
def judge (s : List Char) : Verdict :=
  judgeBy s Rule.all

/-! ## Taking a token consumes the text -/

theorem length_rest_lt_of_ruleJudge {rule : Rule} {s rest : List Char} {token : Token}
    (h : rule.judge s = .takes token rest) : rest.length < s.length := by
  cases rule with
  | command =>
    simp only [Rule.judge, Rule.judgeCommand] at h
    split at h
    · split at h
      · cases h
        exact Nat.lt_succ_of_le (List.dropWhile_sublist _).length_le
      · cases h
    · cases h
  | badCommand =>
    simp only [Rule.judge, Rule.judgeBadCommand] at h
    split at h
    · split at h <;> cases h
    · cases h
  | loneSlash =>
    simp only [Rule.judge, Rule.judgeLoneSlash] at h
    split at h
    · split at h <;> cases h
    · cases h
  | quoted =>
    simp only [Rule.judge, Rule.judgeQuoted] at h
    split at h
    · next hrun =>
      cases h
      exact Quoted.length_rest_lt_of_run? hrun
    · cases h
  | bareWord =>
    simp only [Rule.judge, Rule.judgeBareWord] at h
    split at h
    · cases h
    · next hword =>
      split at h
      · cases h
      · cases h
        have hlen := congrArg List.length (word_append_afterWord s)
        have hpos := List.length_pos_iff.mpr (mt List.isEmpty_iff.mpr hword)
        rw [List.length_append] at hlen
        omega

theorem length_rest_lt_of_judgeBy {s rest : List Char} {token : Token} :
    ∀ {rules : List Rule}, judgeBy s rules = .takes token rest → rest.length < s.length
  | [], h => by cases h
  | rule :: rules, h => by
    rw [judgeBy] at h
    split at h
    · exact length_rest_lt_of_judgeBy h
    · exact length_rest_lt_of_ruleJudge h

theorem length_rest_lt_of_judge {s rest : List Char} {token : Token}
    (h : judge s = .takes token rest) : rest.length < s.length :=
  length_rest_lt_of_judgeBy h

/-! ## A rule at a position -/

/-- Why a rule cannot be applied at a position. -/
inductive StepError where
  /-- The rule looks at a first character, and the text has none there. -/
  | pastEnd
  /-- The rule rejects the text. -/
  | rejected (why : Rejection)
  deriving Repr, DecidableEq

/-- What the caller is told. -/
def StepError.message : StepError → String
  | .pastEnd => "string index out of range"
  | .rejected why => why.message

namespace Rule

/-- The rule looks at the first character before anything else, so there has to be one. The rules
for literals find out for themselves that the text has ended. -/
def needsFirst : Rule → Bool
  | command | badCommand | loneSlash => true
  | quoted | bareWord => false

/-- The token that the rule takes at the position, and the position after it; nothing, if the rule
declines. -/
def stepAt (rule : Rule) (text : List Char) (pos : Nat) : Except StepError (Option (Token × Nat)) :=
  if rule.needsFirst && text.length ≤ pos then .error .pastEnd
  else
    match rule.judge (text.drop pos) with
    | .declines => .ok none
    | .rejects why => .error (.rejected why)
    | .takes token rest => .ok (some (token, text.length - rest.length))

end Rule

end CommandBar.Switch
