import CommandBar.Proofs.Quoted.Checked
import CommandBar.Proofs.Switch.Assembly
import CommandBar.Proofs.Switch.Layout
import CommandBar.Switch.Parser

/-!
# Reading a switch line by position, with every read checked

Three of the rules look at a first character without asking whether there is one, and whoever puts
tokens together must be ready for things that are none. A line calls for neither: a rule is tried
only where a character is left, and what the rules take is always a token.

- `Rule.readAt`, `readTokensAt`: the rules and the tokens, by position.
- `Rule.readAt_eq`: a rule fails only where it is tried at the end of the text.
- `readTokensAt_eq`: **the tokens by position are those of what is left**, and no read fails.
- `answer`, `Escape`: what the caller gets, and what could get out of the reader in its place.
- `answer_eq`: every line is answered, with its switches or with a message.
-/

namespace CommandBar.Switch

variable {α : Type} {text rest s : List Char} {pos stop : Nat} {c : Char} {token : Token}

/-- A read beyond the end of the text stops a rule. -/
instance : MonadLift (Except PastEnd) (Except StepError) where
  monadLift read := read.mapError fun _ => .pastEnd

namespace Rule

/-- A slash and a name that is a whole word. -/
def readCommand (text : List Char) (pos : Nat) : Except StepError (Option (Token × Nat)) := do
  if (← charAt text pos) = '/' then
    let stop ← spanEnd isNameChar text (pos + 1)
    if stop = pos + 1 then return none
    else if ← wordEnds text stop then
      return some (.command (String.ofList (text.extract (pos + 1) stop)), stop)
    else return none
  else return none

/-- A slash and any other word. -/
def readBadCommand (text : List Char) (pos : Nat) : Except StepError (Option (Token × Nat)) := do
  if (← charAt text pos) = '/' then
    let stop ← spanEnd (!isBlank ·) text (pos + 1)
    if stop = pos + 1 then return none
    else throw (.rejected (.badCommand (String.ofList (text.extract (pos + 1) stop))))
  else return none

/-- A slash and no word. -/
def readLoneSlash (text : List Char) (pos : Nat) : Except StepError (Option (Token × Nat)) := do
  if (← charAt text pos) = '/' then
    if ← wordEnds text (pos + 1) then throw (.rejected .loneSlash) else return none
  else return none

/-- A quoted run that ends where a word may end. -/
def readQuoted (text : List Char) (pos : Nat) : Except StepError (Option (Token × Nat)) := do
  match ← Quoted.findRunAt (wordEnds text) text pos with
  | some (content, stop) => return some (.literal content, stop)
  | none => return none

/-- A word, which must not have a slash in it. -/
def readBareWord (text : List Char) (pos : Nat) : Except StepError (Option (Token × Nat)) := do
  let stop ← spanEnd (!isBlank ·) text pos
  if stop = pos then return none
  else if (text.extract pos stop).contains '/' then throw (.rejected .slashInWord)
  else return some (.literal (String.ofList (text.extract pos stop)), stop)

/-- What the rule finds at the position. -/
def readAt : Rule → List Char → Nat → Except StepError (Option (Token × Nat))
  | command => readCommand
  | badCommand => readBadCommand
  | loneSlash => readLoneSlash
  | quoted => readQuoted
  | bareWord => readBareWord

end Rule

/-- What a verdict on the text that is left at a position says by position. -/
def Verdict.located (text : List Char) : Verdict → Except StepError (Option (Token × Nat))
  | .declines => .ok none
  | .rejects why => .error (.rejected why)
  | .takes token rest => .ok (some (token, text.length - rest.length))

/-! ## A rule fails only at the end of the text -/

theorem liftM_ok (a : α) :
    (liftM (Except.ok a : Except PastEnd α) : Except StepError α) = .ok a :=
  rfl

/-- Where a character is left, a rule at the position is the rule for what is left. -/
theorem stepAt_of_drop_eq_cons (rule : Rule) (hs : text.drop pos = c :: s) :
    rule.stepAt text pos = (rule.judge (c :: s)).located text := by
  have hlt := lt_length_of_drop_eq_cons hs
  rw [Rule.stepAt, hs, if_neg (by simp [hlt])]
  cases rule.judge (c :: s) <;> rfl

/-- Without a slash at the front, the rules for slashes decline. -/
theorem judge_declines_of_ne_slash (hc : c ≠ '/') :
    Rule.judgeCommand (c :: s) = .declines ∧ Rule.judgeBadCommand (c :: s) = .declines ∧
      Rule.judgeLoneSlash (c :: s) = .declines := by
  simp [Rule.judgeCommand, Rule.judgeBadCommand, Rule.judgeLoneSlash, hc]

theorem readCommand_eq (hs : text.drop pos = c :: s) :
    Rule.readCommand text pos = (Rule.judgeCommand (c :: s)).located text := by
  rw [Rule.readCommand, charAt_of_drop_eq_cons hs, liftM_ok, Outcome.ok_bind]
  by_cases hc : c = '/'
  · subst hc
    -- behind the slash there is a name, perhaps an empty one, and then what is left
    have hname := extract_span isNameChar text (pos + 1)
    have hafter := drop_span isNameChar text (pos + 1)
    have hstop := length_sub_length_dropWhile isNameChar (lt_length_of_drop_eq_cons hs)
    rw [(drop_eq_cons_iff.mp hs).2] at hname hafter hstop
    rw [if_pos rfl, spanEnd_eq, liftM_ok, Outcome.ok_bind, (drop_eq_cons_iff.mp hs).2,
      Rule.judgeCommand]
    by_cases hempty : s.takeWhile isNameChar = []
    · rw [hempty, List.length_nil, Nat.add_zero, if_pos rfl]
      rfl
    · have hlength := List.length_pos_iff.mpr hempty
      rw [if_neg (by omega), wordEnds_eq, liftM_ok, Outcome.ok_bind, isWordEndAt, hafter, hname]
      cases atWordEnd (s.dropWhile isNameChar) with
      | false =>
        simp only [Bool.and_false]
        rfl
      | true =>
        rw [← hstop]
        simp only [List.isEmpty_eq_false_iff.mpr hempty]
        rfl
  · rw [if_neg hc, (judge_declines_of_ne_slash hc).1]
    rfl

theorem readBadCommand_eq (hs : text.drop pos = c :: s) :
    Rule.readBadCommand text pos = (Rule.judgeBadCommand (c :: s)).located text := by
  rw [Rule.readBadCommand, charAt_of_drop_eq_cons hs, liftM_ok, Outcome.ok_bind]
  by_cases hc : c = '/'
  · subst hc
    have hword := extract_afterWordAt text (pos + 1)
    have hempty : afterWordAt text (pos + 1) = pos + 1 ↔ word (text.drop (pos + 1)) = [] :=
      afterWordAt_eq_self_iff
    rw [(drop_eq_cons_iff.mp hs).2] at hword hempty
    rw [if_pos rfl, spanEnd_word, liftM_ok, Outcome.ok_bind, hword, Rule.judgeBadCommand]
    by_cases hs' : word s = []
    · rw [if_pos (hempty.mpr hs'), if_pos (List.isEmpty_iff.mpr hs')]
      rfl
    · rw [if_neg (mt hempty.mp hs'), if_neg (mt List.isEmpty_iff.mp hs')]
      rfl
  · rw [if_neg hc, (judge_declines_of_ne_slash hc).2.1]
    rfl

theorem readLoneSlash_eq (hs : text.drop pos = c :: s) :
    Rule.readLoneSlash text pos = (Rule.judgeLoneSlash (c :: s)).located text := by
  rw [Rule.readLoneSlash, charAt_of_drop_eq_cons hs, liftM_ok, Outcome.ok_bind]
  by_cases hc : c = '/'
  · subst hc
    rw [if_pos rfl, wordEnds_eq, liftM_ok, Outcome.ok_bind, isWordEndAt, (drop_eq_cons_iff.mp hs).2,
      Rule.judgeLoneSlash]
    cases atWordEnd s <;> rfl
  · rw [if_neg hc, (judge_declines_of_ne_slash hc).2.2]
    rfl

theorem readQuoted_eq (text : List Char) (pos : Nat) :
    Rule.readQuoted text pos = (Rule.judgeQuoted (text.drop pos)).located text := by
  have hend (stop : Nat) : wordEnds text stop = .ok (atWordEnd (text.drop stop)) :=
    wordEnds_eq text stop
  rw [Rule.readQuoted, Quoted.findRunAt_eq hend, liftM_ok, Outcome.ok_bind, Rule.judgeQuoted]
  cases Quoted.run? atWordEnd (text.drop pos) with
  | none => rfl
  | some close => rfl

theorem readBareWord_eq (hpos : pos ≤ text.length) :
    Rule.readBareWord text pos = (Rule.judgeBareWord (text.drop pos)).located text := by
  have hstop : text.length - (afterWord (text.drop pos)).length = afterWordAt text pos :=
    length_sub_length_dropWhile (!isBlank ·) hpos
  rw [Rule.readBareWord, spanEnd_word, liftM_ok, Outcome.ok_bind, extract_afterWordAt,
    Rule.judgeBareWord]
  by_cases hempty : word (text.drop pos) = []
  · rw [if_pos (afterWordAt_eq_self_iff.mpr hempty), if_pos (List.isEmpty_iff.mpr hempty)]
    rfl
  · rw [if_neg (mt afterWordAt_eq_self_iff.mp hempty), if_neg (mt List.isEmpty_iff.mp hempty),
      ← hstop]
    cases (word (text.drop pos)).contains '/' <;> rfl

/-- **A rule fails only where it is tried at the end of the text**, and otherwise finds what it
makes of the text that is left. -/
theorem Rule.readAt_eq (rule : Rule) (text : List Char) (pos : Nat) :
    rule.readAt text pos = rule.stepAt text pos := by
  cases hs : text.drop pos with
  | nil =>
    -- the rules for slashes look at a character that is not there, the others find no word
    have hend := List.drop_eq_nil_iff.mp hs
    have hfails (f : Char → Except StepError (Option (Token × Nat))) :
        (liftM (charAt text pos) >>= f) = .error .pastEnd := by
      rw [charAt_of_drop_eq_nil hs]
      rfl
    cases rule with
    | command => exact (hfails _).trans (if_pos (decide_eq_true hend)).symm
    | badCommand => exact (hfails _).trans (if_pos (decide_eq_true hend)).symm
    | loneSlash => exact (hfails _).trans (if_pos (decide_eq_true hend)).symm
    | quoted =>
      show readQuoted text pos = _
      rw [readQuoted_eq, stepAt, hs]
      rfl
    | bareWord =>
      have hword : afterWordAt text pos = pos := afterWordAt_eq_self_iff.mpr (by rw [hs]; rfl)
      show readBareWord text pos = _
      rw [readBareWord, spanEnd_word, liftM_ok, Outcome.ok_bind, if_pos hword, stepAt, hs]
      rfl
  | cons c s =>
    rw [stepAt_of_drop_eq_cons rule hs]
    cases rule with
    | command => exact readCommand_eq hs
    | badCommand => exact readBadCommand_eq hs
    | loneSlash => exact readLoneSlash_eq hs
    | quoted => exact hs ▸ readQuoted_eq text pos
    | bareWord => exact hs ▸ readBareWord_eq (Nat.le_of_lt (lt_length_of_drop_eq_cons hs))

/-! ## The tokens by position -/

/-- What the first of the rules that does not decline finds at the position. -/
def readBy (text : List Char) (pos : Nat) : List Rule → Except StepError (Option (Token × Nat))
  | [] => return none
  | rule :: rules => do
    match ← rule.readAt text pos with
    | some found => return some found
    | none => readBy text pos rules

/-- The token at the position, and the position behind it and the blanks that follow. -/
def readTokenAt (text : List Char) (pos : Nat) : Except StepError (Token × Nat) := do
  match ← readBy text pos Rule.all with
  | some (token, stop) => return (token, ← spanEnd isBlank text stop)
  | none => throw (.rejected .unrecognized)

theorem readBy_eq (hs : text.drop pos = c :: s) (rules : List Rule) :
    readBy text pos rules = (judgeBy (c :: s) rules).located text := by
  induction rules with
  | nil => rfl
  | cons rule rules ih =>
    rw [readBy, rule.readAt_eq, stepAt_of_drop_eq_cons rule hs, judgeBy]
    cases rule.judge (c :: s) with
    | declines => exact ih
    | rejects why => rfl
    | takes token rest => rfl

theorem readTokenAt_eq (hs : text.drop pos = c :: s) :
    readTokenAt text pos =
      match judge (c :: s) with
      | .declines => .error (.rejected .unrecognized)
      | .rejects why => .error (.rejected why)
      | .takes token rest => .ok (token, afterBlanksAt text (text.length - rest.length)) := by
  rw [readTokenAt, readBy_eq hs, judge]
  cases judgeBy (c :: s) Rule.all with
  | declines => rfl
  | rejects why => rfl
  | takes token rest =>
    rw [Verdict.located, Outcome.ok_bind]
    dsimp only
    rw [spanEnd_blank]
    rfl

/-- The next token starts behind the position. -/
theorem lt_of_readTokenAt {next : Nat} (h : readTokenAt text pos = .ok (token, next))
    (hpos : pos < text.length) : pos < next := by
  obtain ⟨c, s, hs⟩ := exists_drop_eq_cons hpos
  rw [readTokenAt_eq hs] at h
  split at h
  · cases h
  · cases h
  · next token' rest hjudge =>
    obtain ⟨rfl, rfl⟩ := Prod.mk.inj (Except.ok.inj h)
    have hrest := length_rest_lt_of_judge hjudge
    have hle := le_afterBlanksAt text (text.length - rest.length)
    rw [← hs, List.length_drop] at hrest
    omega

/-- The tokens from the position on. -/
def readTokensAt (text : List Char) (pos : Nat) : Except StepError (List Token) :=
  if hpos : pos < text.length then
    match h : readTokenAt text pos with
    | .error e => .error e
    | .ok (token, next) =>
      have _ := lt_of_readTokenAt h hpos
      return token :: (← readTokensAt text next)
  else return []
termination_by text.length - pos

/-- The tokens of the text. -/
def readTokens (text : List Char) : Except StepError (List Token) := do
  readTokensAt text (← spanEnd isBlank text 0)

theorem readTokensAt_of_lt (h : pos < text.length) :
    readTokensAt text pos = do
      let (token, next) ← readTokenAt text pos
      return token :: (← readTokensAt text next) := by
  rw [readTokensAt, dif_pos h]
  split
  · next hread =>
    rw [hread]
    rfl
  · next hread =>
    conv => rhs; rw [hread]
    rfl

/-- **The tokens by position are those of what is left**, and no read fails. The induction is on
what is left at the position. -/
theorem readTokensAt_eq (text : List Char) (pos : Nat) :
    readTokensAt text (afterBlanksAt text pos) =
      (tokensOf (text.drop pos)).mapError .rejected := by
  induction hlength : (text.drop pos).length using Nat.strongRecOn generalizing pos with
  | ind length ih =>
    by_cases hblank : AllBlank (text.drop pos)
    · have hend := length_le_afterBlanksAt_iff.mpr hblank
      rw [readTokensAt, dif_neg (Nat.not_lt.mpr hend), tokensOf_of_allBlank hblank]
      rfl
    · have hlt := Nat.lt_of_not_le (mt length_le_afterBlanksAt_iff.mp hblank)
      obtain ⟨c, s, hs⟩ := exists_drop_eq_cons hlt
      rw [readTokensAt_of_lt hlt, readTokenAt_eq hs, tokensOf_of_not_allBlank hblank,
        ← drop_afterBlanksAt, hs]
      cases hjudge : judge (c :: s) with
      | declines => rfl
      | rejects why => rfl
      | takes token rest =>
        -- what the token leaves is left at the position behind it
        have hsuffix : rest <:+ text.drop (afterBlanksAt text pos) := by
          rw [hs]
          exact (judge_eq_takes_iff.mp hjudge).suffix
        have hrest := drop_length_sub_length hsuffix
        have hshorter : (text.drop (text.length - rest.length)).length < length := by
          have hlt := length_rest_lt_of_judge hjudge
          have hle := length_skipBlanks_le (text.drop pos)
          rw [← drop_afterBlanksAt, hs] at hle
          rw [hrest]
          omega
        show (readTokensAt text (afterBlanksAt text (text.length - rest.length)) >>= _) = _
        rw [ih _ hshorter _ rfl, hrest]
        show _ = ((tokensOf rest).map (token :: ·)).mapError StepError.rejected
        cases tokensOf rest with
        | error why => rfl
        | ok tokens => rfl

theorem readTokens_eq (text : List Char) :
    readTokens text = (tokensOf text).mapError .rejected := by
  rw [readTokens, spanEnd_blank, liftM_ok, Outcome.ok_bind]
  exact readTokensAt_eq text 0

/-! ## The answer -/

/-- What gets out of the reader in the place of an answer. -/
inductive Escape where
  /-- A read beyond the end of the text. -/
  | pastEnd
  /-- A text that stands among the tokens without being one. -/
  | foreign (text : String)
  deriving Repr, DecidableEq

/-- What the caller gets: the switches of the line, or the message that says why there are none. -/
def answer (line : String) : Except Escape (Except String (List Entry)) :=
  match readTokens line.toList with
  | .error .pastEnd => .error .pastEnd
  | .error (.rejected why) => .ok (.error why.message)
  | .ok tokens =>
    match assembleItems (tokens.map .token) with
    | .error (.foreign text) => .error (.foreign text)
    | .error .orphanArgument => .ok (.error AssemblyError.orphanArgument.message)
    | .ok switches => .ok (.ok switches)

/-- **Every line is answered**, and nothing else gets out of the reader. -/
theorem answer_eq (line : String) :
    answer line = .ok ((parse line).mapError Rejection.message) := by
  rw [answer, readTokens_eq, parse, tokenize]
  cases tokensOf line.toList with
  | error why => rfl
  | ok tokens =>
    rw [Outcome.ok_bind]
    dsimp only [Except.mapError]
    rw [assembleItems_map_token]
    cases tokens with
    | nil => rfl
    | cons token tokens => cases token <;> rfl

end CommandBar.Switch
