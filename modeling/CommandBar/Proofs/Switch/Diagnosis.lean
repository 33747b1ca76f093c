import CommandBar.Proofs.Switch.Checked
import CommandBar.Proofs.Switch.Concatenation

/-!
# What a rejected line is told

A line is read token by token, and the first place at which no token stands decides what the user is
told. Only if there is no such place does it matter whether an argument comes before the first
command.

- `Reaches`: how far the reader comes, token by token.
- `NoTokenAt`, `IsStuckAt`: no token stands at a position, and the reader comes to such a position.
- `diagnosisAt`: what is told of the place.
- `NoTokenAt.exists_judge`: **where no token stands a rule rejects the line**.
- `exists_isUnitAt_or_noTokenAt`: in front of a word the rules do not all decline.
- `Reaches.tokensOf_drop`: up to where the reader comes, its tokens are those of the text.
- `IsStuckAt.unique`, `exists_reaches`: the reader is stuck at one position at most, and otherwise
  comes to the end.
- `answer_diagnosis`: **what the user is told**, whatever the line.
-/

namespace CommandBar.Switch

variable {text s : List Char} {pos stop : Nat} {c : Char} {tokens : List Token} {token : Token}

/-- Reading on from `pos`, and skipping blanks, the reader takes the tokens and then stands at
`stop`. -/
inductive Reaches (text : List Char) : (pos : Nat) → List Token → (stop : Nat) → Prop
  | here {pos : Nat} : Reaches text pos [] (afterBlanksAt text pos)
  | token {pos next stop : Nat} {token : Token} {tokens : List Token} :
      IsUnitAt text (afterBlanksAt text pos) next token → Reaches text next tokens stop →
        Reaches text pos (token :: tokens) stop

/-- No token stands at the position: neither a command, nor a quoted run that ends where a word may
end, nor a word without a slash. -/
structure NoTokenAt (text : List Char) (pos : Nat) : Prop where
  command : text[pos]? = some '/' → ∀ stop, stop ≤ text.length → text.extract (pos + 1) stop ≠ [] →
    (∀ c ∈ text.extract (pos + 1) stop, isNameChar c = true) → isWordEndAt text stop = false
  quoted : ∀ content stop, Quoted.IsRunAt text pos content stop → isWordEndAt text stop = false
  slash : '/' ∈ text.extract pos (afterWordAt text pos)

/-- The reader comes to the position, and no token stands there. -/
def IsStuckAt (text : List Char) (pos : Nat) : Prop :=
  (∃ tokens, Reaches text 0 tokens pos) ∧ NoTokenAt text pos

/-- What the user is told of a position at which no token stands. -/
def diagnosisAt (text : List Char) (pos : Nat) : String :=
  if text[pos]? = some '/' then
    if isWordEndAt text (pos + 1) then "bogus input: / with no command!"
    else "bogus /command: " ++ String.ofList (text.extract pos (afterWordAt text pos))
  else "unquoted arguments may not contain slash"

/-! ## Where no token stands -/

/-- What is told of a bad command shows the whole word, with its slash. -/
theorem message_badCommand (run : List Char) :
    (Rejection.badCommand (String.ofList run)).message =
      "bogus /command: " ++ String.ofList ('/' :: run) := by
  have hslash : "bogus /command: /" = "bogus /command: " ++ String.ofList ['/'] := by decide
  show "bogus /command: /" ++ String.ofList run = _
  rw [hslash, String.append_assoc, ← String.ofList_append]
  rfl

theorem NoTokenAt.not_isUnitAt (h : NoTokenAt text pos) : ¬ IsUnitAt text pos stop token := by
  intro hunit
  cases hunit with
  | command hslash hstop hne hname hend =>
    rw [h.command hslash stop hstop hne hname] at hend
    cases hend
  | quoted hrun hend =>
    rw [h.quoted _ stop hrun] at hend
    cases hend
  | bare _ _ _ _ hstop hslash =>
    subst hstop
    exact hslash h.slash

/-- A position at which no token stands is in front of a word. -/
theorem NoTokenAt.exists_first (h : NoTokenAt text pos) :
    ∃ c s, text.drop pos = c :: s ∧ isBlank c = false := by
  have hslash := h.slash
  rw [extract_afterWordAt] at hslash
  have hstarts : atWordEnd (text.drop pos) ≠ true :=
    mt word_eq_nil_iff.mpr (List.ne_nil_of_mem hslash)
  cases hs : text.drop pos with
  | nil =>
    rw [hs] at hstarts
    exact absurd rfl hstarts
  | cons c s =>
    rw [hs] at hstarts
    exact ⟨c, s, rfl, by simpa [atWordEnd] using hstarts⟩

/-- A slash is the start of a command, or it is rejected with the message for this place. -/
theorem judge_slash_takes_or_rejects (hs : text.drop pos = '/' :: s) :
    (∃ token rest, judge ('/' :: s) = .takes token rest) ∨
      ∃ why, judge ('/' :: s) = .rejects why ∧ why.message = diagnosisAt text pos := by
  obtain ⟨hc, hrest⟩ := drop_eq_cons_iff.mp hs
  have hend : isWordEndAt text (pos + 1) = true ↔ (word s).isEmpty = true := by
    rw [isWordEndAt, hrest, ← word_eq_nil_iff, List.isEmpty_iff]
  have hjudge := judge_slash s
  dsimp only at hjudge
  split at hjudge
  · exact .inl ⟨_, _, hjudge⟩
  · split at hjudge
    · next hword =>
      refine .inr ⟨_, hjudge, ?_⟩
      rw [diagnosisAt, if_pos hc, if_pos (hend.mpr hword)]
      rfl
    · next hword =>
      refine .inr ⟨_, hjudge, ?_⟩
      rw [diagnosisAt, if_pos hc, if_neg (mt hend.mp hword), extract_afterWordAt, hs,
        word_cons (by decide), message_badCommand]

/-- In front of any other word the rules take a token, or they reject the word for a slash in it. -/
theorem judge_takes_or_rejects_of_ne_slash (hs : text.drop pos = c :: s)
    (hblank : isBlank c = false) (hslash : c ≠ '/') :
    (∃ token rest, judge (c :: s) = .takes token rest) ∨
      '/' ∈ word (c :: s) ∧
        ∃ why, judge (c :: s) = .rejects why ∧ why.message = diagnosisAt text pos := by
  have hhead : (c :: s).head? ≠ some '/' := by simpa using hslash
  have hword : ¬ (word (c :: s)).isEmpty = true := by simp [word_cons hblank]
  have hnext : ¬ text[pos]? = some '/' := by
    rw [(drop_eq_cons_iff.mp hs).1]
    simpa using hslash
  rw [diagnosisAt, if_neg hnext, judge_of_ne_slash hhead]
  cases Quoted.run? atWordEnd (c :: s) with
  | some close => exact .inl ⟨_, _, rfl⟩
  | none =>
    rw [Rule.judgeBareWord, if_neg hword]
    by_cases hmem : '/' ∈ word (c :: s)
    · rw [if_pos (by simpa using hmem)]
      exact .inr ⟨hmem, _, rfl, rfl⟩
    · rw [if_neg (by simpa using hmem)]
      exact .inl ⟨_, _, rfl⟩

/-- In front of a word the rules take a token, or they reject the text for a slash in the word, and
with the message for this place. -/
theorem judge_takes_or_rejects (hs : text.drop pos = c :: s) (hblank : isBlank c = false) :
    (∃ token rest, judge (c :: s) = .takes token rest) ∨
      '/' ∈ word (c :: s) ∧
        ∃ why, judge (c :: s) = .rejects why ∧ why.message = diagnosisAt text pos := by
  by_cases hslash : c = '/'
  · subst hslash
    refine (judge_slash_takes_or_rejects hs).imp_right fun hrejects => ⟨?_, hrejects⟩
    rw [word_cons hblank]
    exact List.mem_cons_self
  · exact judge_takes_or_rejects_of_ne_slash hs hblank hslash

/-- What the rules take is a token at this position. -/
theorem isUnitAt_of_judge {rest : List Char} (h : judge (text.drop pos) = .takes token rest) :
    IsUnitAt text pos (text.length - rest.length) token := by
  have hunit := judge_eq_takes_iff.mp h
  refine isUnitAt_iff.mpr ⟨Nat.sub_le _ _, ?_⟩
  rwa [drop_length_sub_length hunit.suffix]

/-- **Where no token stands a rule rejects the line**, with the message for this place. -/
theorem NoTokenAt.exists_judge (h : NoTokenAt text pos) :
    ∃ why, judge (text.drop pos) = .rejects why ∧ why.message = diagnosisAt text pos := by
  obtain ⟨c, s, hs, hblank⟩ := h.exists_first
  rcases judge_takes_or_rejects hs hblank with ⟨token, rest, hjudge⟩ | ⟨-, hrejects⟩
  · rw [← hs] at hjudge
    exact absurd (isUnitAt_of_judge hjudge) h.not_isUnitAt
  · rwa [hs]

/-- **In front of a word a token stands, or none does.** There is no third case, in which all rules
would decline. -/
theorem exists_isUnitAt_or_noTokenAt (hs : text.drop pos = c :: s) (hblank : isBlank c = false) :
    (∃ stop token, IsUnitAt text pos stop token) ∨ NoTokenAt text pos := by
  rcases judge_takes_or_rejects hs hblank with ⟨token, rest, hjudge⟩ | ⟨hslash, why, hjudge, -⟩
  · rw [← hs] at hjudge
    exact .inl ⟨_, _, isUnitAt_of_judge hjudge⟩
  · rw [← hs] at hjudge hslash
    have hnone : ∀ token rest, ¬ IsUnit (text.drop pos) token rest := by
      intro token rest hunit
      rw [judge_eq_takes_iff.mpr hunit] at hjudge
      cases hjudge
    refine .inr ⟨?_, ?_, ?_⟩
    · intro hc stop hstop hne hname
      refine Bool.eq_false_iff.mpr fun hend => ?_
      exact hnone _ _ (isUnitAt_iff.mp (.command hc hstop hne hname hend)).2
    · refine Quoted.forall_isRunAt_iff.mpr (Quoted.run?_eq_none_iff.mp ?_)
      refine Option.eq_none_iff_forall_ne_some.mpr fun close hclose => ?_
      exact hnone _ _ (.quoted (Quoted.run?_eq_some_iff.mp hclose))
    · rwa [extract_afterWordAt]

/-! ## How far the reader comes -/

/-- **Up to where the reader comes its tokens are those of the text.** The induction is on the
tokens it takes. -/
theorem Reaches.tokensOf_drop (h : Reaches text pos tokens stop) :
    tokensOf (text.drop pos) = (tokensOf (text.drop stop)).map (tokens ++ ·) := by
  induction h with
  | @here pos =>
    rw [drop_eq_extract_append (le_afterBlanksAt text pos),
      tokensOf_gap (allBlank_extract_afterBlanksAt text pos)]
    cases tokensOf (text.drop (afterBlanksAt text pos)) <;> rfl
  | @token pos next stop token tokens hunit _ ih =>
    rw [drop_eq_extract_append (le_afterBlanksAt text pos),
      tokensOf_cons (allBlank_extract_afterBlanksAt text pos) (isUnitAt_iff.mp hunit).2, ih]
    cases tokensOf (text.drop stop) <;> rfl

theorem tokensOf_drop_of_noTokenAt (h : NoTokenAt text pos) :
    ∃ why, tokensOf (text.drop pos) = .error why ∧ why.message = diagnosisAt text pos := by
  obtain ⟨c, s, hs, hblank⟩ := h.exists_first
  obtain ⟨why, hjudge, hmessage⟩ := h.exists_judge
  have hskip : skipBlanks (text.drop pos) = text.drop pos := by
    rw [hs, skipBlanks_cons hblank]
  have hne : ¬ AllBlank (text.drop pos) := by
    rw [← skipBlanks_eq_nil_iff, hskip, hs]
    exact List.cons_ne_nil c s
  refine ⟨why, ?_, hmessage⟩
  rw [tokensOf_of_not_allBlank hne, hskip, hjudge]

/-- **The reader is stuck at one position at most.** On the way there it takes a token wherever it
stands, and which it takes is decided. -/
theorem Reaches.eq_of_noTokenAt {tokens' : List Token} {stop' : Nat}
    (h : Reaches text pos tokens stop) (h' : Reaches text pos tokens' stop')
    (hnone : NoTokenAt text stop) (hnone' : NoTokenAt text stop') : stop = stop' := by
  induction h generalizing tokens' with
  | here =>
    -- one reader does not go on from where the other takes a token
    cases h' with
    | here => rfl
    | token hunit _ => exact absurd hunit hnone.not_isUnitAt
  | token hunit _ ih =>
    cases h' with
    | here => exact absurd hunit hnone'.not_isUnitAt
    | token hunit' hreaches' =>
      obtain ⟨rfl, -⟩ := hunit.unique hunit'
      exact ih hreaches' hnone

theorem IsStuckAt.unique {pos' : Nat} (h : IsStuckAt text pos) (h' : IsStuckAt text pos') :
    pos = pos' := by
  obtain ⟨⟨_, hreaches⟩, hnone⟩ := h
  obtain ⟨⟨_, hreaches'⟩, hnone'⟩ := h'
  exact hreaches.eq_of_noTokenAt hreaches' hnone hnone'

/-- **The reader comes to the end, or is stuck before it.** The induction is on what is left; a
token is not empty, so behind it there is less left. -/
theorem exists_reaches (hpos : pos ≤ text.length) :
    ∃ tokens stop, Reaches text pos tokens stop ∧ (stop = text.length ∨ NoTokenAt text stop) := by
  induction hlength : text.length - pos using Nat.strongRecOn generalizing pos with
  | ind length ih =>
    cases hs : text.drop (afterBlanksAt text pos) with
    | nil =>
      -- there were only blanks left
      have hend := List.drop_eq_nil_iff.mp hs
      exact ⟨[], _, .here, .inl (Nat.le_antisymm (afterBlanksAt_le_length hpos) hend)⟩
    | cons c s =>
      have hblank : isBlank c = false :=
        isBlank_of_skipBlanks_eq_cons ((drop_afterBlanksAt text pos).symm.trans hs)
      rcases exists_isUnitAt_or_noTokenAt hs hblank with ⟨next, token, hunit⟩ | hnone
      · have hnext := (isUnitAt_iff.mp hunit).1
        have hlt := hunit.start_lt_stop
        have hle := le_afterBlanksAt text pos
        obtain ⟨tokens, stop, hreaches, hstop⟩ := ih _ (by omega) hnext rfl
        exact ⟨token :: tokens, stop, .token hunit hreaches, hstop⟩
      · exact ⟨[], _, .here, .inr hnone⟩

/-! ## What is told of a line -/

theorem answer_of_isStuckAt {line : String} (h : IsStuckAt line.toList pos) :
    answer line = .ok (.error (diagnosisAt line.toList pos)) := by
  obtain ⟨⟨tokens, hreaches⟩, hnone⟩ := h
  obtain ⟨why, htokens, hmessage⟩ := tokensOf_drop_of_noTokenAt hnone
  have hread : tokenize line = .error why := by
    show tokensOf (line.toList.drop 0) = _
    rw [hreaches.tokensOf_drop, htokens]
    rfl
  rw [answer_eq, parse, hread, ← hmessage]
  rfl

/-- If the reader comes to the end, its tokens are those of the line. -/
theorem tokenize_of_reaches {line : String} (h : Reaches line.toList 0 tokens line.toList.length) :
    tokenize line = .ok tokens := by
  show tokensOf (line.toList.drop 0) = _
  rw [h.tokensOf_drop, List.drop_length,
    tokensOf_of_allBlank fun c hc => absurd hc List.not_mem_nil]
  show Except.ok (tokens ++ []) = _
  rw [List.append_nil]

/-- **What the user is told, whatever the line.** Every line is answered with its switches or with
one message. The reader is stuck at one position at most. If it is, the message is the one for that
place, whatever stands in front of it. Otherwise the reader comes to the end, and then the answer is
that an argument belongs to no switch if the first token is a literal, and the switches if not. -/
theorem answer_diagnosis (line : String) :
    answer line = .ok ((parse line).mapError Rejection.message) ∧
    (∀ pos pos', IsStuckAt line.toList pos → IsStuckAt line.toList pos' → pos = pos') ∧
    (∀ pos, IsStuckAt line.toList pos →
      answer line = .ok (.error (diagnosisAt line.toList pos))) ∧
    ((∀ pos, ¬ IsStuckAt line.toList pos) →
      ∃ tokens, Reaches line.toList 0 tokens line.toList.length ∧ tokenize line = .ok tokens ∧
        (answer line = .ok (.error "text with no switch") ↔
          ∃ content, tokens.head? = some (.literal content)) ∧
        ((∃ switches, answer line = .ok (.ok switches)) ↔
          ¬ ∃ content, tokens.head? = some (.literal content))) := by
  refine ⟨answer_eq line, fun pos pos' h h' => h.unique h', fun pos h => answer_of_isStuckAt h, ?_⟩
  intro hnever
  obtain ⟨tokens, stop, hreaches, hstop⟩ := exists_reaches (Nat.zero_le line.toList.length)
  rcases hstop with rfl | hnone
  · -- all tokens are taken, so the first of them decides
    have htokens := tokenize_of_reaches hreaches
    refine ⟨tokens, hreaches, htokens, ?_⟩
    rw [answer_eq, parse, htokens, Outcome.ok_bind]
    cases tokens with
    | nil =>
      have hanswer : (assemble []).mapError Rejection.message = .ok [] := rfl
      simp [hanswer]
    | cons token tokens =>
      cases token with
      | command name =>
        have hanswer : (assemble (.command name :: tokens)).mapError Rejection.message =
            .ok ((name :: (chunks tokens).1) :: (chunks tokens).2) := rfl
        simp [hanswer]
      | literal content =>
        have hanswer : (assemble (.literal content :: tokens)).mapError Rejection.message =
            .error "text with no switch" := rfl
        simp [hanswer]
  · exact absurd ⟨⟨tokens, hreaches⟩, hnone⟩ (hnever stop)

/-- A line that starts with an argument and goes on with a quoted slash: what is told is that the
word behind them is no command. -/
theorem answer_diagnosis_behindArguments :
    ∃ pos, IsStuckAt "soy \"/a b\" /Milk x".toList pos ∧
      diagnosisAt "soy \"/a b\" /Milk x".toList pos = "bogus /command: /Milk" ∧
      answer "soy \"/a b\" /Milk x" = .ok (.error "bogus /command: /Milk") := by
  obtain ⟨hanswer, -, hstuck, hnever⟩ := answer_diagnosis "soy \"/a b\" /Milk x"
  have htokens : tokenize "soy \"/a b\" /Milk x" = .error (.badCommand "Milk") := by
    decide +kernel
  have hexists : ∃ pos, IsStuckAt "soy \"/a b\" /Milk x".toList pos := by
    by_contra hnone
    obtain ⟨tokens, -, htokens', -⟩ := hnever (not_exists.mp hnone)
    rw [htokens] at htokens'
    cases htokens'
  obtain ⟨pos, hpos⟩ := hexists
  have hmessage : answer "soy \"/a b\" /Milk x" = .ok (.error "bogus /command: /Milk") := by
    rw [hanswer, parse, htokens]
    rfl
  have hdiagnosis := (hstuck pos hpos).symm.trans hmessage
  exact ⟨pos, hpos, Except.error.inj (Except.ok.inj hdiagnosis), hmessage⟩

end CommandBar.Switch
