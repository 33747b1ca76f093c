import CommandBar.Quoted.Grammar
import CommandBar.Switch.Tokens

/-!
# The grammar of switch lines

What a switch line is, said without the rules of the reader and their order.

- `IsUnit`: a text starts with a token.
- `Units`: a text is a sequence of tokens with blanks around them.
- `judge_slash`, `judge_of_ne_slash`: what the rules make of a text, by its first character.
- `judge_eq_takes_iff`: the rules take exactly the tokens of the grammar.
- `tokensOf_eq_ok_iff`: a text has tokens exactly if it is a sequence of them, and then these.
-/

namespace CommandBar.Switch

/-- The text `s` starts with the token, and `rest` follows. Every token ends where a word may end,
but a quoted one may hold blanks and so extend over several words. A word counts as bare only where
no quoted run could be read. -/
inductive IsUnit : (s : List Char) → Token → (rest : List Char) → Prop
  | command {name rest : List Char} :
      name ≠ [] → (∀ c ∈ name, isNameChar c = true) → atWordEnd rest = true →
        IsUnit ('/' :: (name ++ rest)) (.command (String.ofList name)) rest
  | quoted {s content rest : List Char} :
      Quoted.IsLongestRun atWordEnd s content rest →
        IsUnit s (.literal (String.ofList content)) rest
  | bare {w rest : List Char} :
      w ≠ [] → (∀ c ∈ w, isBlank c = false ∧ c ≠ '/') → atWordEnd rest = true →
        (∀ content rest', Quoted.IsRun (w ++ rest) content rest' → atWordEnd rest' = false) →
        IsUnit (w ++ rest) (.literal (String.ofList w)) rest

/-- The text `s` is the sequence of tokens, with blanks in between and possibly around them. That
there are blanks between two tokens need not be said: the first ends where a word may end, and the
second does not start with a blank. -/
inductive Units : (s : List Char) → List Token → Prop
  | done {gap : List Char} : AllBlank gap → Units gap []
  | cons {gap s rest : List Char} {token : Token} {tokens : List Token} :
      AllBlank gap → IsUnit s token rest → Units rest tokens → Units (gap ++ s) (token :: tokens)

/-! ## What the rules make of a text -/

theorem isBlank_of_isNameChar {c : Char} (h : isNameChar c = true) : isBlank c = false := by
  have hall : nameChars.all (!isBlank ·) = true := by decide
  simpa using List.all_eq_true.mp hall c (by simpa [isNameChar] using h)

theorem isBlank_of_isOpener {c : Char} (h : Quoted.isOpener c = true) : isBlank c = false := by
  have hall : Quoted.openers.all (!isBlank ·) = true := by decide
  simpa using List.all_eq_true.mp hall c (by simpa [Quoted.isOpener] using h)

theorem not_isRun_slash {t content rest : List Char} : ¬ Quoted.IsRun ('/' :: t) content rest := by
  rintro ⟨_, _, h, hopener, _⟩
  cases h
  revert hopener
  decide

/-- **A slash** starts a command if what follows up to the end of the word is a name, and is a
mistake otherwise. -/
theorem judge_slash (t : List Char) :
    judge ('/' :: t) =
      let name := t.takeWhile isNameChar
      let rest := t.dropWhile isNameChar
      if !name.isEmpty && atWordEnd rest then .takes (.command (String.ofList name)) rest
      else if (word t).isEmpty then .rejects .loneSlash
      else .rejects (.badCommand (String.ofList (word t))) := by
  simp only [judge, Rule.all, judgeBy, Rule.judge, Rule.judgeCommand, Rule.judgeBadCommand,
    Rule.judgeLoneSlash]
  by_cases hname : (!(t.takeWhile isNameChar).isEmpty && atWordEnd (t.dropWhile isNameChar)) = true
  · simp [hname]
  · by_cases hword : (word t).isEmpty = true
    · -- without a word behind it, the slash stands at the end of one
      have hend : atWordEnd t = true := by
        have := atWordEnd_afterWord t
        rwa [← word_append_afterWord t, List.isEmpty_iff.mp hword, List.nil_append]
      simp [hname, hword, hend]
    · simp [hname, hword]

/-- **Any other character** starts a quoted run that ends where a word may end, or else a bare
word. -/
theorem judge_of_ne_slash {s : List Char} (h : s.head? ≠ some '/') :
    judge s =
      match Quoted.run? atWordEnd s with
      | some close => .takes (.literal close.content) close.rest
      | none => Rule.judgeBareWord s := by
  have hcommand : Rule.judgeCommand s = .declines := by
    unfold Rule.judgeCommand
    split
    · exact absurd rfl h
    · rfl
  have hbad : Rule.judgeBadCommand s = .declines := by
    unfold Rule.judgeBadCommand
    split
    · exact absurd rfl h
    · rfl
  have hlone : Rule.judgeLoneSlash s = .declines := by
    unfold Rule.judgeLoneSlash
    split
    · exact absurd rfl h
    · rfl
  simp only [judge, Rule.all, judgeBy, Rule.judge, hcommand, hbad, hlone, Rule.judgeQuoted]
  cases Quoted.run? atWordEnd s with
  | some close => rfl
  | none => cases hbare : Rule.judgeBareWord s <;> simp

/-- The last rule takes the word in front, if there is one and it has no slash. -/
theorem judgeBareWord_eq_takes_iff {s rest : List Char} {token : Token} :
    Rule.judgeBareWord s = .takes token rest ↔
      ∃ w, w ≠ [] ∧ (∀ c ∈ w, isBlank c = false ∧ c ≠ '/') ∧ atWordEnd rest = true ∧
        s = w ++ rest ∧ token = .literal (String.ofList w) := by
  constructor
  · intro h
    rw [Rule.judgeBareWord] at h
    split at h
    · cases h
    · next hword =>
      split at h
      · cases h
      · next hslash =>
        cases h
        refine ⟨word s, by simpa using hword, fun c hc => ⟨isBlank_of_mem_word hc, ?_⟩,
          atWordEnd_afterWord s, (word_append_afterWord s).symm, rfl⟩
        rintro rfl
        simp [hc] at hslash
  · rintro ⟨w, hne, hw, hrest, rfl, rfl⟩
    obtain ⟨hword, hafter⟩ := word_append (fun c hc => (hw c hc).1) hrest
    have hslash : '/' ∉ w := fun h => (hw '/' h).2 rfl
    simp [Rule.judgeBareWord, hword, hafter, hne, hslash]

/-- **The rules take exactly the tokens of the grammar.** -/
theorem judge_eq_takes_iff {s rest : List Char} {token : Token} :
    judge s = .takes token rest ↔ IsUnit s token rest := by
  by_cases hslash : s.head? = some '/'
  · obtain ⟨t, rfl⟩ : ∃ t, s = '/' :: t := by
      cases s with
      | nil => cases hslash
      | cons c t => exact ⟨t, by simpa using hslash⟩
    rw [judge_slash]
    constructor
    · intro h
      dsimp only at h
      split at h
      · next hname =>
        cases h
        simp only [Bool.and_eq_true, Bool.not_eq_true', List.isEmpty_eq_false_iff] at hname
        have := IsUnit.command hname.1 (of_mem_takeWhile _ t) hname.2
        rwa [List.takeWhile_append_dropWhile] at this
      · split at h <;> cases h
    · intro h
      generalize hs : '/' :: t = s at h
      cases h with
      | @command name _ hne hname hrest =>
        obtain ⟨-, rfl⟩ := List.cons.inj hs
        -- the name is as long as it can be, for no character of a name is blank
        have hends : ∀ c r, rest = c :: r → isNameChar c = false := fun c r hr => by
          subst hr
          cases hc : isNameChar c with
          | false => rfl
          | true => simp [atWordEnd, isBlank_of_isNameChar hc] at hrest
        obtain ⟨htake, hdrop⟩ := span_append hname hends
        simp [htake, hdrop, hne, hrest]
      | quoted hrun =>
        -- a slash opens no quoted run
        subst hs
        exact absurd hrun.1 not_isRun_slash
      | @bare w _ hne hw =>
        -- and no bare word has one in it
        cases w with
        | nil => exact absurd rfl hne
        | cons c w =>
          obtain ⟨rfl, -⟩ := List.cons.inj hs
          exact absurd rfl (hw '/' List.mem_cons_self).2
  · rw [judge_of_ne_slash hslash]
    constructor
    · intro h
      split at h
      · next close hrun =>
        cases h
        exact .quoted (Quoted.run?_eq_some_iff.mp hrun)
      · next hrun =>
        obtain ⟨w, hne, hw, hrest, rfl, rfl⟩ := judgeBareWord_eq_takes_iff.mp h
        exact .bare hne hw hrest (Quoted.run?_eq_none_iff.mp hrun)
    · intro h
      cases h with
      | command => exact absurd rfl hslash
      | @quoted _ content _ hrun =>
        have : Quoted.run? atWordEnd s = some ⟨content.reverse, rest⟩ :=
          Quoted.run?_eq_some_iff.mpr (by simpa using hrun)
        simp [this, Quoted.Close.content]
      | bare hne hw hrest hrun =>
        rw [Quoted.run?_eq_none_iff.mpr hrun]
        exact judgeBareWord_eq_takes_iff.mpr ⟨_, hne, hw, hrest, rfl, rfl⟩

/-! ## The tokens of a text -/

/-- A token does not start with a blank. -/
theorem skipBlanks_of_isUnit {s rest : List Char} {token : Token} (h : IsUnit s token rest) :
    skipBlanks s = s := by
  have hhead : ∃ c t, s = c :: t ∧ isBlank c = false := by
    cases h with
    | command => exact ⟨'/', _, rfl, by decide⟩
    | quoted hrun =>
      obtain ⟨opener, s', rfl, hopener, -⟩ := hrun.1
      exact ⟨opener, s', rfl, isBlank_of_isOpener hopener⟩
    | @bare w _ hne hw =>
      cases w with
      | nil => exact absurd rfl hne
      | cons c w => exact ⟨c, _, rfl, (hw c List.mem_cons_self).1⟩
  obtain ⟨c, t, rfl, hc⟩ := hhead
  exact skipBlanks_cons hc

theorem tokensOf_of_allBlank {s : List Char} (h : AllBlank s) : tokensOf s = .ok [] := by
  rw [tokensOf, if_pos (by simpa using skipBlanks_eq_nil_iff.mpr h)]

/-- The tokens of a text with a word in it, by the verdict on what follows the blanks. -/
theorem tokensOf_of_not_allBlank {s : List Char} (h : ¬ AllBlank s) :
    tokensOf s =
      match judge (skipBlanks s) with
      | .declines => .error .unrecognized
      | .rejects why => .error why
      | .takes token rest => (tokensOf rest).map (token :: ·) := by
  rw [tokensOf, if_neg (by simpa using mt skipBlanks_eq_nil_iff.mp h)]
  split <;> simp_all

theorem tokensOf_cons {gap s rest : List Char} {token : Token} (hgap : AllBlank gap)
    (h : IsUnit s token rest) : tokensOf (gap ++ s) = (tokensOf rest).map (token :: ·) := by
  have hskip : skipBlanks (gap ++ s) = s := by
    rw [skipBlanks_append hgap, skipBlanks_of_isUnit h]
  have hne : ¬ AllBlank (gap ++ s) := by
    intro hblank
    rw [skipBlanks_eq_nil_iff.mpr hblank] at hskip
    subst hskip
    rw [← judge_eq_takes_iff] at h
    cases h
  rw [tokensOf_of_not_allBlank hne, hskip, judge_eq_takes_iff.mpr h]

theorem tokensOf_of_units {s : List Char} {tokens : List Token} (h : Units s tokens) :
    tokensOf s = .ok tokens := by
  induction h with
  | done hgap => exact tokensOf_of_allBlank hgap
  | cons hgap hunit _ ih => rw [tokensOf_cons hgap hunit, ih, Except.map]

theorem units_of_tokensOf {s : List Char} {tokens : List Token} (h : tokensOf s = .ok tokens) :
    Units s tokens := by
  by_cases hblank : AllBlank s
  · rw [tokensOf_of_allBlank hblank] at h
    cases h
    exact .done hblank
  · rw [tokensOf_of_not_allBlank hblank] at h
    split at h
    · cases h
    · cases h
    · next token rest hjudge =>
      have _ := length_rest_lt_of_judge hjudge
      have _ := length_skipBlanks_le s
      cases hrest : tokensOf rest with
      | error why =>
        rw [hrest] at h
        cases h
      | ok tokens' =>
        rw [hrest] at h
        cases h
        obtain ⟨gap, hgap, hs⟩ := exists_gap s
        rw [hs]
        exact .cons hgap (judge_eq_takes_iff.mp hjudge) (units_of_tokensOf hrest)
termination_by s.length

/-- **A text has tokens exactly if it is a sequence of tokens, and then these.** So no text is two
different sequences. -/
theorem tokensOf_eq_ok_iff {s : List Char} {tokens : List Token} :
    tokensOf s = .ok tokens ↔ Units s tokens :=
  ⟨units_of_tokensOf, tokensOf_of_units⟩

end CommandBar.Switch
