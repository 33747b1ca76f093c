import CommandBar.Proofs.Switch.Diagnosis

/-!
# Tokens and words

A token may extend over several words, as between quotes, but it never takes part of a word. So the
reader, which skips the blanks in front of the line and behind each token, is in front of a word
whenever a rule is tried. There one of the rules decides, and a line needs no more turns than it has
words.

- `Rule.Decides`: a rule is the first that does not decline.
- `Rule.exists_decides`: in front of a word some rule decides, and no rule reads beyond the end.
- `IsWholeWords`: a piece of a text that consists of whole words.
- `IsLayout.isWholeWords`, `IsLayout.words_eq`: the pieces that tokens stand on do, and every word
  of the text lies in one of them.
- `readTokensIn`, `readTokensIn_eq`: the reader with a bound on its turns, and **as many turns as
  there are words are enough**.
- `tokenize_words`: **the rules decide in front of every word, and tokens consist of whole words.**
-/

namespace CommandBar.Switch

variable {text s : List Char} {pos start stop : Nat} {c : Char} {token : Token} {rule : Rule}

/-! ## The rule that decides -/

/-- Of the rules, tried in their order at the position, this is the first that does not decline. -/
structure Rule.Decides (rule : Rule) (text : List Char) (pos : Nat) : Prop where
  reached : ∃ before after, Rule.all = before ++ rule :: after ∧
    ∀ earlier ∈ before, earlier.readAt text pos = .ok none
  found : readBy text pos Rule.all = rule.readAt text pos
  not_declines : rule.readAt text pos ≠ .ok none

/-- What is found at a position is found by a rule that comes after others that decline. -/
theorem exists_of_readBy {rules : List Rule} (h : readBy text pos rules ≠ .ok none) :
    ∃ before rule after, rules = before ++ rule :: after ∧
      (∀ earlier ∈ before, earlier.readAt text pos = .ok none) ∧
      readBy text pos rules = rule.readAt text pos := by
  induction rules with
  | nil => exact absurd rfl h
  | cons first rules ih =>
    rw [readBy] at h ⊢
    cases hread : first.readAt text pos with
    | error e =>
      exact ⟨[], first, rules, rfl, fun _ hmem => absurd hmem List.not_mem_nil, hread.symm⟩
    | ok found =>
      cases found with
      | some found =>
        exact ⟨[], first, rules, rfl, fun _ hmem => absurd hmem List.not_mem_nil, hread.symm⟩
      | none =>
        rw [hread] at h
        obtain ⟨before, rule, after, rfl, hbefore, hfound⟩ := ih h
        exact ⟨first :: before, rule, after, rfl, List.forall_mem_cons.mpr ⟨hread, hbefore⟩, hfound⟩

theorem Rule.exists_decides_of_readBy (h : readBy text pos Rule.all ≠ .ok none) :
    ∃ rule : Rule, rule.Decides text pos := by
  obtain ⟨before, rule, after, hrules, hbefore, hfound⟩ := exists_of_readBy h
  exact ⟨rule, ⟨before, after, hrules, hbefore⟩, hfound, hfound ▸ h⟩

/-- The rule for commands and the one for quoted runs leave it to others to reject a text. -/
theorem Rule.mem_of_judge_rejects {why : Rejection} (h : rule.judge s = .rejects why) :
    rule ∈ [badCommand, loneSlash, bareWord] := by
  cases rule with
  | command =>
    simp only [Rule.judge, Rule.judgeCommand] at h
    split at h
    · split at h <;> cases h
    · cases h
  | quoted =>
    simp only [Rule.judge, Rule.judgeQuoted] at h
    split at h <;> cases h
  | badCommand => decide
  | loneSlash => decide
  | bareWord => decide

/-- Where a character is left, a rule fails only by rejecting the text. -/
theorem Rule.exists_judge_rejects {e : StepError} (hs : text.drop pos = c :: s)
    (h : rule.readAt text pos = .error e) :
    ∃ why, rule.judge (c :: s) = .rejects why ∧ e = .rejected why := by
  rw [rule.readAt_eq, stepAt_of_drop_eq_cons rule hs] at h
  cases hjudge : rule.judge (c :: s) with
  | rejects why =>
    rw [hjudge] at h
    cases h
    exact ⟨why, rfl, rfl⟩
  | declines =>
    rw [hjudge] at h
    cases h
  | takes token rest =>
    rw [hjudge] at h
    cases h

theorem Rule.readAt_ne_pastEnd (hs : text.drop pos = c :: s) :
    rule.readAt text pos ≠ .error .pastEnd := by
  intro h
  obtain ⟨why, -, hwhy⟩ := exists_judge_rejects hs h
  cases hwhy

/-- The rules find a token where it stands. -/
theorem readBy_of_isUnitAt (h : IsUnitAt text pos stop token) :
    readBy text pos Rule.all = .ok (some (token, stop)) := by
  obtain ⟨c, hc, -⟩ := h.exists_first
  obtain ⟨hstop, hunit⟩ := isUnitAt_iff.mp h
  have hjudge := judge_eq_takes_iff.mpr hunit
  have hs : text.drop pos = c :: text.drop (pos + 1) := drop_eq_cons_iff.mpr ⟨hc, rfl⟩
  rw [hs] at hjudge
  rw [readBy_eq hs, ← judge, hjudge, Verdict.located, length_sub_length_drop hstop]

/-- In front of a word the rules find a token, or they reject the text. -/
theorem readBy_takes_or_rejects (hs : text.drop pos = c :: s) (hblank : isBlank c = false) :
    (∃ token stop, IsUnitAt text pos stop token ∧
      readBy text pos Rule.all = .ok (some (token, stop))) ∨
      ∃ why, readBy text pos Rule.all = .error (.rejected why) := by
  rcases judge_takes_or_rejects hs hblank with ⟨token, rest, hjudge⟩ | ⟨-, why, hjudge, -⟩
  · rw [← hs] at hjudge
    have hunit := isUnitAt_of_judge hjudge
    exact .inl ⟨token, _, hunit, readBy_of_isUnitAt hunit⟩
  · refine .inr ⟨why, ?_⟩
    rw [readBy_eq hs]
    exact congrArg (Verdict.located text) hjudge

/-! ## Whole words -/

/-- The piece of the text from `start` up to `stop` is one word, or several with the blanks between
them, and no word is cut at its ends. -/
structure IsWholeWords (text : List Char) (start stop : Nat) : Prop where
  start_lt_stop : start < stop
  stop_le : stop ≤ text.length
  begins : start = 0 ∨ ∃ c, text[start - 1]? = some c ∧ isBlank c = true
  first : ∃ c, text[start]? = some c ∧ isBlank c = false
  last : ∃ c, text[stop - 1]? = some c ∧ isBlank c = false
  ends : isWordEndAt text stop = true

/-- What holds of the characters of a piece holds of the last of them. -/
theorem exists_last_of_extract {P : Char → Prop} (hlt : start < stop) (hstop : stop ≤ text.length)
    (h : ∀ c ∈ text.extract start stop, P c) : ∃ c, text[stop - 1]? = some c ∧ P c := by
  have hlast : text[stop - 1]? = some text[stop - 1] := List.getElem?_eq_getElem (by omega)
  exact ⟨_, hlast, h _ (mem_extract_of_getElem? (by omega) (by omega) hlast)⟩

theorem isBlank_of_isCloser (h : Quoted.isCloser c = true) : isBlank c = false := by
  have hall : Quoted.closers.all (!isBlank ·) = true := by decide
  simpa using List.all_eq_true.mp hall c (by simpa [Quoted.isCloser] using h)

/-- A token ends with a character that is not blank. -/
theorem IsUnitAt.exists_last (h : IsUnitAt text start stop token) :
    ∃ c, text[stop - 1]? = some c ∧ isBlank c = false := by
  cases h with
  | command _ hstop hne hname _ =>
    have hlt : start + 1 < stop := by
      refine Nat.lt_of_not_le fun hle => hne ?_
      rw [List.extract_eq_take_drop, Nat.sub_eq_zero_of_le hle, List.take_zero]
    exact exists_last_of_extract hlt hstop fun c hc => isBlank_of_isNameChar (hname c hc)
  | quoted hrun =>
    obtain ⟨closer, hcloser, hshuts⟩ := hrun.shuts
    exact ⟨closer, hcloser, isBlank_of_isCloser hshuts⟩
  | bare hc hblank hslash hrun hstop hnoslash =>
    have hunit := IsUnitAt.bare hc hblank hslash hrun hstop hnoslash
    refine exists_last_of_extract hunit.start_lt_stop (isUnitAt_iff.mp hunit).1 fun d hd => ?_
    rw [hstop, extract_afterWordAt] at hd
    exact isBlank_of_mem_word hd

theorem IsUnitAt.atWordEnd (h : IsUnitAt text start stop token) : isWordEndAt text stop = true :=
  (isUnitAt_iff.mp h).2.atWordEnd

/-- **A token that starts where a word starts consists of whole words.** -/
theorem IsUnitAt.isWholeWords (h : IsUnitAt text start stop token)
    (hbegins : start = 0 ∨ ∃ c, text[start - 1]? = some c ∧ isBlank c = true) :
    IsWholeWords text start stop :=
  ⟨h.start_lt_stop, (isUnitAt_iff.mp h).1, hbegins, h.exists_first, h.exists_last, h.atWordEnd⟩

/-- A token has a word at least. -/
theorem IsUnitAt.words_ne_nil (h : IsUnitAt text start stop token) :
    words (text.extract start stop) ≠ [] := by
  obtain ⟨c, hc, hblank⟩ := h.exists_first
  have hmem := mem_extract_of_getElem? (Nat.le_refl start) h.start_lt_stop hc
  have hpiece : text.drop start = text.extract start stop ++ text.drop stop :=
    drop_eq_extract_append (Nat.le_of_lt h.start_lt_stop)
  -- the first character of the piece is the one at its start
  obtain ⟨d, piece, hd⟩ := List.exists_cons_of_ne_nil (List.ne_nil_of_mem hmem)
  rw [drop_eq_cons_iff.mpr ⟨hc, rfl⟩, hd] at hpiece
  obtain ⟨rfl, -⟩ := List.cons.inj hpiece
  rw [hd]
  exact CommandBar.words_ne_nil hblank

/-- **The words of a token** come before those that follow it; blanks in front of it add none. -/
theorem IsUnitAt.words_eq (h : IsUnitAt text start stop token) (hpos : pos ≤ start)
    (hgap : AllBlank (text.extract pos start)) :
    words (text.drop pos) = words (text.extract start stop) ++ words (text.drop stop) := by
  rw [drop_eq_extract_append hpos, words_append_of_allBlank hgap,
    drop_eq_extract_append (Nat.le_of_lt h.start_lt_stop), words_append_of_atWordEnd h.atWordEnd]

/-- **The tokens of a text consist of whole words.** The induction carries that the reader stands at
the start of the text or where a word may end. -/
theorem IsLayout.isWholeWords {units : List Placed} (h : IsLayout text pos units)
    (hpos : pos = 0 ∨ isWordEndAt text pos = true) :
    ∀ unit ∈ units, IsWholeWords text unit.start unit.stop := by
  induction h with
  | done => exact fun unit h => absurd h List.not_mem_nil
  | @cons pos unit units hle hgap hunit hnext hrest ih =>
    have hbegins : unit.start = 0 ∨ pos < unit.start := by
      rcases hpos with rfl | hend
      · exact Nat.eq_zero_or_pos unit.start
      · exact .inr ((IsLayout.cons hle hgap hunit hnext hrest).lt_start hend)
    have hstart := Nat.lt_of_lt_of_le hunit.start_lt_stop (isUnitAt_iff.mp hunit).1
    refine List.forall_mem_cons.mpr ⟨hunit.isWholeWords (hbegins.imp_right ?_), ?_⟩
    · intro hlt
      exact exists_last_of_extract hlt (Nat.le_of_lt hstart) hgap
    · exact ih (.inr hunit.atWordEnd)

/-- The tokens of a layout stand on their pieces. -/
theorem IsLayout.isUnitAt {units : List Placed} (h : IsLayout text pos units) :
    ∀ unit ∈ units, IsUnitAt text unit.start unit.stop unit.token := by
  induction h with
  | done => exact fun unit h => absurd h List.not_mem_nil
  | cons _ _ hunit _ _ ih => exact List.forall_mem_cons.mpr ⟨hunit, ih⟩

/-- **Every word of a text belongs to one of its tokens**, and they are in the same order. -/
theorem IsLayout.words_eq {units : List Placed} (h : IsLayout text pos units) :
    words (text.drop pos) =
      units.flatMap fun unit => words (text.extract unit.start unit.stop) := by
  induction h with
  | done hblank => exact words_eq_nil_iff.mpr hblank
  | cons hle hgap hunit _ _ ih => rw [hunit.words_eq hle hgap, ih, List.flatMap_cons]

/-- There are no more tokens than words. -/
theorem IsLayout.length_le {units : List Placed} (h : IsLayout text pos units) :
    units.length ≤ (words (text.drop pos)).length := by
  induction h with
  | done => exact Nat.zero_le _
  | cons hle hgap hunit _ _ ih =>
    have hpos := List.length_pos_iff.mpr hunit.words_ne_nil
    rw [hunit.words_eq hle hgap, List.length_append, List.length_cons]
    omega

/-! ## As many turns as words -/

/-- The tokens from the position on, if the reader comes to an end within so many turns. In each
turn it takes a token, unless it is stuck. -/
def readTokensIn (text : List Char) :
    (turns pos : Nat) → Option (Except StepError (List Token))
  | 0, pos => if pos < text.length then none else some (return [])
  | turns + 1, pos =>
    if pos < text.length then
      match readTokenAt text pos with
      | .error e => some (.error e)
      | .ok (token, next) => (readTokensIn text turns next).map (·.map (token :: ·))
    else some (return [])

/-- What is read is a token, and then the blanks behind it are skipped. -/
theorem exists_isUnitAt_of_readTokenAt {next : Nat} (hpos : pos < text.length)
    (h : readTokenAt text pos = .ok (token, next)) :
    ∃ stop, IsUnitAt text pos stop token ∧ next = afterBlanksAt text stop := by
  obtain ⟨c, s, hs⟩ := exists_drop_eq_cons hpos
  rw [readTokenAt_eq hs, ← hs] at h
  cases hjudge : judge (text.drop pos) with
  | declines =>
    rw [hjudge] at h
    cases h
  | rejects why =>
    rw [hjudge] at h
    cases h
  | takes token' rest =>
    rw [hjudge] at h
    cases h
    exact ⟨_, isUnitAt_of_judge hjudge, rfl⟩

/-- At the end of the text no turn is needed. -/
theorem readTokensIn_of_length_le (h : text.length ≤ pos) (turns : Nat) :
    readTokensIn text turns pos = some (readTokensAt text pos) := by
  rw [readTokensAt, dif_neg (Nat.not_lt.mpr h)]
  cases turns <;> rw [readTokensIn, if_neg (Nat.not_lt.mpr h)]

/-- **As many turns as there are words are enough.** A turn that does not end the reading takes a
word at least. -/
theorem readTokensIn_eq {turns : Nat} (h : (words (text.drop pos)).length ≤ turns) :
    readTokensIn text turns (afterBlanksAt text pos) =
      some (readTokensAt text (afterBlanksAt text pos)) := by
  induction turns generalizing pos with
  | zero =>
    have hnone := List.length_eq_zero_iff.mp (Nat.le_zero.mp h)
    exact readTokensIn_of_length_le (length_le_afterBlanksAt_iff.mpr (words_eq_nil_iff.mp hnone)) 0
  | succ turns ih =>
    by_cases hblank : AllBlank (text.drop pos)
    · exact readTokensIn_of_length_le (length_le_afterBlanksAt_iff.mpr hblank) _
    · have hlt := Nat.lt_of_not_le (mt length_le_afterBlanksAt_iff.mp hblank)
      rw [readTokensIn, if_pos hlt, readTokensAt_of_lt hlt]
      cases hread : readTokenAt text (afterBlanksAt text pos) with
      | error e => rfl
      | ok found =>
        obtain ⟨token, next⟩ := found
        obtain ⟨stop, hunit, rfl⟩ := exists_isUnitAt_of_readTokenAt hlt hread
        have hpos := List.length_pos_iff.mpr hunit.words_ne_nil
        rw [hunit.words_eq (le_afterBlanksAt text pos) (allBlank_extract_afterBlanksAt text pos),
          List.length_append] at h
        dsimp only
        rw [ih (by omega)]
        show some (Except.map _ _) = some (readTokensAt text (afterBlanksAt text stop) >>= _)
        cases readTokensAt text (afterBlanksAt text stop) <;> rfl

/-- The reader comes to an end within as many turns as the line has words. -/
theorem readTokensIn_words (text : List Char) :
    readTokensIn text (words text).length (afterBlanksAt text 0) = some (readTokens text) := by
  have hturns : (words (text.drop 0)).length ≤ (words text).length := by rw [List.drop_zero]
  rw [readTokensIn_eq hturns, readTokens, spanEnd_blank]
  rfl

/-! ## The rules, the turns and the words -/

/-- **The rules decide in front of every word, and tokens consist of whole words.** Wherever a
character that is not blank stands, no rule reads beyond the end of the text, and some rule decides:
one of three rejects the text, or a token is found that is not empty and ends where a word may end.
The reader, whatever the line, needs no more turns than the line has words. If it finds tokens, each
stands on a piece of the line that consists of whole words, these are all words of the line, and so
there are no more tokens than words. -/
theorem tokenize_words (line : String) :
    (∀ pos c, line.toList[pos]? = some c → isBlank c = false →
      (∀ rule : Rule, rule.readAt line.toList pos ≠ .error .pastEnd) ∧
      ∃ rule : Rule, rule.Decides line.toList pos ∧
        ((rule ∈ [.badCommand, .loneSlash, .bareWord] ∧
            ∃ why, rule.readAt line.toList pos = .error (.rejected why)) ∨
          ∃ token stop, rule.readAt line.toList pos = .ok (some (token, stop)) ∧
            pos < stop ∧ stop ≤ line.toList.length ∧ isWordEndAt line.toList stop = true)) ∧
    readTokensIn line.toList (words line.toList).length (afterBlanksAt line.toList 0) =
      some ((tokenize line).mapError .rejected) ∧
    ∀ tokens, tokenize line = .ok tokens →
      tokens.length ≤ (words line.toList).length ∧
      ∃ units, IsLayout line.toList 0 units ∧ units.map (·.token) = tokens ∧
        (∀ unit ∈ units,
          readBy line.toList unit.start Rule.all = .ok (some (unit.token, unit.stop)) ∧
            IsWholeWords line.toList unit.start unit.stop ∧
            words (line.toList.extract unit.start unit.stop) ≠ []) ∧
        words line.toList =
          units.flatMap fun unit => words (line.toList.extract unit.start unit.stop) := by
  refine ⟨?_, ?_, ?_⟩
  · intro pos c hc hblank
    have hs := drop_eq_cons_iff.mpr ⟨hc, rfl⟩
    refine ⟨fun rule => Rule.readAt_ne_pastEnd hs, ?_⟩
    rcases readBy_takes_or_rejects hs hblank with ⟨token, stop, hunit, hread⟩ | ⟨why, hread⟩
    · obtain ⟨rule, hdecides⟩ := Rule.exists_decides_of_readBy (by rw [hread]; simp)
      refine ⟨rule, hdecides, .inr ⟨token, stop, hdecides.found.symm.trans hread, ?_⟩⟩
      exact ⟨hunit.start_lt_stop, (isUnitAt_iff.mp hunit).1, hunit.atWordEnd⟩
    · obtain ⟨rule, hdecides⟩ := Rule.exists_decides_of_readBy (by rw [hread]; simp)
      have herror := hdecides.found.symm.trans hread
      obtain ⟨_, hjudge, -⟩ := Rule.exists_judge_rejects hs herror
      exact ⟨rule, hdecides, .inl ⟨Rule.mem_of_judge_rejects hjudge, why, herror⟩⟩
  · rw [readTokensIn_words, readTokens_eq, tokenize]
  · intro tokens htokens
    have hunits : Units (line.toList.drop 0) tokens := tokensOf_eq_ok_iff.mp htokens
    obtain ⟨units, hlayout, rfl⟩ := units_iff.mp hunits
    have hwords := hlayout.words_eq
    rw [List.drop_zero] at hwords
    refine ⟨?_, units, hlayout, rfl, ?_, hwords⟩
    · rw [List.length_map]
      exact hlayout.length_le
    · intro unit hmem
      have hwhole := hlayout.isWholeWords (.inl rfl) unit hmem
      have hunit := hlayout.isUnitAt unit hmem
      exact ⟨readBy_of_isUnitAt hunit, hwhole, hunit.words_ne_nil⟩

/-- Two tokens on four words, the second with three of them between quotes; and a line that is
rejected for its second word. -/
theorem tokenize_words_quoted :
    words "/to \"a b  c\" ".toList = [['/', 't', 'o'], ['"', 'a'], ['b'], ['c', '"']] ∧
      (∃ units, IsLayout "/to \"a b  c\" ".toList 0 units ∧
        units.map (·.token) = [.command "to", .literal "a b  c"] ∧
        ∀ unit ∈ units, IsWholeWords "/to \"a b  c\" ".toList unit.start unit.stop) ∧
      ∃ rule : Rule, rule.Decides "/to a/b c".toList 4 := by
  obtain ⟨-, -, htokens⟩ := tokenize_words "/to \"a b  c\" "
  obtain ⟨-, units, hlayout, hmap, hunits, -⟩ :=
    htokens [.command "to", .literal "a b  c"] (by decide +kernel)
  refine ⟨by decide, ⟨units, hlayout, hmap, fun unit hmem => (hunits unit hmem).2.1⟩, ?_⟩
  obtain ⟨hrules, -⟩ := tokenize_words "/to a/b c"
  obtain ⟨-, rule, hdecides, -⟩ := hrules 4 'a' (by decide) (by decide)
  exact ⟨rule, hdecides⟩

end CommandBar.Switch
