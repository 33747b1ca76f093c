import CommandBar.Text.Word

/-!
# Words and blanks

Where a later text starts with a blank, the words in front of it are read as if it were not there.

- `span_append_of_stop`: a run of characters of a kind does not go on into a text that does not.
- `word_append_of_atWordEnd`, `atWordEnd_append`: the first word, and where words may end.
- `word_cons`, `word_eq_nil_iff`: where a word starts.
- `length_afterWord_lt`: taking words comes to an end.
- `skipBlanks_skipBlanks`, `skipBlanks_append_of_not_allBlank`: the blanks in front of a word.
- `words`: all words of a text.
- `words_append_of_allBlank`, `words_append_of_atWordEnd`: blanks add no word, and where a word may
  end the words before and behind are those of the whole.
-/

namespace CommandBar

variable {s gap later : List Char} {c : Char}

/-- A run of characters of a kind ends in front of a later text that does not go on with one. -/
theorem span_append_of_stop {p : Char → Bool} (h : ∀ c r, later = c :: r → p c = false) :
    (s ++ later).takeWhile p = s.takeWhile p ∧
      (s ++ later).dropWhile p = s.dropWhile p ++ later := by
  have hstop : ∀ c r, s.dropWhile p ++ later = c :: r → p c = false := by
    intro c r hs
    cases hrest : s.dropWhile p with
    | nil =>
      rw [hrest] at hs
      exact h c r hs
    | cons d rest =>
      rw [hrest] at hs
      obtain ⟨rfl, -⟩ := List.cons.inj hs
      exact of_dropWhile_eq_cons p s d rest hrest
  have hspan := span_append (of_mem_takeWhile p s) hstop
  rwa [← List.append_assoc, List.takeWhile_append_dropWhile] at hspan

theorem isBlank_of_atWordEnd (h : atWordEnd later = true) :
    ∀ c r, later = c :: r → isBlank c = true := by
  rintro c r rfl
  exact h

/-- The first word is the same in front of a place where a word may end. -/
theorem word_append_of_atWordEnd (h : atWordEnd later = true) :
    word (s ++ later) = word s ∧ afterWord (s ++ later) = afterWord s ++ later :=
  span_append_of_stop fun c r hc => by simp [isBlank_of_atWordEnd h c r hc]

/-- A word may end in front of the same places, and in front of the later text. -/
theorem atWordEnd_append (h : atWordEnd later = true) : atWordEnd (s ++ later) = atWordEnd s := by
  cases s with
  | nil => exact h
  | cons c s => rfl

theorem word_cons {c : Char} (h : isBlank c = false) : word (c :: s) = c :: word s :=
  List.takeWhile_cons_of_pos (by simp [h])

/-- Where a word may end, none starts. -/
theorem word_eq_nil_iff : word s = [] ↔ atWordEnd s = true := by
  cases s with
  | nil => exact ⟨fun _ => rfl, fun _ => rfl⟩
  | cons c s =>
    show _ ↔ isBlank c = true
    cases hblank : isBlank c with
    | true => simp [word, hblank]
    | false => simp [word_cons hblank]

/-- A word is not empty, so behind it there is less left than in front of it. -/
theorem length_afterWord_lt {c : Char} (h : isBlank c = false) :
    (afterWord (c :: s)).length < (c :: s).length := by
  have hafter : afterWord (c :: s) = afterWord s := List.dropWhile_cons_of_pos (by simp [h])
  rw [hafter]
  exact Nat.lt_succ_of_le (length_afterWord_le s)

/-- Once the blanks are skipped, there are none to be skipped. -/
theorem skipBlanks_skipBlanks (s : List Char) : skipBlanks (skipBlanks s) = skipBlanks s := by
  cases h : skipBlanks s with
  | nil => rfl
  | cons c rest => exact skipBlanks_cons (isBlank_of_skipBlanks_eq_cons h)

/-- Once a word has come, the later text is not reached by skipping blanks. -/
theorem skipBlanks_append_of_not_allBlank (h : ¬ AllBlank s) :
    skipBlanks (s ++ later) = skipBlanks s ++ later := by
  obtain ⟨gap, hgap, hs⟩ := exists_gap s
  cases hrest : skipBlanks s with
  | nil => exact absurd (skipBlanks_eq_nil_iff.mp hrest) h
  | cons c rest =>
    rw [hs, hrest, List.append_assoc, skipBlanks_append hgap, List.cons_append,
      skipBlanks_cons (isBlank_of_skipBlanks_eq_cons hrest)]

/-! ## All words of a text -/

/-- The words of a text: what the blanks leave between them. -/
def words (s : List Char) : List (List Char) :=
  (s.splitOnP isBlank).filter (!·.isEmpty)

/-- **Words split at a blank.** The other equations for the words of a text come from this one. -/
theorem words_append_cons (h : isBlank c = true) (s later : List Char) :
    words (s ++ c :: later) = words s ++ words later := by
  rw [words, List.splitOnP_append_cons s later h, List.filter_append]
  rfl

theorem words_cons_of_isBlank (h : isBlank c = true) : words (c :: s) = words s :=
  words_append_cons h [] s

theorem words_append_of_allBlank (h : AllBlank gap) : words (gap ++ s) = words s := by
  induction gap with
  | nil => rfl
  | cons c gap ih =>
    have hrest := ih fun d hd => h d (List.mem_cons_of_mem _ hd)
    rw [List.cons_append, words_cons_of_isBlank (h c List.mem_cons_self), hrest]

/-- Where a word may end, the words of the text are those before and those behind. -/
theorem words_append_of_atWordEnd (h : atWordEnd later = true) :
    words (s ++ later) = words s ++ words later := by
  cases later with
  | nil =>
    show _ = words s ++ []
    rw [List.append_nil, List.append_nil]
  | cons c later => rw [words_append_cons h, words_cons_of_isBlank h]

theorem words_eq_singleton (hne : s ≠ []) (h : ∀ c ∈ s, isBlank c = false) : words s = [s] := by
  rw [words, List.splitOnP_eq_singleton h]
  exact List.filter_cons_of_pos (by simpa using hne)

/-- A text that starts with no blank has a word. -/
theorem words_ne_nil (h : isBlank c = false) : words (c :: s) ≠ [] := by
  have hword : words (word (c :: s)) = [word (c :: s)] := by
    refine words_eq_singleton ?_ fun d hd => isBlank_of_mem_word hd
    rw [word_cons h]
    exact List.cons_ne_nil _ _
  rw [← word_append_afterWord (c :: s), words_append_of_atWordEnd (atWordEnd_afterWord _), hword]
  exact List.cons_ne_nil _ _

theorem words_eq_nil_iff : words s = [] ↔ AllBlank s := by
  obtain ⟨gap, hgap, hs⟩ := exists_gap s
  rw [← skipBlanks_eq_nil_iff, hs, words_append_of_allBlank hgap, skipBlanks_append hgap,
    skipBlanks_skipBlanks]
  cases hrest : skipBlanks s with
  | nil => exact iff_of_true rfl rfl
  | cons c rest =>
    have hblank := isBlank_of_skipBlanks_eq_cons hrest
    exact iff_of_false (words_ne_nil hblank) (List.cons_ne_nil c rest)

end CommandBar
