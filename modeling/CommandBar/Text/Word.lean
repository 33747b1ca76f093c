import CommandBar.Text.Blank

/-!
# Words

A word is a run of characters without a blank. Readers work on the characters that are still to be
read and hand back what they leave, so nothing here counts positions.

- `skipBlanks`, `word`, `afterWord`: the pieces into which the front of a text falls.
- `atWordEnd`: a word may end here.
- `splitWord`: the first word, and the text after it and the blanks that follow it.
- `word_append_afterWord`, `atWordEnd_afterWord`: no character is lost, and no word is cut.
-/

namespace CommandBar

/-- The text without the blanks at its front. -/
def skipBlanks (s : List Char) : List Char :=
  s.dropWhile isBlank

/-- The longest front without a blank. -/
def word (s : List Char) : List Char :=
  s.takeWhile (!isBlank ·)

/-- What follows the longest front without a blank. -/
def afterWord (s : List Char) : List Char :=
  s.dropWhile (!isBlank ·)

/-- A word may end here: nothing is left, or a blank comes next. -/
def atWordEnd : List Char → Bool
  | [] => true
  | c :: _ => isBlank c

/-- The first word, and what follows the blanks after it. Of a text without a word both are empty.
Blanks in front of the word are skipped, and those behind later words stay. -/
def splitWord (s : List Char) : String × List Char :=
  let s := skipBlanks s
  (String.ofList (word s), skipBlanks (afterWord s))

/-! ## What the pieces have in common with the text -/

theorem word_append_afterWord (s : List Char) : word s ++ afterWord s = s :=
  List.takeWhile_append_dropWhile

theorem length_skipBlanks_le (s : List Char) : (skipBlanks s).length ≤ s.length :=
  (List.dropWhile_sublist _).length_le

theorem length_afterWord_le (s : List Char) : (afterWord s).length ≤ s.length :=
  (List.dropWhile_sublist _).length_le

/-- **A word is whole**: where the longest front without a blank ends, a word may end. -/
theorem atWordEnd_afterWord : ∀ s : List Char, atWordEnd (afterWord s) = true
  | [] => rfl
  | c :: s => by
    by_cases hc : isBlank c = true
    · simp [afterWord, atWordEnd, hc]
    · simpa [afterWord, hc] using atWordEnd_afterWord s

theorem skipBlanks_append {gap s : List Char} (h : AllBlank gap) :
    skipBlanks (gap ++ s) = skipBlanks s := by
  induction gap with
  | nil => rfl
  | cons c gap ih =>
    have hc := h c List.mem_cons_self
    have := ih fun d hd => h d (List.mem_cons_of_mem _ hd)
    simpa [skipBlanks, hc] using this

/-- In front of a word there is nothing to be skipped. -/
theorem skipBlanks_cons {c : Char} {s : List Char} (h : isBlank c = false) :
    skipBlanks (c :: s) = c :: s :=
  List.dropWhile_cons_of_neg (by simp [h])

theorem skipBlanks_eq_nil_iff {s : List Char} : skipBlanks s = [] ↔ AllBlank s := by
  induction s with
  | nil => exact ⟨fun _ => nofun, fun _ => rfl⟩
  | cons c s ih =>
    rw [skipBlanks] at ih
    by_cases hc : isBlank c = true
    · simp [skipBlanks, AllBlank, hc, ih]
    · simp [skipBlanks, AllBlank, hc]

/-- The front that is taken holds characters of the kind only. -/
theorem of_mem_takeWhile (p : Char → Bool) (s : List Char) : ∀ c ∈ s.takeWhile p, p c = true :=
  List.all_eq_true.mp List.all_takeWhile

/-- What is left does not go on with a character of the kind. -/
theorem of_dropWhile_eq_cons (p : Char → Bool) (s : List Char) :
    ∀ c r, s.dropWhile p = c :: r → p c = false := by
  intro c r hs
  have hhead := List.head?_dropWhile_not p s
  rw [hs] at hhead
  simpa using hhead

/-- A run of characters of a kind is told from what follows it if that does not go on with one. -/
theorem span_append {p : Char → Bool} {w rest : List Char} (hw : ∀ c ∈ w, p c = true)
    (hrest : ∀ c r, rest = c :: r → p c = false) :
    (w ++ rest).takeWhile p = w ∧ (w ++ rest).dropWhile p = rest := by
  induction w with
  | nil =>
    cases rest with
    | nil => exact ⟨rfl, rfl⟩
    | cons c r => simp [hrest c r rfl]
  | cons c w ih =>
    obtain ⟨htake, hdrop⟩ := ih fun d hd => hw d (List.mem_cons_of_mem _ hd)
    have hc := hw c List.mem_cons_self
    simp [hc, htake, hdrop]

/-- Once the blanks are skipped, no blank comes next. -/
theorem isBlank_of_skipBlanks_eq_cons {s r : List Char} {c : Char} (h : skipBlanks s = c :: r) :
    isBlank c = false :=
  of_dropWhile_eq_cons _ s c r h

/-- The blanks in front of a text are the front that is skipped. -/
theorem exists_gap (s : List Char) : ∃ gap, AllBlank gap ∧ s = gap ++ skipBlanks s :=
  ⟨s.takeWhile isBlank, of_mem_takeWhile _ s, List.takeWhile_append_dropWhile.symm⟩

/-- A word in front of a place where a word may end is read as that word. -/
theorem word_append {w rest : List Char} (hw : ∀ c ∈ w, isBlank c = false)
    (hrest : atWordEnd rest = true) :
    word (w ++ rest) = w ∧ afterWord (w ++ rest) = rest := by
  refine span_append (fun c hc => by simp [hw c hc]) ?_
  rintro c r rfl
  simpa [atWordEnd] using hrest

theorem isBlank_of_mem_word {s : List Char} {c : Char} (h : c ∈ word s) : isBlank c = false := by
  simpa using of_mem_takeWhile _ s c h

end CommandBar
