import CommandBar.Quoted.Run

/-!
# The grammar of quoted runs

What a quoted run is, said without a reader. The grammar is ambiguous wherever a backslash stands
before a closing quote; the reader resolves this by taking the longest run that is welcome.

- `Encloses`: what may stand between quotes, and what it stands for.
- `IsRun`: a text starts with a quoted run.
- `IsLongestRun`: the run is the longest of those that are welcome.
- `mem_closes_iff`: `closes` finds exactly the runs of the grammar.
- `pairwise_closes`: it lists them longest first.
- `run?_eq_some_iff`, `run?_eq_none_iff`: the reader takes the longest welcome run, and takes none
  only if none is welcome.
-/

namespace CommandBar.Quoted

/-- The text `s`, which comes after an opening quote, encloses `content` up to a closing quote, and
`rest` follows. A backslash and a quote enclose the quote; a character that is neither a quote nor a
control character encloses itself. A backslash is such a character, so one before a quote can be
read in both ways. -/
inductive Encloses : (s content rest : List Char) → Prop
  | closed {c : Char} {rest : List Char} : isCloser c = true → Encloses (c :: rest) [] rest
  | escaped {q : Char} {s content rest : List Char} :
      isGlyph q = true → Encloses s content rest → Encloses ('\\' :: q :: s) (q :: content) rest
  | plain {c : Char} {s content rest : List Char} :
      isGlyph c = false → isControl c = false → Encloses s content rest →
        Encloses (c :: s) (c :: content) rest

/-- The text `s` starts with a quoted run that encloses `content`, and `rest` follows. -/
def IsRun (s content rest : List Char) : Prop :=
  ∃ opener s', s = opener :: s' ∧ isOpener opener = true ∧ Encloses s' content rest

/-- Of the runs that start `s` and leave something `welcome`, this one leaves the least. -/
def IsLongestRun (welcome : List Char → Bool) (s content rest : List Char) : Prop :=
  IsRun s content rest ∧ welcome rest = true ∧
    ∀ content' rest', IsRun s content' rest' → welcome rest' = true → rest.length ≤ rest'.length

/-! ## How a run goes on -/

theorem isControl_backslash : isControl '\\' = false := by decide

theorem isGlyph_backslash : isGlyph '\\' = false := by decide

theorem isCloser_eq_false {c : Char} (h : isGlyph c = false) : isCloser c = false := by
  cases hc : isCloser c
  · rfl
  · rw [isGlyph_of_isCloser hc] at h
    cases h

/-- What is enclosed after an ordinary character starts with that character. -/
theorem encloses_cons_iff {c : Char} {s content rest : List Char} (hglyph : isGlyph c = false)
    (hnext : c = '\\' → ∀ q s', s = q :: s' → isGlyph q = false) :
    Encloses (c :: s) content rest ↔
      isControl c = false ∧ ∃ content', content = c :: content' ∧ Encloses s content' rest := by
  constructor
  · intro h
    cases h with
    | closed hc =>
      rw [isCloser_eq_false hglyph] at hc
      cases hc
    | escaped hq _ =>
      rw [hnext rfl _ _ rfl] at hq
      cases hq
    | plain _ hcontrol h => exact ⟨hcontrol, _, rfl, h⟩
  · rintro ⟨hcontrol, content', rfl, h⟩
    exact .plain hglyph hcontrol h

/-- After a backslash and a quote, the quote is enclosed, or else the backslash is and the quote
closes the run. -/
theorem encloses_escaped_iff {q : Char} {s content rest : List Char} (hq : isGlyph q = true) :
    Encloses ('\\' :: q :: s) content rest ↔
      (isCloser q = true ∧ content = ['\\'] ∧ rest = s) ∨
        ∃ content', content = q :: content' ∧ Encloses s content' rest := by
  constructor
  · intro h
    cases h with
    | closed hc =>
      rw [isCloser_eq_false isGlyph_backslash] at hc
      cases hc
    | escaped _ h => exact .inr ⟨_, rfl, h⟩
    | plain _ _ h =>
      -- the quote is a quote, so it can only close the run
      cases h with
      | closed hc => exact .inl ⟨hc, rfl, rfl⟩
      | escaped =>
        rw [isGlyph_backslash] at hq
        cases hq
      | plain hglyph =>
        rw [hglyph] at hq
        cases hq
  · rintro (⟨hc, rfl, rfl⟩ | ⟨content', rfl, h⟩)
    · exact .plain isGlyph_backslash isControl_backslash (.closed hc)
    · exact .escaped hq h

/-- A closing quote encloses nothing. -/
theorem encloses_closer_iff {c : Char} {s content rest : List Char} (hc : isCloser c = true) :
    Encloses (c :: s) content rest ↔ content = [] ∧ rest = s := by
  constructor
  · intro h
    cases h with
    | closed => exact ⟨rfl, rfl⟩
    | escaped =>
      rw [isCloser_eq_false isGlyph_backslash] at hc
      cases hc
    | plain hglyph =>
      rw [isCloser_eq_false hglyph] at hc
      cases hc
  · rintro ⟨rfl, rfl⟩
    exact .closed hc

/-! ## Control characters and runs -/

theorem isControl_of_isGlyph {c : Char} (h : isGlyph c = true) : isControl c = false := by
  have hall : glyphs.all (!isControl ·) = true := by decide +kernel
  simpa using List.all_eq_true.mp hall c (by simpa [isGlyph] using h)

/-- What is enclosed holds no control character. -/
theorem Encloses.isControl_of_mem {s content rest : List Char} (h : Encloses s content rest) :
    ∀ c ∈ content, isControl c = false := by
  induction h with
  | closed => exact fun c hc => absurd hc List.not_mem_nil
  | escaped hq _ ih => exact List.forall_mem_cons.mpr ⟨isControl_of_isGlyph hq, ih⟩
  | plain _ hcontrol _ ih => exact List.forall_mem_cons.mpr ⟨hcontrol, ih⟩

/-- A control character can stand behind a run only. -/
theorem Encloses.mem_rest {s content rest : List Char} (h : Encloses s content rest) {c : Char}
    (hcontrol : isControl c = true) (hc : c ∈ s) : c ∈ rest := by
  have hne : ∀ d, isControl d = false → c ≠ d := by
    rintro d hd rfl
    rw [hd] at hcontrol
    cases hcontrol
  induction h with
  | @closed closer rest hcloser =>
    refine List.mem_of_ne_of_mem (hne closer ?_) hc
    exact isControl_of_isGlyph (isGlyph_of_isCloser hcloser)
  | escaped hq _ ih =>
    have hc := List.mem_of_ne_of_mem (hne _ isControl_backslash) hc
    exact ih (List.mem_of_ne_of_mem (hne _ (isControl_of_isGlyph hq)) hc)
  | plain _ hd _ ih => exact ih (List.mem_of_ne_of_mem (hne _ hd) hc)

theorem IsRun.isControl_of_mem {s content rest : List Char} (h : IsRun s content rest) :
    ∀ c ∈ content, isControl c = false := by
  obtain ⟨_, _, _, _, h⟩ := h
  exact h.isControl_of_mem

theorem IsRun.mem_rest {s content rest : List Char} (h : IsRun s content rest) {c : Char}
    (hcontrol : isControl c = true) (hc : c ∈ s) : c ∈ rest := by
  obtain ⟨opener, s', rfl, hopens, h⟩ := h
  refine h.mem_rest hcontrol (List.mem_of_ne_of_mem ?_ hc)
  rintro rfl
  rw [isControl_of_isGlyph (isGlyph_of_isOpener hopens)] at hcontrol
  cases hcontrol

/-! ## What scanning finds -/

/-- **What scanning finds**: the ways to close the run that were passed before, and exactly those
that the grammar has for what is left to scan. -/
theorem mem_scan_iff {shorter : List Close} {enclosed s : List Char} {close : Close} :
    close ∈ scan shorter enclosed s ↔
      close ∈ shorter ∨
        ∃ content,
          Encloses s content close.rest ∧ close.enclosed = content.reverse ++ enclosed := by
  fun_induction scan shorter enclosed s with
  | case1 =>
    refine ⟨.inl, ?_⟩
    rintro (h | ⟨_, h, _⟩)
    · exact h
    · cases h
  | case2 shorter enclosed q s hq ih =>
    -- a backslash before a quote: what the run encloses may end or go on here
    rw [ih]
    simp only [encloses_escaped_iff hq]
    constructor
    · rintro (h | ⟨content, h, henc⟩)
      · split at h
        · next hc =>
          rcases List.mem_cons.mp h with rfl | h
          · exact .inr ⟨_, .inl ⟨hc, rfl, rfl⟩, rfl⟩
          · exact .inl h
        · exact .inl h
      · exact .inr ⟨_, .inr ⟨content, rfl, h⟩, by simp [henc]⟩
    · rintro (h | ⟨_, ⟨hc, rfl, hrest⟩ | ⟨content, rfl, h⟩, henc⟩)
      · refine .inl ?_
        split
        · exact List.mem_cons_of_mem _ h
        · exact h
      · refine .inl ?_
        rw [if_pos hc]
        exact List.mem_cons.mpr (.inl (by cases close; simp_all))
      · exact .inr ⟨content, h, by simp [henc]⟩
  | case3 shorter enclosed q s hq ih =>
    -- a backslash before anything else is like any other character
    have hq : isGlyph q = false := by simpa using hq
    have hnext : ∀ q' s', q :: s = q' :: s' → isGlyph q' = false := by
      rintro _ _ ⟨⟩
      exact hq
    rw [ih]
    simp only [encloses_cons_iff isGlyph_backslash fun _ => hnext]
    refine or_congr Iff.rfl ⟨?_, ?_⟩
    · rintro ⟨content, h, henc⟩
      exact ⟨_, ⟨isControl_backslash, content, rfl, h⟩, by simp [henc]⟩
    · rintro ⟨_, ⟨-, content, rfl, h⟩, henc⟩
      exact ⟨content, h, by simp [henc]⟩
  | case4 shorter enclosed c s _ hc =>
    -- a closing quote without a backslash ends every run that has come so far
    simp only [encloses_closer_iff hc]
    constructor
    · intro h
      rcases List.mem_cons.mp h with rfl | h
      · exact .inr ⟨[], ⟨rfl, rfl⟩, rfl⟩
      · exact .inl h
    · rintro (h | ⟨_, ⟨rfl, hrest⟩, henc⟩)
      · exact List.mem_cons_of_mem _ h
      · exact List.mem_cons.mpr (.inl (by cases close; simp_all))
  | case5 shorter enclosed c s hnext hc hstop =>
    -- an opening quote or a control character cannot be enclosed
    refine ⟨.inl, ?_⟩
    rintro (h | ⟨_, h, _⟩)
    · exact h
    · cases h with
      | closed hcloser => exact absurd hcloser hc
      | escaped => exact (hnext _ _ rfl rfl).elim
      | plain hglyph hcontrol => simp [hglyph, hcontrol] at hstop
  | case6 shorter enclosed c s hnext hc hstop ih =>
    have hstop : isGlyph c = false ∧ isControl c = false := by simpa using hstop
    have hnext : c = '\\' → ∀ q s', s = q :: s' → isGlyph q = false :=
      fun hc q s' hs => (hnext q s' hc hs).elim
    rw [ih]
    simp only [encloses_cons_iff hstop.1 hnext]
    refine or_congr Iff.rfl ⟨?_, ?_⟩
    · rintro ⟨content, h, henc⟩
      exact ⟨_, ⟨hstop.2, content, rfl, h⟩, by simp [henc]⟩
    · rintro ⟨_, ⟨-, content, rfl, h⟩, henc⟩
      exact ⟨content, h, by simp [henc]⟩

/-- **The reader finds exactly the runs of the grammar.** -/
theorem mem_closes_iff {s : List Char} {close : Close} :
    close ∈ closes s ↔ IsRun s close.enclosed.reverse close.rest := by
  cases s with
  | nil =>
    refine ⟨nofun, ?_⟩
    rintro ⟨_, _, h, _⟩
    cases h
  | cons c s =>
    constructor
    · intro h
      rw [closes] at h
      split at h
      · next hc =>
        rcases mem_scan_iff.mp h with h | ⟨content, h, henc⟩
        · cases h
        · exact ⟨c, s, rfl, hc, by simpa [henc] using h⟩
      · cases h
    · rintro ⟨_, _, hs, hc, h⟩
      cases hs
      rw [closes, if_pos hc]
      exact mem_scan_iff.mpr (.inr ⟨_, h, by simp⟩)

/-! ## The longest run -/

/-- If the ways that were passed are listed longest first and all leave more than there is left to
scan, then scanning lists all ways longest first. -/
theorem pairwise_scan {shorter : List Close} {enclosed s : List Char}
    (hpast : ∀ close ∈ shorter, s.length ≤ close.rest.length)
    (hsorted : shorter.Pairwise fun a b => a.rest.length < b.rest.length) :
    (scan shorter enclosed s).Pairwise fun a b => a.rest.length < b.rest.length := by
  fun_induction scan shorter enclosed s with
  | case1 => exact hsorted
  | case2 shorter enclosed q s hq ih =>
    have hlt : ∀ close ∈ shorter, s.length < close.rest.length := by
      intro close h
      have := hpast close h
      simp only [List.length_cons] at this
      omega
    refine ih ?_ ?_
    · intro close h
      split at h
      · rcases List.mem_cons.mp h with rfl | h
        · exact Nat.le_refl _
        · exact Nat.le_of_lt (hlt close h)
      · exact Nat.le_of_lt (hlt close h)
    · split
      · exact List.pairwise_cons.mpr ⟨hlt, hsorted⟩
      · exact hsorted
  | case3 shorter enclosed q s hq ih =>
    refine ih (fun close h => ?_) hsorted
    have := hpast close h
    simp only [List.length_cons] at this ⊢
    omega
  | case4 shorter enclosed c s _ hc =>
    refine List.pairwise_cons.mpr ⟨fun close h => ?_, hsorted⟩
    show s.length < close.rest.length
    have := hpast close h
    simp only [List.length_cons] at this
    omega
  | case5 => exact hsorted
  | case6 shorter enclosed c s _ hc hstop ih =>
    refine ih (fun close h => ?_) hsorted
    have := hpast close h
    simp only [List.length_cons] at this
    omega

/-- **The runs are listed longest first**, so no two of them end at the same place. -/
theorem pairwise_closes (s : List Char) :
    (closes s).Pairwise fun a b => a.rest.length < b.rest.length := by
  cases s with
  | nil => exact .nil
  | cons c s =>
    rw [closes]
    split
    · exact pairwise_scan (fun _ h => absurd h List.not_mem_nil) .nil
    · exact .nil

/-- Where a run ends decides which run it is. -/
theorem eq_of_length_rest_eq {s : List Char} {a b : Close} (ha : a ∈ closes s) (hb : b ∈ closes s)
    (h : a.rest.length = b.rest.length) : a = b := by
  have hsorted := pairwise_closes s
  generalize closes s = closes at ha hb hsorted
  induction hsorted with
  | nil => cases ha
  | @cons x xs hx _ ih =>
    rcases List.mem_cons.mp ha with rfl | ha' <;> rcases List.mem_cons.mp hb with rfl | hb'
    · rfl
    · have := hx b hb'
      omega
    · have := hx a ha'
      omega
    · exact ih ha' hb'

/-- Two runs that end at the same place enclose the same. -/
theorem IsRun.content_unique {s content content' rest : List Char} (h : IsRun s content rest)
    (h' : IsRun s content' rest) : content = content' := by
  have hmem : (⟨content.reverse, rest⟩ : Close) ∈ closes s :=
    mem_closes_iff.mpr (by simpa using h)
  have hmem' : (⟨content'.reverse, rest⟩ : Close) ∈ closes s :=
    mem_closes_iff.mpr (by simpa using h')
  have := eq_of_length_rest_eq hmem hmem' rfl
  simpa using this

/-- **The reader takes no run only if none is welcome.** -/
theorem run?_eq_none_iff {welcome : List Char → Bool} {s : List Char} :
    run? welcome s = none ↔ ∀ content rest, IsRun s content rest → welcome rest = false := by
  rw [run?, List.find?_eq_none]
  constructor
  · intro h content rest hrun
    have hmem : (⟨content.reverse, rest⟩ : Close) ∈ closes s :=
      mem_closes_iff.mpr (by simpa using hrun)
    simpa using h _ hmem
  · intro h close hmem
    simp [h _ _ (mem_closes_iff.mp hmem)]

theorem isLongestRun_of_run? {welcome : List Char → Bool} {s : List Char} {close : Close}
    (h : run? welcome s = some close) :
    IsLongestRun welcome s close.enclosed.reverse close.rest := by
  obtain ⟨hwelcome, before, after, heq, hbefore⟩ := List.find?_eq_some_iff_append.mp h
  have hsorted := pairwise_closes s
  rw [heq] at hsorted
  refine ⟨mem_closes_iff.mp (List.mem_of_find?_eq_some h), hwelcome, ?_⟩
  intro content rest hrun hrest
  have hmem : (⟨content.reverse, rest⟩ : Close) ∈ closes s :=
    mem_closes_iff.mpr (by simpa using hrun)
  rw [heq] at hmem
  -- a longer run would have been tried before, and was not welcome
  rcases List.mem_append.mp hmem with hmem | hmem
  · have := hbefore _ hmem
    simp [hrest] at this
  · rcases List.mem_cons.mp hmem with heq' | hmem
    · exact Nat.le_of_eq (by rw [← heq'])
    · exact Nat.le_of_lt ((List.pairwise_cons.mp (List.pairwise_append.mp hsorted).2.1).1 _ hmem)

/-- **The reader takes the longest welcome run.** -/
theorem run?_eq_some_iff {welcome : List Char → Bool} {s : List Char} {close : Close} :
    run? welcome s = some close ↔ IsLongestRun welcome s close.enclosed.reverse close.rest := by
  refine ⟨isLongestRun_of_run?, ?_⟩
  rintro ⟨hrun, hwelcome, hlongest⟩
  cases hfound : run? welcome s with
  | none =>
    rw [run?_eq_none_iff.mp hfound _ _ hrun] at hwelcome
    cases hwelcome
  | some found =>
    obtain ⟨hrun', hwelcome', hlongest'⟩ := isLongestRun_of_run? hfound
    have hle := hlongest _ _ hrun' hwelcome'
    have hge := hlongest' _ _ hrun hwelcome
    rw [eq_of_length_rest_eq (mem_closes_iff.mpr hrun') (mem_closes_iff.mpr hrun) (by omega)]

end CommandBar.Quoted
