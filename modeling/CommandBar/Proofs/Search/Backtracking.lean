import CommandBar.Proofs.Quoted.Longest
import CommandBar.Search.Grammar

/-!
# Values read by going back

What values a reader would find that could go back on its choices. Where a quoted value may end in
several places, such a reader tries the longest run first, and gives it up for a shorter one if what
follows cannot be read to the end.

- `Completes`: what is left can be read to the end in some way.
- `PrefersRun`, `PrefersValues`: the choices of a reader that goes back.
- `exists_prefersRun`, `exists_prefersValues`: wherever there is something to be found, such a
  reader finds something.
- `PrefersRun.unique`, `PrefersValues.unique`: it finds one thing only.
-/

namespace CommandBar.Search

/-- What is left can be read to the end: by values, perhaps none, up to where a word may end. -/
def Completes (s : List Char) : Prop :=
  ∃ values rest, DerivesValues s values rest ∧ atWordEnd rest = true

/-- Of the runs that start `s` and leave something that can be read to the end, this one leaves the
least. -/
def PrefersRun (s content rest : List Char) : Prop :=
  Quoted.IsRun s content rest ∧ Completes rest ∧
    ∀ content' rest', Quoted.IsRun s content' rest' → Completes rest' → rest.length ≤ rest'.length

/-- Of the ways to read `s` as values up to where a word may end, this is the one whose quoted
values are, from the first on, as long as they can be. -/
inductive PrefersValues : (s : List Char) → (values : List String) → (rest : List Char) → Prop
  | done {rest : List Char} : atWordEnd rest = true → PrefersValues rest [] rest
  | quoted {s s' content rest : List Char} {values : List String} :
      PrefersRun s content s' → PrefersValues s' values rest →
        PrefersValues (':' :: s) (String.ofList content :: values) rest
  | bare {w s rest : List Char} {values : List String} :
      w ≠ [] → (∀ c ∈ w, isBareValueChar c = true) → PrefersValues s values rest →
        PrefersValues (':' :: (w ++ s)) (String.ofList w :: values) rest

/-! ## What a value can be followed by -/

theorem completes_of_atWordEnd {s : List Char} (h : atWordEnd s = true) : Completes s :=
  ⟨[], s, .done, h⟩

theorem Completes.cons {s rest : List Char} {value : String} (hvalue : DerivesValue s value rest)
    (h : Completes rest) : Completes (':' :: s) := by
  obtain ⟨values, rest', hvalues, hend⟩ := h
  exact ⟨value :: values, rest', .cons hvalue hvalues, hend⟩

/-- What can be read to the end goes on with a value, or else it is at an end already. -/
theorem Completes.cases {s : List Char} (h : Completes s) :
    atWordEnd s = true ∨
      ∃ s' value rest, s = ':' :: s' ∧ DerivesValue s' value rest ∧ Completes rest := by
  obtain ⟨values, rest, hvalues, hend⟩ := h
  cases hvalues with
  | done => exact .inl hend
  | cons hvalue hvalues => exact .inr ⟨_, _, _, rfl, hvalue, _, _, hvalues, hend⟩

/-- A value may end wherever the rest can be read to the end. -/
theorem Completes.atValueEnd {s : List Char} (h : Completes s) : atValueEnd s = true := by
  rcases h.cases with hend | ⟨s', value, rest, rfl, -, -⟩
  · unfold Search.atValueEnd
    split
    · rfl
    · exact hend
  · rfl

theorem isBareValueChar_colon : isBareValueChar ':' = false := by decide

/-- Where a value may end, a bare value does not go on. -/
theorem isBareValueChar_of_atValueEnd {c : Char} {s : List Char}
    (h : atValueEnd (c :: s) = true) : isBareValueChar c = false := by
  by_cases hc : c = ':'
  · subst hc
    exact isBareValueChar_colon
  · have hblank : isBlank c = true := by
      unfold atValueEnd at h
      split at h
      · next heq => exact absurd (List.cons.inj heq).1 hc
      · exact h
    simp [isBareValueChar, hblank]

/-- Where a bare value can be read, no run starts. -/
theorem not_isRun_of_bare {w s content rest : List Char} (hne : w ≠ [])
    (hw : ∀ c ∈ w, isBareValueChar c = true) : ¬ Quoted.IsRun (w ++ s) content rest := by
  rintro ⟨opener, s', hs, hopens, -⟩
  cases w with
  | nil => exact hne rfl
  | cons c w =>
    obtain ⟨rfl, -⟩ := List.cons.inj hs
    have hc := hw c List.mem_cons_self
    simp [isBareValueChar, Quoted.isGlyph_of_isOpener hopens] at hc

/-- A bare value that is followed by what may follow one ends in one place only. -/
theorem bare_unique {w w' s s' : List Char} (h : w ++ s = w' ++ s')
    (hw : ∀ c ∈ w, isBareValueChar c = true) (hw' : ∀ c ∈ w', isBareValueChar c = true)
    (hs : atValueEnd s = true) (hs' : atValueEnd s' = true) : w = w' ∧ s = s' := by
  have hstops : ∀ {r : List Char}, atValueEnd r = true →
      ∀ c r', r = c :: r' → isBareValueChar c = false := by
    rintro _ hr c r' rfl
    exact isBareValueChar_of_atValueEnd hr
  obtain ⟨htake, hdrop⟩ := span_append hw (hstops hs)
  obtain ⟨htake', hdrop'⟩ := span_append hw' (hstops hs')
  rw [← h] at htake' hdrop'
  exact ⟨htake.symm.trans htake', hdrop.symm.trans hdrop'⟩

/-! ## The preferred values -/

theorem PrefersRun.unique {s content content' rest rest' : List Char}
    (h : PrefersRun s content rest) (h' : PrefersRun s content' rest') :
    content = content' ∧ rest = rest' := by
  obtain ⟨hrun, hcompletes, hlongest⟩ := h
  obtain ⟨hrun', hcompletes', hlongest'⟩ := h'
  have hle := hlongest _ _ hrun' hcompletes'
  have hge := hlongest' _ _ hrun hcompletes
  have hrest : rest = rest' := by
    rw [List.suffix_iff_eq_drop.mp hrun.suffix, List.suffix_iff_eq_drop.mp hrun'.suffix,
      Nat.le_antisymm hle hge]
  subst hrest
  exact ⟨hrun.content_unique hrun', rfl⟩

/-- **Among the runs that leave something that can be read to the end there is a longest.** -/
theorem exists_prefersRun {s content rest : List Char} (hrun : Quoted.IsRun s content rest)
    (h : Completes rest) : ∃ content' rest', PrefersRun s content' rest' := by
  classical
  -- it is the run that the reader of runs would take, could it tell what completes
  cases hfound : Quoted.run? (fun rest => decide (Completes rest)) s with
  | none =>
    have hnone := Quoted.run?_eq_none_iff.mp hfound content rest hrun
    exact absurd h (of_decide_eq_false hnone)
  | some close =>
    obtain ⟨hrun', hcompletes, hlongest⟩ := Quoted.run?_eq_some_iff.mp hfound
    refine ⟨_, _, hrun', of_decide_eq_true hcompletes, ?_⟩
    intro content'' rest'' hrun'' hcompletes''
    exact hlongest content'' rest'' hrun'' (decide_eq_true hcompletes'')

theorem PrefersValues.derives {s rest : List Char} {values : List String}
    (h : PrefersValues s values rest) : DerivesValues s values rest ∧ atWordEnd rest = true := by
  induction h with
  | done hend => exact ⟨.done, hend⟩
  | quoted hrun _ ih => exact ⟨.cons (.quoted hrun.1) ih.1, ih.2⟩
  | bare hne hw _ ih => exact ⟨.cons (.bare hne hw) ih.1, ih.2⟩

theorem PrefersValues.completes {s rest : List Char} {values : List String}
    (h : PrefersValues s values rest) : Completes s :=
  ⟨values, rest, h.derives⟩

theorem DerivesValue.suffix {s rest : List Char} {value : String} (h : DerivesValue s value rest) :
    rest <:+ s := by
  cases h with
  | quoted hrun => exact hrun.suffix
  | bare => exact List.suffix_append _ _

/-- **Where there are values to be found, there are preferred ones.** -/
theorem exists_prefersValues {s : List Char} (h : Completes s) :
    ∃ values rest, PrefersValues s values rest := by
  -- the preferred run need not be the one of the values given, so the induction is on the length
  induction hlength : s.length using Nat.strongRecOn generalizing s with
  | ind length ih =>
    rcases h.cases with hend | ⟨s', value, rest, rfl, hvalue, hcompletes⟩
    · exact ⟨[], s, .done hend⟩
    · cases hvalue with
      | quoted hrun =>
        obtain ⟨content, rest', hrun'⟩ := exists_prefersRun hrun hcompletes
        have hlt : rest'.length < length := by
          have hle := hrun'.1.suffix.length_le
          rw [List.length_cons] at hlength
          omega
        obtain ⟨values, rest'', hvalues⟩ := ih _ hlt hrun'.2.1 rfl
        exact ⟨_, _, .quoted hrun' hvalues⟩
      | @bare w _ hne hw =>
        have hlt : rest.length < length := by
          rw [List.length_cons, List.length_append] at hlength
          omega
        obtain ⟨values, rest', hvalues⟩ := ih _ hlt hcompletes rfl
        exact ⟨_, _, .bare hne hw hvalues⟩

theorem atWordEnd_colon (s : List Char) : atWordEnd (':' :: s) = false := by
  show isBlank ':' = false
  decide

/-- **The preferred values of a text are unique.** -/
theorem PrefersValues.unique {s rest rest' : List Char} {values values' : List String}
    (h : PrefersValues s values rest) (h' : PrefersValues s values' rest') :
    values = values' ∧ rest = rest' := by
  induction h generalizing values' with
  | done hend =>
    cases h' with
    | done => exact ⟨rfl, rfl⟩
    | quoted =>
      rw [atWordEnd_colon] at hend
      cases hend
    | bare =>
      rw [atWordEnd_colon] at hend
      cases hend
  | quoted hrun _ ih =>
    cases h' with
    | done hend =>
      rw [atWordEnd_colon] at hend
      cases hend
    | quoted hrun' hvalues' =>
      obtain ⟨rfl, rfl⟩ := hrun.unique hrun'
      obtain ⟨rfl, rfl⟩ := ih hvalues'
      exact ⟨rfl, rfl⟩
    | bare hne hw => exact absurd hrun.1 (not_isRun_of_bare hne hw)
  | @bare w s rest values hne hw hvalues ih =>
    generalize hs : ':' :: (w ++ s) = t at h'
    cases h' with
    | done hend =>
      rw [← hs, atWordEnd_colon] at hend
      cases hend
    | quoted hrun' =>
      rw [← (List.cons.inj hs).2] at hrun'
      exact absurd hrun'.1 (not_isRun_of_bare hne hw)
    | bare _ hw' hvalues' =>
      obtain ⟨rfl, rfl⟩ := bare_unique (List.cons.inj hs).2 hw hw' hvalues.completes.atValueEnd
        hvalues'.completes.atValueEnd
      obtain ⟨rfl, rfl⟩ := ih hvalues'
      exact ⟨rfl, rfl⟩

end CommandBar.Search
