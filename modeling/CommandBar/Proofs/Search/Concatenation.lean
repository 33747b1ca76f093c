import CommandBar.Proofs.Quoted.Seam
import CommandBar.Proofs.Search.Backtracking
import CommandBar.Proofs.Search.Parts
import CommandBar.Proofs.Text.Word
import Mathlib

/-!
# Searches that are put together

Two searches with a seam between them are read as the one and then the other. A quoted value that is
left open in the first makes a word there, and the seam keeps it from a quote in the second that
could close it; a value that ends in front of the seam is not disturbed by what stands behind it.

- `value?_append`, `facet?_append`: in front of a text that seals it, a text starts with the value
  and with the facet that it starts with alone.
- `partsOf_append`: a search up to a seam and the search behind it have their parts one after the
  other.
- `read_concat`: **what is read from two searches with a seam between them** is what is read from
  the one and then from the other, and nothing if either gives nothing.
-/

namespace CommandBar.Search

variable {ε : Type} {s gap later : List Char}

/-! ## What starts a text, in front of a later one -/

theorem isLater_of_isBlank {c : Char} (h : isBlank c = true) : Identifier.isLater c = false := by
  cases hc : Identifier.isLater c with
  | false => rfl
  | true =>
    rw [isBlank_of_isLater hc] at h
    cases h

/-- The identifier in front is the same, for no blank continues it. -/
theorem identifier?_append (hend : atWordEnd later = true) :
    identifier? (s ++ later) = (identifier? s).map (Prod.map id (· ++ later)) := by
  cases s with
  | nil =>
    cases later with
    | nil => rfl
    | cons c later =>
      have hfirst : ¬ Identifier.isFirst c = true := by
        intro hfirst
        have hblank : isBlank c = true := hend
        rw [isBlank_of_isFirst hfirst] at hblank
        cases hblank
      show (if Identifier.isFirst c = true then _ else none) = none
      rw [if_neg hfirst]
  | cons c s =>
    obtain ⟨htake, hdrop⟩ := span_append_of_stop (p := Identifier.isLater) (s := s) fun d r hd =>
      isLater_of_isBlank (isBlank_of_atWordEnd hend d r hd)
    rw [List.cons_append, identifier?, identifier?, htake, hdrop]
    split <;> rfl

/-- A value may end in front of the same places, and in front of the later text. -/
theorem atValueEnd_append (hend : atWordEnd later = true) :
    atValueEnd (s ++ later) = atValueEnd s := by
  cases s with
  | nil =>
    cases later with
    | nil => rfl
    | cons c later =>
      show atValueEnd (c :: later) = true
      unfold atValueEnd
      split
      · rfl
      · exact hend
  | cons c s =>
    by_cases hc : c = ':'
    · subst hc
      rfl
    · rw [List.cons_append, atValueEnd_cons hc, atValueEnd_cons hc]

/-- **A text starts with the value that it starts with alone.** -/
theorem value?_append (hseals : Quoted.Seals later) (hend : atWordEnd later = true) :
    value? (s ++ later) = (value? s).map (Prod.map id (· ++ later)) := by
  have hwelcome : (fun rest => atValueEnd (rest ++ later)) = atValueEnd :=
    funext fun rest => atValueEnd_append hend
  obtain ⟨htake, hdrop⟩ := span_append_of_stop (p := isBareValueChar) (s := s) fun c r hc => by
    simp [isBareValueChar, isBlank_of_atWordEnd hend c r hc]
  rw [value?, value?, Quoted.run?_append hseals, hwelcome, htake, hdrop]
  cases Quoted.run? atValueEnd s with
  | some close => rfl
  | none =>
    dsimp only [Option.map_none]
    split <;> rfl

theorem values?_append (hseals : Quoted.Seals later) (hend : atWordEnd later = true) :
    values? (s ++ later) = (values? s).map (Prod.map id (· ++ later)) := by
  fun_induction values? s with
  | case1 s hvalue =>
    rw [List.cons_append, values?_colon, value?_append hseals hend, hvalue]
    rfl
  | case2 s value rest hvalue _ ih =>
    rw [List.cons_append, values?_colon, value?_append hseals hend, hvalue]
    show (values? (rest ++ later)).map _ = _
    rw [ih]
    cases values? rest <;> rfl
  | case3 s hcolon =>
    refine values?_of_ne_colon fun r hr => ?_
    cases s with
    | nil =>
      obtain rfl : later = ':' :: r := hr
      rw [atWordEnd_colon] at hend
      cases hend
    | cons c s =>
      obtain ⟨rfl, -⟩ := List.cons.inj hr
      exact hcolon s rfl

/-- **A text starts with the facet that it starts with alone.** -/
theorem facet?_append (hseals : Quoted.Seals later) (hend : atWordEnd later = true) :
    facet? (s ++ later) = (facet? s).map (Prod.map id (· ++ later)) := by
  rw [facet?, facet?, identifier?_append hend]
  cases identifier? s with
  | none => rfl
  | some found =>
    obtain ⟨name, s'⟩ := found
    dsimp only [Option.map_some, Prod.map]
    rw [values?_append hseals hend]
    cases values? s' with
    | none => rfl
    | some found =>
      obtain ⟨values, rest⟩ := found
      dsimp only [Option.map_some, Prod.map, id]
      rw [atWordEnd_append hend]
      split <;> rfl

/-! ## The parts of a search up to a seam -/

/-- **A search up to a seam and the search behind it have their parts one after the other.** -/
theorem partsOf_append (h : Quoted.Seam gap later) :
    partsOf (s ++ (gap ++ later)) = partsOf s ++ partsOf later := by
  induction hlength : s.length using Nat.strongRecOn generalizing s with
  | ind length ih =>
    by_cases hblank : AllBlank s
    · rw [partsOf_gap hblank, partsOf_gap h.blank, partsOf_of_allBlank hblank, List.nil_append]
    · have hskip : skipBlanks (s ++ (gap ++ later)) = skipBlanks s ++ (gap ++ later) :=
        skipBlanks_append_of_not_allBlank hblank
      have hall : ¬ AllBlank (s ++ (gap ++ later)) :=
        fun hall => hblank (List.forall_mem_append.mp hall).1
      have happend := facet?_append (s := skipBlanks s) h.seals h.atWordEnd
      rw [← hskip] at happend
      have hle := length_skipBlanks_le s
      cases hfacet : facet? (skipBlanks s) with
      | some found =>
        obtain ⟨entry, rest⟩ := found
        have hlt := length_rest_lt_of_facet? hfacet
        rw [hfacet] at happend
        rw [partsOf_facet hfacet, partsOf_facet happend, List.cons_append]
        exact congrArg _ (ih _ (by omega) rfl)
      | none =>
        have hlt := length_afterWord_skipBlanks_lt (mt skipBlanks_eq_nil_iff.mp hblank)
        obtain ⟨hword, hafter⟩ := word_append_of_atWordEnd (s := skipBlanks s) h.atWordEnd
        rw [hfacet] at happend
        rw [partsOf_word hblank hfacet, partsOf_word hall happend, hskip, hword, hafter,
          List.cons_append]
        exact congrArg _ (ih _ (by omega) rfl)

/-! ## Searches that are put together -/

/-- **Two searches with a seam between them**, read under options that name no fallback: with words
added under a tag, with words skipped, or with no way to deal with words. The whole gives nothing if
either search gives nothing; otherwise it gives the entries of the first and then those of the
second. -/
theorem read_concat {options : Options ε} {first gap second : String} (hoptions : options.IsBuiltIn)
    (h : Quoted.Seam gap.toList second.toList) :
    ∃ (reading reading' whole : Reading ε) (found found' : Option (List Entry)),
      parse options first = .ok reading ∧ reading.result = .ok found ∧
      parse options second = .ok reading' ∧ reading'.result = .ok found' ∧
      parse options (first ++ gap ++ second) = .ok whole ∧
      (found = none ∨ found' = none → whole.result = .ok none) ∧
      ∀ entries entries', found = some entries → found' = some entries' →
        whole.result = .ok (some (entries ++ entries')) := by
  obtain ⟨reading, hparse, hresult⟩ := exists_result_of_isBuiltIn hoptions first
  obtain ⟨reading', hparse', hresult'⟩ := exists_result_of_isBuiltIn hoptions second
  obtain ⟨whole, hwhole, hgather⟩ := exists_result_of_isBuiltIn hoptions (first ++ gap ++ second)
  rw [String.toList_append, String.toList_append, List.append_assoc, partsOf_append h,
    Options.gather_append] at hgather
  refine ⟨reading, reading', whole, _, _, hparse, hresult, hparse', hresult', hwhole, ?_, ?_⟩
  · rintro (hnone | hnone)
    · rw [hgather, hnone]
      rfl
    · rw [hgather, hnone]
      cases options.gather (partsOf first.toList) <;> rfl
  · intro entries entries' hentries hentries'
    rw [hgather, hentries, hentries']
    rfl

/-- A tab keeps a value that is left open in the first search from a quote that could close it in
the second. With words added under a tag there are two words then; with no way to deal with words
there is nothing, though the second search alone gives a facet. -/
theorem read_concat_openValue :
    Quoted.Seam "\t".toList "b:y\" c:d".toList ∧
      (∃ whole : Reading String,
        parse { literal := some "#" } ("a:\"x" ++ "\t" ++ "b:y\" c:d") = .ok whole ∧
        whole.result = .ok (some [["#", "a:\"x"], ["#", "b:y\""], ["c", "d"]])) ∧
      ∃ whole : Reading String, parse {} ("a:\"x" ++ "\t" ++ "c:d") = .ok whole ∧
        whole.result = .ok none := by
  have hseam : Quoted.Seam "\t".toList "b:y\" c:d".toList := Quoted.seam_tab _
  refine ⟨hseam, ?_, ?_⟩
  · obtain ⟨reading, reading', whole, found, found', hparse, hresult, hparse', hresult', hwhole, -,
      hboth⟩ := @read_concat String { literal := some "#" } "a:\"x" "\t" "b:y\" c:d"
        (.tagging "#") hseam
    obtain rfl := Except.ok.inj hparse
    obtain rfl := Except.ok.inj hparse'
    have hfirst : (read (some (.literal "#")) "a:\"x" : Reading String).result =
        .ok (some [["#", "a:\"x"]]) := by
      cbv
    have hsecond : (read (some (.literal "#")) "b:y\" c:d" : Reading String).result =
        .ok (some [["#", "b:y\""], ["c", "d"]]) := by
      cbv
    obtain rfl := Except.ok.inj (hfirst.symm.trans hresult)
    obtain rfl := Except.ok.inj (hsecond.symm.trans hresult')
    exact ⟨whole, hwhole, hboth _ _ rfl rfl⟩
  · obtain ⟨reading, reading', whole, found, found', hparse, hresult, -, -, hwhole, hnone, -⟩ :=
      @read_concat String {} "a:\"x" "\t" "c:d" .bare (Quoted.seam_tab _)
    obtain rfl := Except.ok.inj hparse
    have hfirst : (read none "a:\"x" : Reading String).result = .ok none := by cbv
    obtain rfl := Except.ok.inj (hfirst.symm.trans hresult)
    exact ⟨whole, hwhole, hnone (.inl rfl)⟩

/-- A space does not. -/
example : (read (some (.literal "#")) ("a:\"x" ++ " " ++ "b:y\" c:d") : Reading String).result =
    .ok (some [["a", "x b:y"], ["c", "d"]]) := by
  cbv

end CommandBar.Search
