import CommandBar.Proofs.Quoted.Escape
import CommandBar.Proofs.Search.Backtracking
import CommandBar.Proofs.Search.Parts
import Mathlib

/-!
# Reading a search back, however it was typed

A value that was written is the value that starts the text, wherever it stands: what follows it is a
colon, a blank or the end of the text, and none of these can be part of it. So a search that
consists of facets is read alike in whatever way they are typed, and since a facet starts wherever
something is left to read, it does not matter what was to become of other text.

- `isValue_of_closes`, `isValue_of_bare`, `IsName.isIdentifier_append`: a quoted value, a bare one
  and a name in front of what may follow them.
- `isValue_of_spellsValue`, `isValues_of_spellsValues`, `isFacet_of_spellsFacet`: what was written
  is read back where a value or a word may end behind it.
- `readFrom_of_spellsSearch`: so every turn of a reading takes a facet, under any fallback.
- `parse_of_spellsSearch`: **a search is read back as the facets that it writes**, and no fallback
  is ever called.
-/

namespace CommandBar.Search

variable {ε : Type} {s rest : List Char} {value : String} {values : List String} {facet : Entry}
  {facets : List Entry}

/-! ## What starts a text -/

/-- Behind its closes, a quoted value is the value that starts the text. -/
theorem isValue_of_closes {content : List Char} {shorter : List Quoted.Close}
    (h : Quoted.closes s = ⟨content.reverse, rest⟩ :: shorter) (hend : atValueEnd rest = true) :
    IsValue s (String.ofList content) rest := by
  have hlongest := Quoted.run?_eq_some_iff.mp (Quoted.run?_of_closes_eq_cons h hend)
  rw [List.reverse_reverse] at hlongest
  exact .quoted hlongest

/-- Characters of a bare value are the value that starts the text, if a value may end behind them:
no quoted run starts with one of them. -/
theorem isValue_of_bare {w : List Char} (hne : w ≠ []) (hw : ∀ c ∈ w, isBareValueChar c = true)
    (hend : atValueEnd rest = true) : IsValue (w ++ rest) (String.ofList w) rest := by
  refine .bare hne hw ?_ ?_
  · rintro c r rfl
    exact isBareValueChar_of_atValueEnd hend
  · intro content rest' hrun
    exact absurd hrun (not_isRun_of_bare hne hw)

/-- A name is the identifier that starts a text which does not continue it. -/
theorem IsName.isIdentifier_append {name : String} (h : IsName name)
    (hrest : ∀ c r, rest = c :: r → Identifier.isLater c = false) :
    IsIdentifier (name.toList ++ rest) name rest := by
  obtain ⟨c, later, hs, hc, hlater⟩ := isName_iff.mp h
  have hname : IsIdentifier (c :: (later ++ rest)) (String.ofList (c :: later)) rest :=
    .mk hc hlater hrest
  rwa [← List.cons_append, ← hs, String.ofList_toList] at hname

/-! ## What was written is read back -/

/-- **A written value is read back** wherever it stands, if a value may end behind it. -/
theorem isValue_of_spellsValue (h : SpellsValue value s) (hend : atValueEnd rest = true) :
    IsValue (s ++ rest) value rest := by
  cases h with
  | bare hne hw => exact isValue_of_bare hne hw hend
  | quoted hspells =>
    obtain ⟨shorter, hcloses⟩ := Quoted.closes_of_spells hspells
    exact isValue_of_closes hcloses hend

/-- In front of written values a value may end: there is a colon, or no value is left. -/
theorem atValueEnd_of_spellsValues (h : SpellsValues values s) (hend : atWordEnd rest = true) :
    atValueEnd (s ++ rest) = true := by
  cases h with
  | nil => exact (completes_of_atWordEnd hend).atValueEnd
  | cons => rfl

/-- **Written values are read back** where a word may end behind the last. -/
theorem isValues_of_spellsValues (h : SpellsValues values s) (hend : atWordEnd rest = true) :
    IsValues (s ++ rest) values rest := by
  induction h with
  | nil =>
    refine .done ?_
    rintro r rfl
    simp [atWordEnd_colon] at hend
  | cons hvalue hvalues ih =>
    have hread := isValue_of_spellsValue hvalue (atValueEnd_of_spellsValues hvalues hend)
    rw [← List.append_assoc] at hread
    exact .cons hread ih

/-- **A written facet is read back**: the first colon ends its name. -/
theorem isFacet_of_spellsFacet (h : SpellsFacet facet s) (hend : atWordEnd rest = true) :
    IsFacet (s ++ rest) facet rest := by
  cases h with
  | @mk name values s hname hne hvalues =>
    have hread := isValues_of_spellsValues hvalues hend
    rw [List.append_assoc]
    refine .mk (hname.isIdentifier_append ?_) hread hne hend
    intro c r hc
    cases hvalues with
    | nil => exact absurd rfl hne
    | cons =>
      obtain ⟨rfl, -⟩ := List.cons.inj hc
      decide

/-! ## Searches -/

/-- **Every turn takes a facet**, whatever the fallback is and whatever it was handed before. -/
theorem readFrom_of_spellsSearch (h : SpellsSearch facets s) (fallback : Option (Fallback ε))
    (earlier : List (List Char)) :
    readFrom fallback earlier (skipBlanks s) = ⟨facets.map .facet, .finished⟩ := by
  induction h with
  | nil hgap =>
    rw [skipBlanks_eq_nil_iff.mpr hgap, readFrom_nil]
    rfl
  | @cons gap s rest facet facets hgap hfacet hend _ ih =>
    have hread : facet? (s ++ rest) = some (facet, rest) :=
      facet?_eq_some_iff.mpr (isFacet_of_spellsFacet hfacet hend)
    obtain ⟨-, c, s', hs, hblank⟩ := exists_name_of_facet? hread
    have hskip : skipBlanks (gap ++ (s ++ rest)) = s ++ rest := by
      rw [skipBlanks_append hgap, hs, skipBlanks_cons hblank]
    rw [hskip, readFrom_facet hread, ih]
    rfl

/-- **A search is read back as the facets that it writes**, in whatever way it writes them: each
value bare or between any pair of quotes, any blanks between the facets, and any at both ends. This
holds with no way to deal with words, with words skipped, with words added under any tag, and under
any fallback, which is never called. -/
theorem parse_of_spellsSearch {options : Options ε} {text : String}
    (hoptions : options.IsBuiltIn ∨ ∃ handler, options = { fallback := some (.handler handler) })
    (h : SpellsSearch facets text.toList) :
    ∃ reading, parse options text = .ok reading ∧ reading.result = .ok (some facets) ∧
      reading.calls = [] ∧ reading.notices = [] := by
  have hread (fallback : Option (Fallback ε)) :
      read fallback text = ⟨facets.map .facet, .finished⟩ :=
    readFrom_of_spellsSearch h fallback []
  obtain ⟨fallback, hresolve⟩ : ∃ fallback, options.resolve = .ok fallback := by
    rcases hoptions with hbuiltIn | ⟨handler, rfl⟩
    · cases hbuiltIn with
      | bare => exact ⟨none, rfl⟩
      | skipping => exact ⟨some .skip, rfl⟩
      | tagging tag => exact ⟨some (.literal tag), rfl⟩
    · exact ⟨some handler, rfl⟩
  refine ⟨⟨facets.map .facet, .finished⟩, ?_, ?_, ?_, rfl⟩
  · rw [parse, hresolve, ← hread fallback]
    rfl
  · simp [Reading.result, entries_map_facet]
  · exact calls_map_facet facets .finished

/-- Two facets, with a wide space, a tab, a space and a line end for the blanks. The values stand
between curly quotes with a straight one inside, bare with a control character, between two kinds of
quotes with nothing inside, and between straight quotes, where they look like another facet and a
word. -/
def mixedSearch : String := "\u3000a:“x \\\"y”:\x01;\t b-1:\"”:\"k:v w\"\n"

/-- The name of a facet may be the tag, and a fallback that gives up at once makes no difference. -/
theorem parse_of_spellsSearch_mixed :
    SpellsSearch [["a", "x \"y", "\x01;"], ["b-1", "", "k:v w"]] mixedSearch.toList ∧
      (∃ reading : Reading String, parse { literal := some "a" } mixedSearch = .ok reading ∧
        reading.result = .ok (some [["a", "x \"y", "\x01;"], ["b-1", "", "k:v w"]])) ∧
      ∃ reading : Reading String,
        parse { fallback := some (.handler (.wordsUntil 0 "enough")) } mixedSearch = .ok reading ∧
        reading.result = .ok (some [["a", "x \"y", "\x01;"], ["b-1", "", "k:v w"]]) ∧
        reading.calls = [] := by
  have hcontrol : ("x \"y".toList ++ "k:v w".toList).all (!isControl ·) = true := by
    decide +kernel
  have hplain : ∀ c ∈ "x \"y".toList ++ "k:v w".toList, isControl c = false :=
    fun c hc => by simpa using List.all_eq_true.mp hcontrol c hc
  obtain ⟨hxy, hkv⟩ := List.forall_mem_append.mp hplain
  have hcurly : SpellsValue "x \"y" ['“', 'x', ' ', '\\', '"', 'y', '”'] :=
    .quoted (@Quoted.Spells.mk '“' '”' "x \"y".toList (by decide) (by decide) hxy (by decide))
  have hbare : SpellsValue "\x01;" ['\x01', ';'] :=
    .bare (by decide) (List.all_eq_true.mp (by decide))
  have hempty : SpellsValue "" ['"', '”'] :=
    .quoted (@Quoted.Spells.mk '"' '”' [] (by decide) (by decide)
      (fun c hc => absurd hc List.not_mem_nil) (by decide))
  have hstraight : SpellsValue "k:v w" ['"', 'k', ':', 'v', ' ', 'w', '"'] :=
    .quoted (@Quoted.Spells.mk '"' '"' "k:v w".toList (by decide) (by decide) hkv (by decide))
  have hname : IsName "a" ∧ IsName "b-1" := by
    unfold IsName
    decide
  have ha := SpellsFacet.mk hname.1 (by simp) (.cons hcurly (.cons hbare .nil))
  have hb := SpellsFacet.mk hname.2 (by simp) (.cons hempty (.cons hstraight .nil))
  have hblank : ∀ gap : List Char, gap.all isBlank = true → AllBlank gap :=
    fun gap h => List.all_eq_true.mp h
  -- from the line end at the back to the wide space in front
  have hback : SpellsSearch [] ['\n'] := .nil (hblank ['\n'] (by decide))
  have hback := SpellsSearch.cons (hblank ['\t', ' '] (by decide)) hb (by decide) hback
  have hsearch : SpellsSearch [["a", "x \"y", "\x01;"], ["b-1", "", "k:v w"]]
      mixedSearch.toList :=
    .cons (hblank ['\u3000'] (by decide)) ha (by decide) hback
  refine ⟨hsearch, ?_, ?_⟩
  · obtain ⟨reading, hparse, hresult, -, -⟩ :=
      @parse_of_spellsSearch String _ _ _ (.inl (.tagging "a")) hsearch
    exact ⟨reading, hparse, hresult⟩
  · obtain ⟨reading, hparse, hresult, hcalls, -⟩ :=
      parse_of_spellsSearch (.inr ⟨.wordsUntil 0 "enough", rfl⟩) hsearch
    exact ⟨reading, hparse, hresult, hcalls⟩

end CommandBar.Search
