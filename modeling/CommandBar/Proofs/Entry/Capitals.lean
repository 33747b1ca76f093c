import CommandBar.Proofs.Search.Image
import CommandBar.Proofs.Switch.Canonical
import Mathlib

/-!
# Canonical names without aliases

Folding could do almost anything to a name: lengthen it, take it out of the alphabet that names are
made of, or change one that has no capitals. It does none of this to names that were read. The names
of commands and of facets are ASCII, and there folding is writing small letters; so the name of a
command stays as it is, and the name of a facet remains one.

- `foldChar_of_ascii`, `foldCase_of_ascii`: on ASCII, folding is writing small letters.
- `IsName.toLower`: the name of a facet can be written small.
- `Lowers`: an entry, and the same with its name written small.
- `Options.mem_of_gather`: without a tag, what a reading gives is facets.
- `canonicalize_none_of_parse`: **entries that were read, under canonical names** without aliases.
-/

namespace CommandBar

variable {ε : Type} {name text : String} {entry : Entry}

/-! ## Folding ASCII -/

theorem all_foldChar_ascii :
    (List.range 128).all (fun code => foldChar (.ofNat code) = [(Char.ofNat code).toLower]) =
      true := by
  decide +kernel

/-- On ASCII, folding is writing small letters. -/
theorem foldChar_of_ascii {c : Char} (h : c.toNat < 128) : foldChar c = [c.toLower] := by
  have hchar := List.all_eq_true.mp all_foldChar_ascii c.toNat (List.mem_range.mpr h)
  rw [Char.ofNat_toNat] at hchar
  simpa using hchar

theorem foldCase_of_ascii (h : ∀ c ∈ text.toList, c.toNat < 128) :
    foldCase text = text.toLower := by
  have hflat : text.toList.flatMap foldChar = text.toList.map Char.toLower := by
    rw [List.map_eq_flatMap]
    exact List.flatMap_congr fun c hc => foldChar_of_ascii (h c hc)
  rw [← String.toList_inj, toList_foldCase, hflat, String.toLower, String.toList_map]

/-! ## Names written small -/

namespace Search

theorem Identifier.isFirst_toLower {c : Char} (h : isFirst c = true) :
    isFirst c.toLower = true := by
  simp only [isFirst, Bool.or_eq_true, decide_eq_true_eq] at h ⊢
  rcases h with hletter | rfl
  · exact .inl ((Char.isAlpha_toLower_eq_isAlpha c).trans hletter)
  · exact .inr (by decide)

theorem Identifier.isLater_toLower {c : Char} (h : isLater c = true) :
    isLater c.toLower = true := by
  by_cases hupper : c.isUpper = true
  · -- only letters are changed, and to letters
    have hletter : c.toLower.isAlpha = true := by
      rw [Char.isAlpha_toLower_eq_isAlpha, Char.isAlpha, hupper, Bool.true_or]
    simp [isLater, Char.isAlphanum, hletter]
  · rwa [Char.toLower_eq_of_not_isUpper hupper]

theorem IsName.ascii (h : IsName name) : ∀ c ∈ name.toList, c.toNat < 128 := by
  obtain ⟨first, later, hs, hfirst, hlater⟩ := isName_iff.mp h
  intro c hc
  have hc : Identifier.isLater c = true := by
    rw [hs] at hc
    rcases List.mem_cons.mp hc with rfl | hc
    · exact Identifier.isLater_of_isFirst hfirst
    · exact hlater c hc
  have := (Identifier.visible_of_isLater hc).2
  omega

/-- **The name of a facet can be written small**: it is a name then, too, and just as long. -/
theorem IsName.toLower (h : IsName name) :
    IsName name.toLower ∧ name.toLower.length = name.length := by
  obtain ⟨first, later, hs, hfirst, hlater⟩ := isName_iff.mp h
  have hlower : name.toLower.toList = name.toList.map Char.toLower := String.toList_map
  constructor
  · refine isName_iff.mpr ⟨first.toLower, later.map Char.toLower, ?_, ?_, ?_⟩
    · rw [hlower, hs, List.map_cons]
    · exact Identifier.isFirst_toLower hfirst
    · exact List.forall_mem_map.mpr fun c hc => Identifier.isLater_toLower (hlater c hc)
  · rw [← String.length_toList, hlower, List.length_map, String.length_toList]

/-- Under options without a tag, whatever is gathered is one of the facets. -/
theorem Options.mem_of_gather {options : Options ε} {parts : List Part} {entries : List Entry}
    (htag : options.literal = none) (h : options.gather parts = some entries)
    (hentry : entry ∈ entries) : .facet entry ∈ parts := by
  rw [gather, htag] at h
  dsimp only at h
  split at h
  · obtain rfl := Option.some.inj h
    obtain ⟨part, hpart, hfacet⟩ := List.mem_filterMap.mp hentry
    cases part with
    | word text => cases hfacet
    | facet entry' =>
      obtain rfl := Option.some.inj hfacet
      exact hpart
  · rw [Part.mapM_facet?_eq_some_iff.mp h]
    exact List.mem_map_of_mem hentry

end Search

/-! ## Entries under canonical names -/

/-- The second entry is the first with its name written small and with the same words. The name can
be that of a facet before and after, and it has as many characters. -/
inductive Lowers : Entry → Entry → Prop
  | mk {name : String} {words : List String} :
      Search.IsName name → Search.IsName name.toLower → name.toLower.length = name.length →
        Lowers (name :: words) (name.toLower :: words)

/-- Without aliases a name stands for its folding. -/
theorem canonicalName_none (name : String) : canonicalName .none name = foldCase name :=
  rfl

/-- Switches that can be read have no capitals in their names. -/
theorem canonicalize_none_of_isReadable {switches : List Entry}
    (h : ∀ switch ∈ switches, Switch.IsReadable switch) :
    canonicalize .none switches = switches := by
  have hself : switches.map (Entry.canonicalize .none) = switches.map id := by
    refine List.map_congr_left fun switch hmem => ?_
    cases switch with
    | nil => rfl
    | cons name args =>
      show canonicalName .none name :: args = name :: args
      rw [canonicalName_none, Switch.foldCase_of_isCommandName (h _ hmem).1]
  exact hself.trans (List.map_id switches)

theorem lowers_canonicalize_none (h : Search.IsReadable entry) :
    Lowers entry (entry.canonicalize .none) := by
  cases entry with
  | nil => exact absurd h id
  | cons name words =>
    have hname := h.1
    have hlower := hname.toLower
    rw [Entry.canonicalize, canonicalName_none, foldCase_of_ascii hname.ascii]
    exact .mk hname hlower.1 hlower.2

/-- **Entries that were read, under canonical names** without aliases. Switches are left as they
are. A search is read without an option, or with its words skipped; whatever facets this gives, each
keeps its values, and its name is written small: it remains a name, and keeps its length. -/
theorem canonicalize_none_of_parse :
    (∀ line switches, Switch.parse line = .ok switches →
      canonicalize .none switches = switches) ∧
    ∀ (skip : Bool) (text : String), ∃ (reading : Search.Reading ε) (found : Option (List Entry)),
      Search.parse { skipUnmatched := skip } text = .ok reading ∧ reading.result = .ok found ∧
        ∀ entries, found = some entries →
          List.Forall₂ Lowers entries (canonicalize .none entries) := by
  constructor
  · intro line switches h
    exact canonicalize_none_of_isReadable (Switch.exists_parse_eq_ok_iff.mp ⟨line, h⟩)
  · intro skip text
    have hbuiltIn : Search.Options.IsBuiltIn ({ skipUnmatched := skip } : Search.Options ε) := by
      cases skip with
      | false => exact .bare
      | true => exact .skipping
    obtain ⟨reading, hparse, hresult⟩ := Search.exists_result_of_isBuiltIn hbuiltIn text
    refine ⟨reading, _, hparse, hresult, fun entries hentries => ?_⟩
    rw [canonicalize, List.forall₂_map_right_iff, List.forall₂_same]
    intro entry hentry
    have hpart := Search.Options.mem_of_gather rfl hentries hentry
    exact lowers_canonicalize_none (Search.isReadable_of_mem_partsOf hpart)

/-- Capitals in an argument, in the names of facets, in their values and in a word between them. -/
theorem canonicalize_none_of_parse_capitals :
    Switch.parse "/to ANN" = .ok [["to", "ANN"]] ∧
      canonicalize .none [["to", "ANN"]] = [["to", "ANN"]] ∧
      ∃ reading : Search.Reading String,
        Search.parse { skipUnmatched := true } "From:Ann AND -To_2:\"B C\":D" = .ok reading ∧
          reading.result = .ok (some [["From", "Ann"], ["-To_2", "B C", "D"]]) ∧
          List.Forall₂ Lowers [["From", "Ann"], ["-To_2", "B C", "D"]]
            [["from", "Ann"], ["-to_2", "B C", "D"]] := by
  obtain ⟨hswitches, hsearch⟩ := @canonicalize_none_of_parse String
  have hline : Switch.parse "/to ANN" = .ok [["to", "ANN"]] := by cbv
  have hread : (Search.read (some .skip) "From:Ann AND -To_2:\"B C\":D" :
      Search.Reading String).result = .ok (some [["From", "Ann"], ["-To_2", "B C", "D"]]) := by
    cbv
  have hlower : canonicalize .none [["From", "Ann"], ["-To_2", "B C", "D"]] =
      [["from", "Ann"], ["-to_2", "B C", "D"]] := by
    decide +kernel
  obtain ⟨reading, found, hparse, hresult, hfound⟩ :=
    hsearch true "From:Ann AND -To_2:\"B C\":D"
  refine ⟨hline, hswitches _ _ hline, reading, hparse, ?_⟩
  obtain rfl := Except.ok.inj hparse
  obtain rfl := Except.ok.inj (hresult.symm.trans hread)
  refine ⟨hread, ?_⟩
  rw [← hlower]
  exact hfound _ rfl

end CommandBar
