import CommandBar.Proofs.Search.Concatenation
import CommandBar.Proofs.Search.Spelling
import Mathlib

/-!
# What can be read from a search

Which facets some search consists of. A value that ends in a backslash is closed where it should be
only if no closing quote can be taken for the end of the run; so values are written here between
curly quotes, the opening one of the next value ends the search for a later close, and a tab does so
behind the last value.

- `IsValueText`, `IsReadable`: the values and the facets that can be read.
- `IsFacet.isReadable`, `isReadable_of_mem_partsOf`: a facet of a search is one that can be read.
- `writeValue`, `writeValues`, `writeFacet`, `writeSearch`: a search for everything that can be
  read.
- `facet?_writeFacet`, `partsOf_writeSearch`: it is read back.
- `IsRead`, `exists_read_iff`: **the facets that some search consists of** are those that can be
  read.
-/

namespace CommandBar.Search

variable {ε : Type} {s rest : List Char} {value : String} {values : List String} {entry : Entry}

/-- The text can be the value of a facet. Between quotes stands what has no control character, and a
bare value is not empty and has no blank, no colon and no quote. -/
def IsValueText (value : String) : Prop :=
  (∀ c ∈ value.toList, isControl c = false) ∨
    value.toList ≠ [] ∧
      ∀ c ∈ value.toList, isBlank c = false ∧ c ≠ ':' ∧ Quoted.isGlyph c = false

/-- The entry can be a facet: it has a name, and what follows are values, at least one. -/
def IsReadable : Entry → Prop
  | [] => False
  | name :: values => IsName name ∧ values ≠ [] ∧ ∀ value ∈ values, IsValueText value

theorem isBareValueChar_iff {c : Char} :
    isBareValueChar c = true ↔ isBlank c = false ∧ c ≠ ':' ∧ Quoted.isGlyph c = false := by
  simp [isBareValueChar, and_assoc]

/-! ## What a search holds -/

/-- **A value of a facet can be read**: between quotes there is no control character, and a bare
value is one. -/
theorem IsValue.isValueText (h : IsValue s value rest) : IsValueText value := by
  cases h with
  | quoted hlongest =>
    refine .inl ?_
    rw [String.toList_ofList]
    exact hlongest.1.isControl_of_mem
  | bare hne hw =>
    refine .inr ?_
    rw [String.toList_ofList]
    exact ⟨hne, fun c hc => isBareValueChar_iff.mp (hw c hc)⟩

theorem IsValues.isValueText (h : IsValues s values rest) :
    ∀ value ∈ values, IsValueText value := by
  induction h with
  | done => exact fun value h => absurd h List.not_mem_nil
  | cons hvalue _ ih => exact List.forall_mem_cons.mpr ⟨hvalue.isValueText, ih⟩

theorem IsFacet.isReadable (h : IsFacet s entry rest) : IsReadable entry := by
  obtain ⟨hname, hvalues, hne, -⟩ := h
  exact ⟨hname.isName, hne, hvalues.isValueText⟩

theorem isReadable_of_mem_partsOf (h : .facet entry ∈ partsOf s) : IsReadable entry := by
  fun_induction partsOf s with
  | case1 => exact absurd h List.not_mem_nil
  | case2 s _ _ entry' rest hfacet _ ih =>
    rcases List.mem_cons.mp h with heq | h
    · cases heq
      exact (facet?_eq_some_iff.mp hfacet).isReadable
    · exact ih h
  | case3 s _ _ _ _ ih =>
    rcases List.mem_cons.mp h with heq | h
    · cases heq
    · exact ih h

/-! ## A search for everything that can be read -/

/-- The value as it is written, bare only if quotes would not protect it. -/
def writeValue (value : String) : List Char :=
  if value.toList.any isControl then value.toList
  else '“' :: (Quoted.escape value.toList ++ ['”'])

/-- The values as they are written, each behind its colon. -/
def writeValues : List String → List Char
  | [] => []
  | value :: values => ':' :: (writeValue value ++ writeValues values)

/-- The facet as it is written. -/
def writeFacet : Entry → List Char
  | [] => []
  | name :: values => name.toList ++ writeValues values

/-- The facets as they are written, with a tab behind each. -/
def writeSearch (entries : List Entry) : List Char :=
  entries.flatMap fun entry => writeFacet entry ++ ['\t']

/-- A value is written bare if it holds a control character, and then it can be read bare. -/
theorem IsValueText.cases (h : IsValueText value) :
    (writeValue value = '“' :: (Quoted.escape value.toList ++ ['”']) ∧
        ∀ c ∈ value.toList, isControl c = false) ∨
      (writeValue value = value.toList ∧ (∃ c ∈ value.toList, isControl c = true) ∧
        value.toList ≠ [] ∧ ∀ c ∈ value.toList, isBareValueChar c = true) := by
  by_cases hcontrol : value.toList.any isControl = true
  · obtain ⟨c, hc, hc'⟩ := List.any_eq_true.mp hcontrol
    refine .inr ⟨if_pos hcontrol, ⟨c, hc, hc'⟩, ?_⟩
    rcases h with h | ⟨hne, hbare⟩
    · rw [h c hc] at hc'
      cases hc'
    · exact ⟨hne, fun d hd => isBareValueChar_iff.mpr (hbare d hd)⟩
  · refine .inl ⟨if_neg hcontrol, fun c hc => ?_⟩
    simpa using fun h => hcontrol (List.any_eq_true.mpr ⟨c, hc, h⟩)

/-- Behind a colon, a written value seals what is in front: an opening quote that does not close a
run ends the search for a close, and so does a control character. -/
theorem seals_writeValue (h : IsValueText value) :
    Quoted.Seals (':' :: (writeValue value ++ rest)) := by
  constructor
  · intro q s' hs
    obtain ⟨rfl, -⟩ := List.cons.inj hs
    decide
  · intro shorter enclosed
    have hcolon : ∀ t, Quoted.scan shorter enclosed (':' :: t) =
        Quoted.scan shorter (':' :: enclosed) t :=
      fun t => Quoted.scan_plain (by decide) (by decide) fun hback => absurd hback (by decide)
    rw [hcolon]
    rcases h.cases with ⟨hwrite, -⟩ | ⟨hwrite, ⟨c, hc, hcontrol⟩, -, hbare⟩
    · rw [hwrite]
      exact Quoted.scan_stray (by decide) (by decide)
    · rw [hwrite]
      exact Quoted.scan_of_mem_control (fun d hd => (isBareValueChar_iff.mp (hbare d hd)).2.2) hc
        hcontrol

/-- **A written value is read back** in front of a text that seals it and where a value may end. -/
theorem isValue_writeValue (h : IsValueText value) (hseals : Quoted.Seals rest)
    (hend : atValueEnd rest = true) : IsValue (writeValue value ++ rest) value rest := by
  rcases h.cases with ⟨hwrite, hcontrol⟩ | ⟨hwrite, -, hne, hbare⟩
  · obtain ⟨shorter, hcloses⟩ : ∃ shorter,
        Quoted.closes ('“' :: (Quoted.escape value.toList ++ '”' :: rest)) =
          ⟨value.toList.reverse, rest⟩ :: shorter :=
      Quoted.closes_of_quoted (by decide) (by decide) hcontrol fun _ => hseals.scan_eq
    have hvalue := isValue_of_closes hcloses hend
    rw [String.ofList_toList] at hvalue
    rw [hwrite, List.cons_append, List.append_assoc]
    exact hvalue
  · have hvalue := isValue_of_bare hne hbare hend
    rw [String.ofList_toList] at hvalue
    rwa [hwrite]

/-- The values are read back. That each seals what is in front carries the induction. -/
theorem isValues_writeValues (h : ∀ value ∈ values, IsValueText value) :
    IsValues (writeValues values) values [] ∧ Quoted.Seals (writeValues values) ∧
      atValueEnd (writeValues values) = true := by
  induction values with
  | nil =>
    refine ⟨.done fun r h => absurd h.symm (List.cons_ne_nil ':' r), ⟨?_, fun _ _ => rfl⟩, rfl⟩
    intro q s' hs
    exact absurd hs.symm (List.cons_ne_nil q s')
  | cons value values ih =>
    obtain ⟨hvalue, hvalues⟩ := List.forall_mem_cons.mp h
    obtain ⟨hread, hseals, hend⟩ := ih hvalues
    exact ⟨.cons (isValue_writeValue hvalue hseals hend) hread, seals_writeValue hvalue, rfl⟩

/-- **A written facet is read back.** -/
theorem facet?_writeFacet (h : IsReadable entry) :
    facet? (writeFacet entry) = some (entry, []) := by
  cases entry with
  | nil => exact absurd h id
  | cons name values =>
    obtain ⟨hname, hne, hvalues⟩ := h
    obtain ⟨hread, -, -⟩ := isValues_writeValues hvalues
    refine facet?_eq_some_iff.mpr (.mk (hname.isIdentifier_append ?_) hread hne rfl)
    intro c r hc
    cases values with
    | nil => exact absurd rfl hne
    | cons value values =>
      obtain ⟨rfl, -⟩ := List.cons.inj hc
      decide

/-- **A written search is read back**: the tabs keep the facets apart. -/
theorem partsOf_writeSearch {entries : List Entry} (h : ∀ entry ∈ entries, IsReadable entry) :
    partsOf (writeSearch entries) = entries.map .facet := by
  induction entries with
  | nil => exact partsOf_of_allBlank fun c hc => absurd hc List.not_mem_nil
  | cons entry entries ih =>
    obtain ⟨hentry, hentries⟩ := List.forall_mem_cons.mp h
    have hfacet := facet?_writeFacet hentry
    obtain ⟨-, c, s, hs, hblank⟩ := exists_name_of_facet? hfacet
    have hskip : skipBlanks (writeFacet entry) = writeFacet entry := by
      rw [hs, skipBlanks_cons hblank]
    have hone : partsOf (writeFacet entry) = [.facet entry] := by
      rw [partsOf_facet (hskip ▸ hfacet),
        partsOf_of_allBlank fun c hc => absurd hc List.not_mem_nil]
    show partsOf (writeFacet entry ++ ['\t'] ++ writeSearch entries) = _
    rw [List.append_assoc, partsOf_append (Quoted.seam_tab _), hone, ih hentries]
    rfl

/-! ## The facets that some search consists of -/

/-- Some search gives the entries, with no way to deal with words. -/
def IsRead (ε : Type) (entries : List Entry) : Prop :=
  ∃ (text : String) (reading : Reading ε),
    parse {} text = .ok reading ∧ reading.result = .ok (some entries)

/-- A search gives entries exactly if its parts are facets, namely these. -/
theorem isRead_iff_partsOf {entries : List Entry} :
    IsRead ε entries ↔ ∃ s, partsOf s = entries.map .facet := by
  constructor
  · rintro ⟨text, reading, hparse, hresult⟩
    obtain ⟨reading', hparse', hgather⟩ := exists_result_of_isBuiltIn .bare text
    obtain rfl := Except.ok.inj (hparse.symm.trans hparse')
    exact ⟨_, Part.mapM_facet?_eq_some_iff.mp (Except.ok.inj (hgather.symm.trans hresult))⟩
  · rintro ⟨s, hs⟩
    obtain ⟨reading, hparse, hgather⟩ := exists_result_of_isBuiltIn (ε := ε) .bare (String.ofList s)
    refine ⟨_, reading, hparse, ?_⟩
    rw [hgather, String.toList_ofList]
    exact congrArg Except.ok (Part.mapM_facet?_eq_some_iff.mpr hs)

theorem isRead_iff {entries : List Entry} :
    IsRead ε entries ↔ ∀ entry ∈ entries, IsReadable entry := by
  rw [isRead_iff_partsOf]
  constructor
  · rintro ⟨s, hs⟩ entry hmem
    refine isReadable_of_mem_partsOf (s := s) ?_
    rw [hs]
    exact List.mem_map_of_mem hmem
  · intro h
    exact ⟨_, partsOf_writeSearch h⟩

/-- In the place of any value there may be any text without control characters. -/
theorem isReadable_replace {before after : List Entry} {values values' : List String}
    {name value value' : String} (hvalue : ∀ c ∈ value'.toList, isControl c = false)
    (h : ∀ entry ∈ before ++ (name :: (values ++ value :: values')) :: after, IsReadable entry) :
    ∀ entry ∈ before ++ (name :: (values ++ value' :: values')) :: after, IsReadable entry := by
  obtain ⟨hbefore, h⟩ := List.forall_mem_append.mp h
  obtain ⟨⟨hname, -, hvalues⟩, hafter⟩ := List.forall_mem_cons.mp h
  obtain ⟨hvalues, h⟩ := List.forall_mem_append.mp hvalues
  obtain ⟨-, hvalues'⟩ := List.forall_mem_cons.mp h
  refine List.forall_mem_append.mpr ⟨hbefore, List.forall_mem_cons.mpr ⟨⟨hname, ?_, ?_⟩, hafter⟩⟩
  · exact List.append_ne_nil_of_right_ne_nil values (List.cons_ne_nil value' values')
  · exact List.forall_mem_append.mpr
      ⟨hvalues, List.forall_mem_cons.mpr ⟨.inl hvalue, hvalues'⟩⟩

/-- **The facets that some search consists of** are those with an identifier for a name and with
values that are free of control characters, or else bare. So in the place of any value, wherever it
stands, there may be any text without control characters: an empty one, one that holds blanks,
colons and quotes, one that ends in a backslash. -/
theorem exists_read_iff :
    (∀ entries : List Entry, IsRead ε entries ↔ ∀ entry ∈ entries, IsReadable entry) ∧
    ∀ (before after : List Entry) (values values' : List String) (name value value' : String),
      (∀ c ∈ value'.toList, isControl c = false) →
      IsRead ε (before ++ (name :: (values ++ value :: values')) :: after) →
      IsRead ε (before ++ (name :: (values ++ value' :: values')) :: after) := by
  refine ⟨fun entries => isRead_iff, ?_⟩
  intro before after values values' name value value' hvalue h
  exact isRead_iff.mpr (isReadable_replace hvalue (isRead_iff.mp h))

/-- A value that ends in a backslash in front of one between quotes, and a bare one with a control
character: a search gives them, and another one gives them with a value in the place of the first
that holds quotes, a colon and a blank and ends in a backslash, too. -/
theorem exists_read_iff_backslashes :
    (∀ entry ∈ [["a", "x\\", " y", "\x01"], ["b", ""]], IsReadable entry) ∧
      IsRead String [["a", "\": \\", " y", "\x01"], ["b", ""]] := by
  obtain ⟨himage, hreplace⟩ := @exists_read_iff String
  have hread : IsRead String [["a", "x\\", " y", "\x01"], ["b", ""]] :=
    ⟨"a:“x\\”:“ y”:\x01 b:\"\"", _, rfl, by cbv⟩
  have hall : "\": \\".toList.all (!isControl ·) = true := by decide +kernel
  have hvalue : ∀ c ∈ "\": \\".toList, isControl c = false :=
    fun c hc => by simpa using List.all_eq_true.mp hall c hc
  refine ⟨(himage _).mp hread, ?_⟩
  exact hreplace [] [["b", ""]] [] [" y", "\x01"] "a" "x\\" "\": \\" hvalue hread

/-- Between straight quotes, the first value would run on to the opening quote of the next. -/
example : (read none "a:\"x\\\":\" y\"" : Reading String).result = .ok none := by cbv

end CommandBar.Search
