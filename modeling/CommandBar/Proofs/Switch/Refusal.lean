import CommandBar.Proofs.Switch.Writing

/-!
# Why switches cannot be written

Two kinds of things keep switches from being written. A place may be wrong by itself: a switch has
no command, a name is no command's name, an argument holds a control character. Or an argument may
be wrong because something follows it: between quotes and with a backslash at its end it would run
on into what follows. The writer looks for the first kind everywhere before it looks for the second,
and of a kind it reports the leftmost.

- `Flaw`, `Overrun`: what is wrong at a place, and what is wrong with a token that is not the last.
- `IsFirst`: something is reported of the first element at which anything is wrong.
- `looksUnclosed_render_iff`: an argument that would run on can be told from its written form, and
  nothing else has that form.
- `write_eq_error_iff`, `exists_write_iff_no_flaw`: what is reported, and when nothing is.
- `write_verdict`: **when switches can be written, and what is reported if they cannot.**
-/

namespace CommandBar.Switch

variable {place : Place} {token : Token} {tokens : List Token} {switches : List Entry}
  {why : WriteError}

/-- What is wrong at a place, whatever stands around it. -/
inductive Flaw : Place → WriteError → Prop
  | noCommand : Flaw .missing .noCommand
  | badName {name : String} :
      ¬ IsCommandName name → Flaw (.token (.command name)) (.badName name)
  | control {arg : String} {c : Char} :
      c ∈ arg.toList → isControl c = true → Flaw (.token (.literal arg)) (.control arg)

/-- The argument would not be read back as a bare word: it has a blank or a slash, or starts with an
opening quote. -/
def NeedsQuotes (arg : String) : Prop :=
  (∃ c ∈ arg.toList, isBlank c = true ∨ c = '/') ∨
    ∃ c s, arg.toList = c :: s ∧ Quoted.isOpener c = true

/-- What is wrong with a token that is not the last: it is an argument that stands between quotes
and ends in a backslash. -/
inductive Overrun : Token → WriteError → Prop
  | mk {arg : String} :
      arg.toList.getLast? = some '\\' → NeedsQuotes arg →
        Overrun (.literal arg) (.trailingBackslash (Piece.quoted arg).render)

/-- This is what is wrong with an element, and nothing is wrong with those before it. -/
def IsFirst {α : Type} (wrong : α → WriteError → Prop) (as : List α) (why : WriteError) : Prop :=
  ∃ before a after, as = before ++ a :: after ∧ wrong a why ∧ ∀ b ∈ before, ∀ why', ¬ wrong b why'

/-- The text starts with a quote and ends in a backslash and a quote, as if that last quote were
escaped. -/
def LooksUnclosed (text : String) : Prop :=
  ['"'] <+: text.toList ∧ ['\\', '"'] <:+ text.toList

/-! ## What is wrong at a place -/

theorem flaw_missing_iff : Flaw .missing why ↔ why = .noCommand := by
  constructor
  · rintro ⟨⟩
    rfl
  · rintro rfl
    exact .noCommand

theorem flaw_command_iff {name : String} :
    Flaw (.token (.command name)) why ↔ ¬ IsCommandName name ∧ why = .badName name := by
  constructor
  · intro h
    cases h with
    | badName hname => exact ⟨hname, rfl⟩
  · rintro ⟨hname, rfl⟩
    exact .badName hname

theorem flaw_literal_iff {arg : String} :
    Flaw (.token (.literal arg)) why ↔
      (∃ c ∈ arg.toList, isControl c = true) ∧ why = .control arg := by
  constructor
  · intro h
    cases h with
    | control hc hcontrol => exact ⟨⟨_, hc, hcontrol⟩, rfl⟩
  · rintro ⟨⟨c, hc, hcontrol⟩, rfl⟩
    exact .control hc hcontrol

/-- **The writer finds exactly the flaws of a place.** -/
theorem piece_eq_error_iff : place.piece = .error why ↔ Flaw place why := by
  cases place with
  | missing =>
    rw [flaw_missing_iff, Place.piece, Except.error.injEq, eq_comm]
  | token token =>
    cases token with
    | command name =>
      rw [flaw_command_iff, ← isName_iff, Place.piece, Token.piece, Piece.ofName]
      split
      · next hname => simp [hname]
      · next hname => simp [hname, eq_comm]
    | literal arg =>
      rw [flaw_literal_iff, ← List.any_eq_true, Place.piece, Token.piece, Piece.ofArgument]
      split
      · next hcontrol => simp [hcontrol, eq_comm]
      · next hcontrol => split <;> simp [hcontrol]

theorem exists_piece_iff_no_flaw :
    (∃ p, place.piece = .ok p) ↔ ∀ why, ¬ Flaw place why := by
  rw [Outcome.exists_eq_ok_iff]
  exact forall_congr' fun why => not_congr piece_eq_error_iff

theorem mem_placesOf_iff {switch : Entry} :
    place ∈ placesOf switch ↔
      place = .missing ∧ switch = [] ∨ ∃ token ∈ flattenOne switch, place = .token token := by
  cases switch with
  | nil => simp [placesOf, flattenOne]
  | cons name args => simp [placesOf, eq_comm]

/-- The places are those of empty switches and those of tokens. -/
theorem mem_places_iff :
    place ∈ places switches ↔
      place = .missing ∧ [] ∈ switches ∨ ∃ token ∈ flatten switches, place = .token token := by
  simp only [places, flatten, List.mem_flatMap, mem_placesOf_iff]
  constructor
  · rintro ⟨switch, hmem, ⟨rfl, rfl⟩ | ⟨token, htoken, rfl⟩⟩
    · exact .inl ⟨rfl, hmem⟩
    · exact .inr ⟨token, ⟨switch, hmem, htoken⟩, rfl⟩
  · rintro (⟨rfl, hmem⟩ | ⟨token, ⟨switch, hmem, htoken⟩, rfl⟩)
    · exact ⟨[], hmem, .inl ⟨rfl, rfl⟩⟩
    · exact ⟨switch, hmem, .inr ⟨token, htoken, rfl⟩⟩

/-- No place has a flaw exactly if no switch is empty and every token can be written. -/
theorem forall_places_iff :
    (∀ place ∈ places switches, ∀ why, ¬ Flaw place why) ↔
      (∀ switch ∈ switches, switch ≠ []) ∧ ∀ token ∈ flatten switches, token.IsWritable := by
  constructor
  · intro h
    constructor
    · rintro switch hmem rfl
      exact h _ (mem_places_iff.mpr (.inl ⟨rfl, hmem⟩)) _ .noCommand
    · intro token hmem
      have hpiece : ∃ p, (Place.token token).piece = .ok p :=
        exists_piece_iff_no_flaw.mpr (h _ (mem_places_iff.mpr (.inr ⟨token, hmem, rfl⟩)))
      exact exists_piece_iff.mp hpiece
  · rintro ⟨hne, hwritable⟩ place hmem
    rcases mem_places_iff.mp hmem with ⟨-, hempty⟩ | ⟨token, htoken, rfl⟩
    · exact absurd rfl (hne [] hempty)
    · exact exists_piece_iff_no_flaw.mp (exists_piece_iff.mpr (hwritable token htoken))

/-! ## What is wrong with a token that is not the last -/

/-- What is not empty and is not written bare needs quotes. -/
theorem fitsBare_eq_false_iff {arg : String} (h : arg.toList ≠ []) :
    Piece.fitsBare arg.toList = false ↔ NeedsQuotes arg := by
  rw [NeedsQuotes]
  cases hs : arg.toList with
  | nil => exact absurd hs h
  | cons c s =>
    rw [Piece.fitsBare, Bool.and_eq_false_iff, Bool.not_eq_false', Bool.not_eq_false', or_comm]
    refine or_congr ?_ ?_
    · simp [or_comm]
    · simp

theorem overrun_iff :
    Overrun token why ↔
      token.runsOn = true ∧ why = .trailingBackslash token.written.render := by
  cases token with
  | command name =>
    constructor
    · intro h
      cases h
    · rintro ⟨h, -⟩
      cases h
  | literal arg =>
    have hne (hlast : arg.toList.getLast? = some '\\') : arg.toList ≠ [] := by
      intro hnil
      rw [hnil] at hlast
      cases hlast
    rw [Token.runsOn, Token.written, Bool.and_eq_true, Bool.not_eq_true', decide_eq_true_eq]
    constructor
    · rintro ⟨hlast, hquotes⟩
      have hfits := (fitsBare_eq_false_iff (hne hlast)).mpr hquotes
      rw [hfits]
      exact ⟨⟨rfl, hlast⟩, rfl⟩
    · rintro ⟨⟨hfits, hlast⟩, rfl⟩
      rw [hfits]
      exact .mk hlast ((fitsBare_eq_false_iff (hne hlast)).mp hfits)

/-- What is between quotes looks unclosed exactly if it ends in a backslash. -/
theorem looksUnclosed_quoted_iff {arg : String} :
    LooksUnclosed (Piece.quoted arg).render ↔ arg.toList.getLast? = some '\\' := by
  rw [LooksUnclosed, Piece.render, String.toList_ofList, ← Quoted.getLast?_escape]
  rcases List.eq_nil_or_concat (Quoted.escape arg.toList) with hnil | ⟨init, c, hinit⟩
  · rw [hnil]
    decide
  · have hsplit : '"' :: (init ++ [c]) ++ ['"'] = ('"' :: init) ++ [c, '"'] := by simp
    rw [hinit, List.concat_eq_append, hsplit, List.getLast?_concat, Option.some.injEq]
    constructor
    · rintro ⟨-, t, ht⟩
      obtain ⟨-, hends⟩ := List.append_inj' ht rfl
      exact (List.cons.inj hends).1.symm
    · rintro rfl
      exact ⟨List.prefix_append ['"'] _, List.suffix_append _ _⟩

/-- What does not start with a quote does not look unclosed. -/
theorem not_looksUnclosed_of_head? {text : String} (h : text.toList.head? ≠ some '"') :
    ¬ LooksUnclosed text := by
  rintro ⟨⟨s, hs⟩, -⟩
  rw [← hs] at h
  exact h rfl

/-- **An argument that would run on can be told from its written form**: it starts with a quote and
ends in a backslash and a quote. What is written for a name or for any other argument does not. -/
theorem looksUnclosed_render_iff {p : Piece} (h : token.piece = .ok p) :
    LooksUnclosed p.render ↔ ∃ why, Overrun token why := by
  obtain rfl := eq_written_of_piece h
  have hruns : (∃ why, Overrun token why) ↔ token.runsOn = true := by
    simp only [overrun_iff, exists_eq_right]
  rw [hruns]
  cases token with
  | command name =>
    refine iff_of_false (not_looksUnclosed_of_head? ?_) Bool.false_ne_true
    show ("/" ++ name).toList.head? ≠ some '"'
    rw [String.toList_append]
    exact fun h => by cases h
  | literal arg =>
    rw [Token.written, Token.runsOn]
    cases hfits : Piece.fitsBare arg.toList with
    | false => simpa using looksUnclosed_quoted_iff
    | true =>
      refine iff_of_false (not_looksUnclosed_of_head? fun hhead => ?_) (by simp)
      obtain ⟨s, hs⟩ := List.head?_eq_some_iff.mp hhead
      have hs : arg.toList = '"' :: s := hs
      rw [hs, Piece.fitsBare] at hfits
      cases hfits

/-! ## The first thing that is wrong -/

/-- What is reported of the first element at which a test finds something is reported of the first
at which anything is wrong, if the test finds all that is. -/
theorem isFirst_iff_find? {α : Type} {wrong : α → WriteError → Prop} {test : α → Bool}
    {report : α → WriteError} (h : ∀ a why, wrong a why ↔ test a = true ∧ why = report a)
    {as : List α} :
    IsFirst wrong as why ↔ ∃ a, as.find? test = some a ∧ why = report a := by
  have hnone (a : α) : (∀ why', ¬ wrong a why') ↔ (!test a) = true := by
    simp [h]
  simp only [IsFirst, List.find?_eq_some_iff_append, hnone]
  simp only [h]
  constructor
  · rintro ⟨before, a, after, has, ⟨ha, hwhy⟩, hbefore⟩
    exact ⟨a, ⟨ha, before, after, has, hbefore⟩, hwhy⟩
  · rintro ⟨a, ⟨ha, before, after, has, hbefore⟩, hwhy⟩
    exact ⟨before, a, after, has, ⟨ha, hwhy⟩, hbefore⟩

/-- Making the pieces fails as the first place does that has a flaw. -/
theorem mapM_piece_eq_error_iff {ps : List Place} :
    ps.mapM Place.piece = .error why ↔ IsFirst Flaw ps why := by
  simp only [Outcome.mapM_eq_error_iff, IsFirst, exists_piece_iff_no_flaw, piece_eq_error_iff]
  refine exists_congr fun before => exists_congr fun place => exists_congr fun after => ?_
  exact and_congr_right fun _ => and_comm

/-- Joining the pieces fails as the first token but the last does that would run on. -/
theorem join_map_written_eq_error_iff :
    join (tokens.map Token.written) = .error why ↔ IsFirst Overrun tokens.dropLast why := by
  have hfirst : IsFirst Overrun tokens.dropLast why ↔
      ∃ token, tokens.dropLast.find? Token.runsOn = some token ∧
        why = .trailingBackslash token.written.render := by
    refine isFirst_iff_find? fun token why => ?_
    exact overrun_iff
  rw [join_map_written, hfirst]
  cases tokens.dropLast.find? Token.runsOn <;> simp [eq_comm]

/-- **What is reported**: the first flaw of a place, or if there is none the first token that would
run on. -/
theorem write_eq_error_iff :
    write switches = .error why ↔
      IsFirst Flaw (places switches) why ∨
        (∀ place ∈ places switches, ∀ why', ¬ Flaw place why') ∧
          IsFirst Overrun (flatten switches).dropLast why := by
  rw [write_eq, Outcome.bind_eq_error_iff, mapM_piece_eq_error_iff]
  refine or_congr Iff.rfl ?_
  simp only [← exists_piece_iff_no_flaw, ← Outcome.exists_mapM_eq_ok_iff]
  rw [← join_map_written_eq_error_iff]
  -- whatever pieces there are, they are those of the tokens
  have hpieces {ps : List Piece} (h : (places switches).mapM Place.piece = .ok ps) :
      ps = (flatten switches).map Token.written := by
    have hflaws := Outcome.exists_mapM_eq_ok_iff.mp ⟨ps, h⟩
    simp only [exists_piece_iff_no_flaw] at hflaws
    rw [places_eq (forall_places_iff.mp hflaws).1, List.mapM_map] at h
    exact mapM_piece_eq h
  constructor
  · rintro ⟨ps, hps, hjoin⟩
    rw [hpieces hps] at hjoin
    exact ⟨⟨ps, hps⟩, hjoin⟩
  · rintro ⟨⟨ps, hps⟩, hjoin⟩
    rw [← hpieces hps] at hjoin
    exact ⟨ps, hps, hjoin⟩

/-- **Nothing is reported** exactly if no place has a flaw and no token but the last would run
on. -/
theorem exists_write_iff_no_flaw :
    (∃ line, write switches = .ok line) ↔
      (∀ place ∈ places switches, ∀ why, ¬ Flaw place why) ∧
        ∀ token ∈ (flatten switches).dropLast, ∀ why, ¬ Overrun token why := by
  have hruns (token : Token) : (∀ why, ¬ Overrun token why) ↔ token.runsOn = false := by
    simp [overrun_iff]
  rw [exists_write_iff, forall_places_iff, and_assoc]
  simp only [hruns]

/-- Switches that were read have no flaw but control characters in their arguments. -/
theorem of_flaw_of_parse {line : String} (h : parse line = .ok switches)
    (hmem : place ∈ places switches) (hflaw : Flaw place why) : ∃ arg, why = .control arg := by
  have hreadable := exists_parse_eq_ok_iff.mp ⟨line, h⟩
  rcases mem_places_iff.mp hmem with ⟨-, hempty⟩ | ⟨token, htoken, rfl⟩
  · exact absurd (hreadable [] hempty) fun h => h
  · have hne : ∀ switch ∈ switches, switch ≠ [] := fun switch hmem => (hreadable switch hmem).ne_nil
    have htoken := (isReadable_flatten_iff hne).mpr hreadable token htoken
    cases hflaw with
    | badName hname => exact absurd htoken hname
    | control => exact ⟨_, rfl⟩

/-- So what is reported of them is a control character or an argument that would run on. -/
theorem of_write_eq_error_of_parse {line : String} (h : parse line = .ok switches)
    (hwrite : write switches = .error why) :
    (∃ arg, why = .control arg) ∨ ∃ piece, why = .trailingBackslash piece := by
  rcases write_eq_error_iff.mp hwrite with hfirst | ⟨-, hfirst⟩
  · obtain ⟨before, place, after, hplaces, hflaw, -⟩ := hfirst
    have hmem : place ∈ places switches := by simp [hplaces]
    exact .inl (of_flaw_of_parse h hmem hflaw)
  · obtain ⟨_, token, _, _, hoverrun, -⟩ := hfirst
    exact .inr ⟨_, (overrun_iff.mp hoverrun).2⟩

/-! ## When switches can be written -/

/-- **When switches can be written**, and what is reported if they cannot. They can if no place has
a flaw and no token but the last would run on. A flaw is reported before a token that would run on,
wherever they stand, and of a kind what stands first. A token would run on exactly if its written
form looks unclosed. Of switches that were read from a line, nothing is reported but a control
character or an argument that would run on, and either may be. -/
theorem write_verdict :
    (∀ switches, (∃ line, write switches = .ok line) ↔
      (∀ place ∈ places switches, ∀ why, ¬ Flaw place why) ∧
        ∀ token ∈ (flatten switches).dropLast, ∀ why, ¬ Overrun token why) ∧
    (∀ switches why, write switches = .error why ↔
      IsFirst Flaw (places switches) why ∨
        (∀ place ∈ places switches, ∀ why', ¬ Flaw place why') ∧
          IsFirst Overrun (flatten switches).dropLast why) ∧
    (∀ (token : Token) p, token.piece = .ok p →
      (LooksUnclosed p.render ↔ ∃ why, Overrun token why)) ∧
    (∀ line switches why, parse line = .ok switches → write switches = .error why →
      (∃ arg, why = .control arg) ∨ ∃ piece, why = .trailingBackslash piece) ∧
    (∃ line switches arg, parse line = .ok switches ∧ write switches = .error (.control arg)) ∧
    ∃ line switches piece,
      parse line = .ok switches ∧ write switches = .error (.trailingBackslash piece) := by
  refine ⟨fun switches => exists_write_iff_no_flaw, fun switches why => write_eq_error_iff,
    fun token p => looksUnclosed_render_iff, fun line switches why => of_write_eq_error_of_parse,
    ?_, ?_⟩
  · exact ⟨"/a \x01", [["a", "\x01"]], "\x01", by cbv, by cbv⟩
  · exact ⟨"/a \" \\\"\tb", [["a", " \\", "b"]], "\" \\\"", by cbv, by cbv⟩

/-- An argument that would run on, an empty switch and a name with a capital: what is reported is
the empty switch, and without it and what follows it the argument. -/
theorem write_verdict_threeMistakes :
    IsFirst Overrun (flatten [["a", " \\", "b"]]).dropLast (.trailingBackslash "\" \\\"") ∧
      IsFirst Flaw (places [["a", " \\", "b"], [], ["B"]]) .noCommand ∧
      write [["a", " \\", "b"], [], ["B"]] = .error .noCommand := by
  obtain ⟨-, herror, -⟩ := write_verdict
  have hrun : write [["a", " \\", "b"]] = .error (.trailingBackslash "\" \\\"") := by cbv
  rcases (herror _ _).mp hrun with ⟨_, _, _, _, hflaw, -⟩ | ⟨hnone, hfirst⟩
  · cases hflaw
  · have hempty : IsFirst Flaw (places [["a", " \\", "b"], [], ["B"]]) .noCommand :=
      ⟨places [["a", " \\", "b"]], .missing, places [["B"]], rfl, .noCommand, hnone⟩
    exact ⟨hfirst, hempty, (herror _ _).mpr (.inl hempty)⟩

end CommandBar.Switch
