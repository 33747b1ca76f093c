import CommandBar.Proofs.Outcome
import CommandBar.Proofs.Switch.Assembly
import CommandBar.Proofs.Switch.Spelling
import CommandBar.Switch.Parser
import CommandBar.Switch.Printer
import Mathlib.Data.List.Defs

/-!
# Switches that are written are read back

The writer is free to put any argument between quotes and does not double backslashes, and the
reader takes the longest quoted run that ends where a word may end. They agree because the writer
refuses the lines on which a quoted piece would run on into the next.

- `Piece.token`, `Piece.Fits`: the token that a piece is read back as, and what it may hold.
- `isUnit_render`: a piece is read back in front of a place where a word may end.
- `units_line`, `tokenize_of_write_eq_ok`: a line of pieces is read back as their tokens.
- `parse_write`: **a line that could be written is read back as the switches it was written from.**
-/

namespace CommandBar.Switch

namespace Piece

/-- The token that the piece is read back as. -/
def token : Piece → Token
  | command name => .command name
  | bare arg => .literal arg
  | quoted arg => .literal arg

/-- What the writer puts into a piece: a name, a bare word, and what has no control character. -/
def Fits : Piece → Prop
  | command name => isName name.toList = true
  | bare arg => fitsBare arg.toList = true
  | quoted arg => ∀ c ∈ arg.toList, isControl c = false

theorem of_ofName_eq_ok {name : String} {piece : Piece} (h : ofName name = .ok piece) :
    piece.Fits ∧ piece.token = .command name := by
  rw [ofName] at h
  split at h
  · next hname =>
    cases h
    exact ⟨hname, rfl⟩
  · cases h

theorem of_ofArgument_eq_ok {arg : String} {piece : Piece} (h : ofArgument arg = .ok piece) :
    piece.Fits ∧ piece.token = .literal arg := by
  rw [ofArgument] at h
  split at h
  · cases h
  · next hcontrol =>
    split at h
    · next hbare =>
      cases h
      exact ⟨hbare, rfl⟩
    · cases h
      refine ⟨?_, rfl⟩
      intro c hc
      simpa using fun h => hcontrol (List.any_eq_true.mpr ⟨c, hc, h⟩)

/-! ## A piece is read back -/

/-- A piece that does not end in a backslash spells its token. -/
theorem spellsToken_render {piece : Piece} (hfits : piece.Fits)
    (hlast : piece.endsInBackslash = false) : SpellsToken piece.token piece.render.toList := by
  cases piece with
  | command name =>
    obtain ⟨hne, hall⟩ : name.toList ≠ [] ∧ ∀ c ∈ name.toList, isNameChar c = true := by
      simpa [Fits, isName] using hfits
    have hspells := SpellsToken.command hne hall
    rw [String.ofList_toList] at hspells
    show SpellsToken (.command name) ("/" ++ name).toList
    rw [String.toList_append]
    exact hspells
  | bare arg =>
    have hfits : fitsBare arg.toList = true := hfits
    have harg := String.ofList_toList (s := arg)
    show SpellsToken (.literal arg) arg.toList
    rw [← harg]
    rw [String.toList_ofList]
    cases hs : arg.toList with
    | nil =>
      rw [hs] at hfits
      cases hfits
    | cons c w =>
      rw [hs, fitsBare, Bool.and_eq_true, Bool.not_eq_true', Bool.not_eq_true'] at hfits
      refine .bare hfits.1 fun d hd => ?_
      have hd := List.any_eq_false.mp hfits.2 d hd
      simpa [and_comm] using hd
  | quoted arg =>
    have hspells : Quoted.Spells arg.toList ('"' :: (Quoted.escape arg.toList ++ ['"'])) := by
      refine .mk (by decide) (by decide) hfits ?_
      simpa [endsInBackslash] using hlast
    have htoken := SpellsToken.quoted hspells
    rw [String.ofList_toList] at htoken
    show SpellsToken (.literal arg) (String.ofList _).toList
    rw [String.toList_ofList]
    exact htoken

/-- **A piece is read back** where a word may end behind it, provided that it comes last if it ends
in a backslash. -/
theorem isUnit_render {piece : Piece} {rest : List Char} (hfits : piece.Fits)
    (hend : atWordEnd rest = true) (hlast : piece.endsInBackslash = true → rest = []) :
    IsUnit (piece.render.toList ++ rest) piece.token rest := by
  cases hback : piece.endsInBackslash with
  | false => exact isUnit_of_spellsToken (spellsToken_render hfits hback) hend
  | true =>
    obtain rfl := hlast hback
    cases piece with
    | command => cases hback
    | bare => cases hback
    | quoted arg =>
      have hback : arg.toList.getLast? = some '\\' := by simpa [endsInBackslash] using hback
      obtain ⟨shorter, hcloses⟩ : ∃ shorter,
          Quoted.closes ('"' :: (Quoted.escape arg.toList ++ ['"'])) =
            ⟨arg.toList.reverse, []⟩ :: shorter :=
        Quoted.closes_of_trailing_backslash (by decide) (by decide) hfits hback fun _ _ => rfl
      have hunit := isUnit_of_closes hcloses hend
      rw [String.ofList_toList] at hunit
      show IsUnit ((String.ofList _).toList ++ []) (.literal arg) []
      rw [String.toList_ofList, List.append_nil]
      exact hunit

end Piece

/-! ## A line is read back -/

/-- The space in front of the next piece is a gap. -/
theorem allBlank_space : AllBlank [' '] := by
  intro c hc
  obtain rfl := List.mem_singleton.mp hc
  decide

/-- **A line of pieces** is read back as their tokens. The gap in front of it carries the induction:
what follows a piece is a space and the line of the others. -/
theorem units_line : ∀ {ps : List Piece} {gap : List Char}, AllBlank gap → (∀ p ∈ ps, p.Fits) →
    (∀ p ∈ ps.dropLast, p.endsInBackslash = false) →
      Units (gap ++ [' '].intercalate (ps.map (·.render.toList))) (ps.map Piece.token)
  | [], gap, hgap, _, _ => by
    show Units (gap ++ []) []
    rw [List.append_nil]
    exact .done hgap
  | [p], gap, hgap, hfits, _ => by
    have hdone : Units [] [] := .done fun c hc => absurd hc List.not_mem_nil
    have hunit : IsUnit (p.render.toList ++ []) p.token [] :=
      Piece.isUnit_render (hfits p List.mem_cons_self) rfl fun _ => rfl
    rw [List.append_nil] at hunit
    show Units (gap ++ [' '].intercalate [p.render.toList]) [p.token]
    rw [List.intercalate_singleton]
    exact .cons hgap hunit hdone
  | p :: q :: ps, gap, hgap, hfits, hlast => by
    have hrest := units_line allBlank_space (fun p' hp' => hfits p' (List.mem_cons_of_mem p hp'))
      fun p' hp' => hlast p' (List.mem_cons_of_mem p hp')
    have hend : atWordEnd ([' '] ++ [' '].intercalate ((q :: ps).map (·.render.toList))) = true :=
      show isBlank ' ' = true by decide
    have hunit := Piece.isUnit_render (hfits p List.mem_cons_self) hend fun hback => by
      rw [hlast p List.mem_cons_self] at hback
      cases hback
    have hline := Units.cons hgap hunit hrest
    show Units (gap ++ [' '].intercalate (_ :: _ :: ps.map (·.render.toList))) _
    rw [List.intercalate_cons_cons, List.append_assoc]
    exact hline

/-! ## What the writer hands on -/

/-- The pieces of arguments fit, and are read back as literals. -/
theorem of_mapM_ofArgument_eq_ok {args : List String} {ps : List Piece}
    (h : args.mapM Piece.ofArgument = .ok ps) :
    (∀ p ∈ ps, p.Fits) ∧ ps.map Piece.token = args.map .literal :=
  ⟨Outcome.forall_mem_of_mapM (fun _ _ hp => (Piece.of_ofArgument_eq_ok hp).1) h,
    Outcome.map_eq_map_of_mapM (fun _ _ hp => (Piece.of_ofArgument_eq_ok hp).2) h⟩

/-- The pieces of a switch fit, and are read back as its tokens. -/
theorem of_pieces_eq_ok {switch : Entry} {ps : List Piece} (h : pieces switch = .ok ps) :
    switch ≠ [] ∧ (∀ p ∈ ps, p.Fits) ∧ ps.map Piece.token = flattenOne switch := by
  cases switch with
  | nil => cases h
  | cons name args =>
    obtain ⟨command, hcommand, h⟩ := Outcome.bind_eq_ok_iff.mp h
    obtain ⟨ps', hps, h⟩ := Outcome.bind_eq_ok_iff.mp h
    cases h
    obtain ⟨hfits, htoken⟩ := Piece.of_ofName_eq_ok hcommand
    obtain ⟨hfits', htokens⟩ := of_mapM_ofArgument_eq_ok hps
    refine ⟨List.cons_ne_nil name args, List.forall_mem_cons.mpr ⟨hfits, hfits'⟩, ?_⟩
    rw [List.map_cons, htoken, htokens, flattenOne]

/-- The pieces of switches fit, and are read back as their tokens. -/
theorem of_mapM_pieces_eq_ok {switches : List Entry} {pss : List (List Piece)}
    (h : switches.mapM pieces = .ok pss) :
    (∀ switch ∈ switches, switch ≠ []) ∧ (∀ p ∈ pss.flatten, p.Fits) ∧
      pss.flatten.map Piece.token = flatten switches := by
  refine ⟨?_, ?_, ?_⟩
  · intro switch hmem
    obtain ⟨ps, hps⟩ := Outcome.exists_mapM_eq_ok_iff.mp ⟨pss, h⟩ switch hmem
    exact (of_pieces_eq_ok hps).1
  · have hfits := Outcome.forall_mem_of_mapM (fun _ _ hps => (of_pieces_eq_ok hps).2.1) h
    intro p hp
    obtain ⟨ps, hps, hp⟩ := List.mem_flatten.mp hp
    exact hfits ps hps p hp
  · have htokens := Outcome.map_eq_map_of_mapM (fun _ _ hps => (of_pieces_eq_ok hps).2.2) h
    rw [List.map_flatten, htokens]
    rfl

/-- Pieces that are joined end in no backslash, but for the last, and stand with a space between
them. -/
theorem of_join_eq_ok {ps : List Piece} {line : String} (h : join ps = .ok line) :
    (∀ p ∈ ps.dropLast, p.endsInBackslash = false) ∧
      line.toList = [' '].intercalate (ps.map (·.render.toList)) := by
  rw [join] at h
  split at h
  · cases h
  · next hnone =>
    cases h
    constructor
    · intro p hp
      simpa using List.find?_eq_none.mp hnone p hp
    · rw [String.toList_intercalate, List.map_map]
      rfl

/-! ## The round trip -/

/-- The tokens of a line that could be written are those of the switches, none of which is empty. -/
theorem tokenize_of_write_eq_ok {switches : List Entry} {line : String}
    (h : write switches = .ok line) :
    (∀ switch ∈ switches, switch ≠ []) ∧ tokenize line = .ok (flatten switches) := by
  obtain ⟨pss, hpieces, hjoin⟩ := Outcome.bind_eq_ok_iff.mp h
  obtain ⟨hne, hfits, htokens⟩ := of_mapM_pieces_eq_ok hpieces
  obtain ⟨hlast, hline⟩ := of_join_eq_ok hjoin
  have hunits := units_line (show AllBlank [] from fun c hc => absurd hc List.not_mem_nil)
    hfits hlast
  rw [List.nil_append, ← hline, htokens] at hunits
  exact ⟨hne, tokensOf_eq_ok_iff.mpr hunits⟩

/-- **Switches that can be written are read back.** The arguments may be empty and may hold blanks,
slashes, quotes and backslashes; where the line would not be read back as the switches, it is not
written. -/
theorem parse_write {switches : List Entry} {line : String} (h : write switches = .ok line) :
    parse line = .ok switches := by
  obtain ⟨hne, htokenize⟩ := tokenize_of_write_eq_ok h
  rw [parse, htokenize]
  exact assemble_flatten hne

/-- The line `/a "" "/\\"" f\ /b "c d" " \\"` is read back: an empty argument, an escaped quote
behind a backslash, a bare word that ends in a backslash, and one more of these between quotes at
the end of the line. -/
theorem parse_write_backslashes :
    write [["a", "", "/\\\"", "f\\"], ["b", "c d", " \\\\"]] =
        .ok "/a \"\" \"/\\\\\"\" f\\ /b \"c d\" \" \\\\\"" ∧
      parse "/a \"\" \"/\\\\\"\" f\\ /b \"c d\" \" \\\\\"" =
        .ok [["a", "", "/\\\"", "f\\"], ["b", "c d", " \\\\"]] :=
  ⟨by cbv, parse_write (by cbv)⟩

end CommandBar.Switch
