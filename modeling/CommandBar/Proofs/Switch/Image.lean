import CommandBar.Proofs.Quoted.Longest
import CommandBar.Proofs.Switch.Concatenation
import CommandBar.Proofs.Switch.RoundTrip
import Mathlib.Data.List.Defs

/-!
# What can be read from a line

Which switches some line spells. The writer refuses more than it would have to, since it puts a
space between the pieces; with tabs in their place every argument that can be read at all can be
read in any position, because a tab keeps a quoted argument from running on into the next.

- `IsCommandName`, `IsArgument`, `IsReadable`: the names, the arguments and the switches that can be
  read.
- `IsUnit.isReadable`: a token of a line is one that can be read.
- `exists_isUnit`, `exists_tokensOf`: every such token, and every list of them, is read from a text.
- `exists_parse_iff`: **the switches that some line spells** are those that can be read.
-/

namespace CommandBar.Switch

/-- The text can be the argument of a switch. Between quotes stands what has no control character,
and a bare word is not empty and has no blank and no slash. -/
def IsArgument (arg : String) : Prop :=
  (∀ c ∈ arg.toList, isControl c = false) ∨
    arg.toList ≠ [] ∧ ∀ c ∈ arg.toList, isBlank c = false ∧ c ≠ '/'

/-- The text can be the name of a switch. -/
def IsCommandName (name : String) : Prop :=
  name.toList ≠ [] ∧ ∀ c ∈ name.toList, isNameChar c = true

/-- The entry can be a switch: it has a name, and what follows can be arguments. -/
def IsReadable : Entry → Prop
  | [] => False
  | name :: args => IsCommandName name ∧ ∀ arg ∈ args, IsArgument arg

/-- The token can be one of a line. -/
def Token.IsReadable : Token → Prop
  | .command name => IsCommandName name
  | .literal text => IsArgument text

/-! ## The tokens of switches -/

theorem isReadable_flattenOne_iff {switch : Entry} (hne : switch ≠ []) :
    (∀ token ∈ flattenOne switch, token.IsReadable) ↔ IsReadable switch := by
  cases switch with
  | nil => exact absurd rfl hne
  | cons name args =>
    rw [flattenOne, List.forall_mem_cons, List.forall_mem_map]
    rfl

/-- Switches can be read exactly if their tokens can. -/
theorem isReadable_flatten_iff {switches : List Entry} (hne : ∀ switch ∈ switches, switch ≠ []) :
    (∀ token ∈ flatten switches, token.IsReadable) ↔ ∀ switch ∈ switches, IsReadable switch := by
  constructor
  · intro h switch hmem
    refine (isReadable_flattenOne_iff (hne switch hmem)).mp fun token htoken => ?_
    exact h token (List.mem_flatMap.mpr ⟨switch, hmem, htoken⟩)
  · intro h token htoken
    obtain ⟨switch, hmem, htoken⟩ := List.mem_flatMap.mp htoken
    exact (isReadable_flattenOne_iff (hne switch hmem)).mpr (h switch hmem) token htoken

theorem IsReadable.ne_nil {switch : Entry} (h : IsReadable switch) : switch ≠ [] := by
  rintro rfl
  exact h

/-! ## What a line holds -/

/-- **A token of a line can be read**: between quotes there is no control character, and a bare word
is one. -/
theorem IsUnit.isReadable {s rest : List Char} {token : Token} (h : IsUnit s token rest) :
    token.IsReadable := by
  cases h with
  | command hne hname => exact ⟨by rwa [String.toList_ofList], by rwa [String.toList_ofList]⟩
  | quoted hlongest =>
    refine .inl ?_
    rw [String.toList_ofList]
    exact hlongest.1.isControl_of_mem
  | bare hne hw =>
    refine .inr ?_
    rw [String.toList_ofList]
    exact ⟨hne, hw⟩

theorem Units.isReadable {s : List Char} {tokens : List Token} (h : Units s tokens) :
    ∀ token ∈ tokens, token.IsReadable := by
  induction h with
  | done => exact fun token h => absurd h List.not_mem_nil
  | cons _ hunit _ ih => exact List.forall_mem_cons.mpr ⟨hunit.isReadable, ih⟩

/-! ## A line for everything that can be read -/

/-- A word that holds a control character is bare, even if it starts with a quote: no run can get
past the control character, and before it the word does not end. -/
theorem isUnit_of_control {w : List Char} {c : Char} (hw : ∀ d ∈ w, isBlank d = false ∧ d ≠ '/')
    (hc : c ∈ w) (hcontrol : isControl c = true) : IsUnit w (.literal (String.ofList w)) [] := by
  have hne : w ≠ [] := List.ne_nil_of_mem hc
  have hunit : IsUnit (w ++ []) (.literal (String.ofList w)) [] := by
    refine .bare hne hw rfl ?_
    intro content rest hrun
    rw [List.append_nil] at hrun
    cases rest with
    | nil => exact absurd (hrun.mem_rest hcontrol hc) List.not_mem_nil
    | cons d rest => exact (hw d (hrun.suffix.subset List.mem_cons_self)).1
  rwa [List.append_nil] at hunit

/-- What has no control character is written between quotes. -/
theorem exists_isUnit_quoted {text : String} (h : ∀ c ∈ text.toList, isControl c = false) :
    ∃ s, IsUnit s (.literal text) [] := by
  have hfits : (Piece.quoted text).Fits := h
  exact ⟨_, Piece.isUnit_render hfits rfl fun _ => rfl⟩

/-- **Every token that can be read** is read from some text. -/
theorem exists_isUnit {token : Token} (h : token.IsReadable) : ∃ s, IsUnit s token [] := by
  cases token with
  | command name =>
    obtain ⟨hne, hname⟩ := h
    have hunit := IsUnit.command hne hname (show atWordEnd [] = true from rfl)
    rw [String.ofList_toList] at hunit
    exact ⟨_, hunit⟩
  | literal text =>
    by_cases hplain : ∀ c ∈ text.toList, isControl c = false
    · exact exists_isUnit_quoted hplain
    · obtain ⟨c, hc, hcontrol⟩ : ∃ c ∈ text.toList, isControl c = true := by simpa using hplain
      rcases h with h | ⟨-, hw⟩
      · exact absurd h hplain
      · have hunit := isUnit_of_control hw hc hcontrol
        rw [String.ofList_toList] at hunit
        exact ⟨_, hunit⟩

/-- **Every list of such tokens** is read from some text: from theirs, with tabs in between. -/
theorem exists_tokensOf {tokens : List Token} (h : ∀ token ∈ tokens, token.IsReadable) :
    ∃ s, tokensOf s = .ok tokens := by
  have hnone : AllBlank [] := fun c hc => absurd hc List.not_mem_nil
  induction tokens with
  | nil => exact ⟨[], tokensOf_of_allBlank hnone⟩
  | cons token tokens ih =>
    obtain ⟨htoken, htokens⟩ := List.forall_mem_cons.mp h
    obtain ⟨s, hs⟩ := exists_isUnit htoken
    obtain ⟨s', hs'⟩ := ih htokens
    have hone : tokensOf s = .ok [token] := tokensOf_of_units (.cons hnone hs (.done hnone))
    -- a space would not do: the first token may leave a quote open, or end in a backslash
    refine ⟨s ++ (['\t'] ++ s'), ?_⟩
    rw [tokensOf_append (Quoted.seam_tab s'), hone, hs']
    rfl

/-! ## The switches that some line spells -/

theorem exists_parse_eq_ok_iff {switches : List Entry} :
    (∃ line, parse line = .ok switches) ↔ ∀ switch ∈ switches, IsReadable switch := by
  constructor
  · rintro ⟨line, h⟩
    obtain ⟨hne, htokens⟩ := parse_eq_ok_iff.mp h
    exact (isReadable_flatten_iff hne).mp (units_of_tokensOf htokens).isReadable
  · intro h
    have hne : ∀ switch ∈ switches, switch ≠ [] := fun switch hmem => (h switch hmem).ne_nil
    obtain ⟨s, hs⟩ := exists_tokensOf ((isReadable_flatten_iff hne).mpr h)
    refine ⟨String.ofList s, parse_eq_ok_iff.mpr ⟨hne, ?_⟩⟩
    rw [tokenize, String.toList_ofList]
    exact hs

/-- An argument holds no character that is both blank and a control character: between quotes it
would be the one, in a bare word the other. -/
theorem IsArgument.isControl_of_isBlank {arg : String} (h : IsArgument arg) {c : Char}
    (hc : c ∈ arg.toList) (hblank : isBlank c = true) : isControl c = false := by
  rcases h with h | ⟨-, h⟩
  · exact h c hc
  · rw [(h c hc).1] at hblank
    cases hblank

/-- A backslash may be added to any argument. -/
theorem IsArgument.append_backslash {arg : String} (h : IsArgument arg) :
    IsArgument (arg ++ "\\") := by
  have htoList : (arg ++ "\\").toList = arg.toList ++ ['\\'] := String.toList_append
  rw [IsArgument, htoList]
  refine h.imp ?_ ?_
  · intro h
    exact List.forall_mem_append.mpr ⟨h, List.forall_mem_singleton.mpr Quoted.isControl_backslash⟩
  · rintro ⟨-, h⟩
    refine ⟨by simp, List.forall_mem_append.mpr ⟨h, List.forall_mem_singleton.mpr ?_⟩⟩
    exact ⟨by decide, by decide⟩

/-- A backslash may be added to an argument wherever it stands. -/
theorem isReadable_append_backslash {before after : List Entry} {args args' : List String}
    {name arg : String}
    (h : ∀ switch ∈ before ++ (name :: (args ++ arg :: args')) :: after, IsReadable switch) :
    ∀ switch ∈ before ++ (name :: (args ++ (arg ++ "\\") :: args')) :: after,
      IsReadable switch := by
  obtain ⟨hbefore, h⟩ := List.forall_mem_append.mp h
  obtain ⟨⟨hname, hargs⟩, hafter⟩ := List.forall_mem_cons.mp h
  obtain ⟨hargs, harg⟩ := List.forall_mem_append.mp hargs
  obtain ⟨harg, hargs'⟩ := List.forall_mem_cons.mp harg
  refine List.forall_mem_append.mpr ⟨hbefore, List.forall_mem_cons.mpr ⟨⟨hname, ?_⟩, hafter⟩⟩
  exact List.forall_mem_append.mpr
    ⟨hargs, List.forall_mem_cons.mpr ⟨harg.append_backslash, hargs'⟩⟩

/-- **The switches that some line spells** are those with a command's name and with arguments that
are free of control characters, or else words without a slash. So no argument that is read holds a
character that is blank and a control character, and a backslash may end any argument, though the
writer refuses some switches with such arguments. -/
theorem exists_parse_iff :
    (∀ switches : List Entry,
      (∃ line, parse line = .ok switches) ↔ ∀ switch ∈ switches, IsReadable switch) ∧
    (∀ line switches, parse line = .ok switches → ∀ switch ∈ switches, ∀ arg ∈ switch.tail,
      ∀ c ∈ arg.toList, isBlank c = true → isControl c = false) ∧
    (∀ (before after : List Entry) (args args' : List String) (name arg : String),
      (∃ line, parse line = .ok (before ++ (name :: (args ++ arg :: args')) :: after)) →
      ∃ line, parse line = .ok (before ++ (name :: (args ++ (arg ++ "\\") :: args')) :: after)) ∧
    ∃ switches, (∃ line, parse line = .ok switches) ∧
      ∃ piece, write switches = .error (.trailingBackslash piece) := by
  refine ⟨fun switches => exists_parse_eq_ok_iff, ?_, ?_, ?_⟩
  · intro line switches h switch hmem arg harg c hc hblank
    have hreadable := exists_parse_eq_ok_iff.mp ⟨line, h⟩ switch hmem
    cases switch with
    | nil => exact absurd harg List.not_mem_nil
    | cons name args => exact (hreadable.2 arg harg).isControl_of_isBlank hc hblank
  · intro before after args args' name arg h
    exact exists_parse_eq_ok_iff.mpr (isReadable_append_backslash (exists_parse_eq_ok_iff.mp h))
  · exact ⟨[["a", " \\", "b"]], ⟨"/a \" \\\"\tb", by cbv⟩, "\" \\\"", by cbv⟩

/-- A bare word that starts with a quote and holds a control character, and behind it an argument
between quotes: a line spells them, and another one does if both end in a backslash. -/
theorem exists_parse_iff_quoteAndControl :
    (∀ switch ∈ [["a", "\"\x01", " "], ["b", "c d"]], IsReadable switch) ∧
      (∃ line, parse line = .ok [["a", "\"\x01\\", " \\"], ["b", "c d"]]) ∧
      ∀ c ∈ "\"\x01".toList, isBlank c = true → isControl c = false := by
  obtain ⟨himage, hcontrol, hback, -⟩ := exists_parse_iff
  have hparse : parse "/a \"\x01 \" \" /b \"c d\"" = .ok [["a", "\"\x01", " "], ["b", "c d"]] := by
    cbv
  refine ⟨(himage _).mp ⟨_, hparse⟩, ?_, ?_⟩
  · have hword := hback [] [["b", "c d"]] [] [" "] "a" "\"\x01" ⟨_, hparse⟩
    exact hback [] [["b", "c d"]] ["\"\x01\\"] [] "a" " " hword
  · exact hcontrol _ _ hparse _ List.mem_cons_self _ List.mem_cons_self

end CommandBar.Switch
