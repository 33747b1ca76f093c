import CommandBar.Proofs.Switch.Image

/-!
# What can be written

The writer makes its pieces switch by switch and then looks at the ends of the pieces. It could as
well go through the places of all switches from left to right, each name and each argument and each
switch that has neither: what it refuses at a place can be told from that place alone, and whether a
piece would run on from its token.

- `Place`, `places`, `write_eq`: the places, and the line as that of the places.
- `Token.IsWritable`, `Token.runsOn`: the tokens that have a piece, and those whose piece would run
  on into the next.
- `Token.written`, `eq_written_of_piece`: the piece of a token that has one.
- `exists_write_iff`: **the switches that can be written** are those of such tokens, in which none
  but the last would run on.
-/

namespace CommandBar.Switch

variable {token : Token} {tokens : List Token} {switches : List Entry}

namespace Token

/-- The piece that writes the token. -/
def piece : Token → Except WriteError Piece
  | command name => Piece.ofName name
  | literal text => Piece.ofArgument text

/-- The piece that writes the token, if there is one. -/
def written : Token → Piece
  | command name => .command name
  | literal text => if Piece.fitsBare text.toList then .bare text else .quoted text

/-- The token can be written: a command has a command's name, and an argument has no control
character. -/
def IsWritable : Token → Prop
  | command name => IsCommandName name
  | literal text => ∀ c ∈ text.toList, isControl c = false

/-- The token is written between quotes and ends in a backslash, so that the closing quote would be
taken for an escaped one if another followed. -/
def runsOn : Token → Bool
  | command _ => false
  | literal text => !Piece.fitsBare text.toList && text.toList.getLast? = some '\\'

end Token

/-- A place of switches at which something is to be written. -/
inductive Place where
  /-- The place of the command that an empty switch does not have. -/
  | missing
  /-- A name or an argument. -/
  | token (token : Token)
  deriving Repr, DecidableEq

/-- The piece for the place. -/
def Place.piece : Place → Except WriteError Piece
  | .missing => .error .noCommand
  | .token t => t.piece

/-- The places of one switch: its name, then its arguments. -/
def placesOf : Entry → List Place
  | [] => [.missing]
  | name :: args => (flattenOne (name :: args)).map .token

/-- The places of switches, from left to right. -/
def places (switches : List Entry) : List Place :=
  switches.flatMap placesOf

/-! ## The line of the places -/

/-- The pieces of a switch are those of its places. -/
theorem pieces_eq (switch : Entry) : pieces switch = (placesOf switch).mapM Place.piece := by
  cases switch with
  | nil => rfl
  | cons name args =>
    rw [placesOf, flattenOne, List.map_cons, List.mapM_cons, List.mapM_map, List.mapM_map]
    rfl

/-- Whatever is made of the pieces of switches, it is made of those of their places. What is made is
left open, for the pieces of a switch are put in front of the others. -/
theorem mapM_pieces_bind {α : Type} (switches : List Entry)
    (make : List Piece → Except WriteError α) :
    (switches.mapM pieces >>= fun pss => make pss.flatten) =
      (places switches).mapM Place.piece >>= make := by
  induction switches generalizing make with
  | nil => rfl
  | cons switch switches ih =>
    have hplaces : places (switch :: switches) = placesOf switch ++ places switches := rfl
    rw [hplaces, List.mapM_append, List.mapM_cons, pieces_eq]
    simp only [bind_assoc, pure_bind, List.flatten_cons]
    exact congrArg _ (funext fun ps => ih fun ps' => make (ps ++ ps'))

/-- **The line of switches is that of their places.** -/
theorem write_eq (switches : List Entry) :
    write switches = (places switches).mapM Place.piece >>= join :=
  mapM_pieces_bind switches join

/-- Where no switch is empty, the places are the tokens. -/
theorem places_eq (h : ∀ switch ∈ switches, switch ≠ []) :
    places switches = (flatten switches).map .token := by
  rw [places, flatten, List.map_flatMap, List.flatMap_def, List.flatMap_def]
  refine congrArg List.flatten (List.map_congr_left fun switch hmem => ?_)
  obtain ⟨name, args, rfl⟩ := List.exists_cons_of_ne_nil (h switch hmem)
  rfl

/-- So the line is that of the tokens. -/
theorem write_eq_tokens (h : ∀ switch ∈ switches, switch ≠ []) :
    write switches = (flatten switches).mapM Token.piece >>= join := by
  rw [write_eq, places_eq h, List.mapM_map]
  rfl

/-! ## The tokens that can be written -/

theorem isName_iff {name : String} : Piece.isName name.toList = true ↔ IsCommandName name := by
  simp [Piece.isName, IsCommandName]

theorem exists_piece_iff : (∃ p, token.piece = .ok p) ↔ token.IsWritable := by
  cases token with
  | command name =>
    show (∃ p, Piece.ofName name = .ok p) ↔ IsCommandName name
    rw [← isName_iff, Piece.ofName]
    split <;> simp_all
  | literal text =>
    show (∃ p, Piece.ofArgument text = .ok p) ↔ ∀ c ∈ text.toList, isControl c = false
    rw [Piece.ofArgument]
    split
    · next hcontrol => simpa using hcontrol
    · next hcontrol =>
      have hplain : ∀ c ∈ text.toList, isControl c = false := by simpa using hcontrol
      split <;> simpa using hplain

theorem eq_written_of_piece {p : Piece} (h : token.piece = .ok p) : p = token.written := by
  cases token with
  | command name =>
    rw [Token.piece, Piece.ofName] at h
    split at h <;> cases h
    rfl
  | literal text =>
    rw [Token.piece, Piece.ofArgument] at h
    rw [Token.written]
    split at h
    · cases h
    · split at h <;> cases h <;> simp_all

theorem mapM_piece_eq {ps : List Piece} (h : tokens.mapM Token.piece = .ok ps) :
    ps = tokens.map Token.written := by
  have hmap : ps.map id = tokens.map Token.written :=
    Outcome.map_eq_map_of_mapM (fun _ _ => eq_written_of_piece) h
  rwa [List.map_id] at hmap

/-- Whether a piece runs on can be told from the token that it writes. -/
theorem endsInBackslash_written (token : Token) :
    token.written.endsInBackslash = token.runsOn := by
  cases token with
  | command name => rfl
  | literal text =>
    rw [Token.written, Token.runsOn]
    split <;> simp_all [Piece.endsInBackslash]

/-- The pieces of tokens are joined unless that of a token but the last would run on. -/
theorem join_map_written (tokens : List Token) :
    join (tokens.map Token.written) =
      match tokens.dropLast.find? Token.runsOn with
      | some token => .error (.trailingBackslash token.written.render)
      | none => .ok (" ".intercalate (tokens.map fun token => token.written.render)) := by
  have hends : Piece.endsInBackslash ∘ Token.written = Token.runsOn :=
    funext endsInBackslash_written
  rw [join, ← List.map_dropLast, List.find?_map, hends, List.map_map]
  cases tokens.dropLast.find? Token.runsOn <;> rfl

theorem exists_join_iff :
    (∃ line, join (tokens.map Token.written) = .ok line) ↔
      ∀ token ∈ tokens.dropLast, token.runsOn = false := by
  rw [join_map_written]
  cases hfind : tokens.dropLast.find? Token.runsOn with
  | none => simpa using hfind
  | some token =>
    have hruns := List.find?_some hfind
    have hmem := List.mem_of_find?_eq_some hfind
    constructor
    · rintro ⟨line, h⟩
      cases h
    · intro h
      rw [h token hmem] at hruns
      cases hruns

/-- The tokens can be written as a line exactly if each can be written, and none but the last would
run on. -/
theorem exists_line_iff :
    (∃ line, tokens.mapM Token.piece >>= join = .ok line) ↔
      (∀ token ∈ tokens, token.IsWritable) ∧ ∀ token ∈ tokens.dropLast, token.runsOn = false := by
  have hpieces : (∀ token ∈ tokens, token.IsWritable) ↔ ∃ ps, tokens.mapM Token.piece = .ok ps := by
    rw [Outcome.exists_mapM_eq_ok_iff]
    exact forall₂_congr fun token _ => exists_piece_iff.symm
  rw [hpieces, ← exists_join_iff]
  constructor
  · rintro ⟨line, h⟩
    obtain ⟨ps, hps, hjoin⟩ := Outcome.bind_eq_ok_iff.mp h
    rw [mapM_piece_eq hps] at hjoin
    exact ⟨⟨ps, hps⟩, line, hjoin⟩
  · rintro ⟨⟨ps, hps⟩, line, hjoin⟩
    rw [← mapM_piece_eq hps] at hjoin
    exact ⟨line, Outcome.bind_eq_ok_iff.mpr ⟨ps, hps, hjoin⟩⟩

/-- **The switches that can be written**: none is empty, every name is a command's, no argument has
a control character, and none but the last would run on into the next. -/
theorem exists_write_iff :
    (∃ line, write switches = .ok line) ↔
      (∀ switch ∈ switches, switch ≠ []) ∧ (∀ token ∈ flatten switches, token.IsWritable) ∧
        ∀ token ∈ (flatten switches).dropLast, token.runsOn = false := by
  constructor
  · rintro ⟨line, h⟩
    have hne := (tokenize_of_write_eq_ok h).1
    rw [write_eq_tokens hne] at h
    exact ⟨hne, exists_line_iff.mp ⟨line, h⟩⟩
  · rintro ⟨hne, htokens⟩
    rw [write_eq_tokens hne]
    exact exists_line_iff.mpr htokens

end CommandBar.Switch
