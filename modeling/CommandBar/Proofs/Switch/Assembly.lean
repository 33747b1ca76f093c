import CommandBar.Proofs.Outcome
import CommandBar.Switch.Assembly

/-!
# Assembling the tokens of switches

Writing switches as tokens and assembling them again are inverse to each other. Where other things
stand among the tokens, what is told of is the first item that is out of place. Whether an item is
can be told from those before it alone, so assembling item by item, with the last switch growing,
comes to the same.

- `chunks_flatten`, `assemble_flatten`: the tokens of switches are assembled to those switches.
- `flatten_chunks`: what is assembled from tokens are the switches that have these tokens.
- `assemble_eq_ok_iff`: tokens are assembled to switches exactly if they are the tokens of these.
- `assembleItems_map_token`: tokens are assembled alike where other things could stand among them.
- `addItem`, `foldlM_addItem`: the switches so far and the next item, and all items in turn.
- `OutOfPlace`, `AllInPlace`, `IsFirstOutOfPlace`: what is out of place behind other items.
- `exists_assembleItems_iff`, `assembleItems_eq_error_iff`: when items are assembled, and what is
  told if they are not.
- `assembleItems_inverse`: **assembling is inverse to flattening**, and fails as it should.
-/

namespace CommandBar.Switch

/-- Literals in front are added to those before the first command. -/
theorem chunks_literals (args : List String) (tokens : List Token) :
    chunks (args.map .literal ++ tokens) = (args ++ (chunks tokens).1, (chunks tokens).2) := by
  induction args with
  | nil => rfl
  | cons arg args ih =>
    show (arg :: (chunks (args.map .literal ++ tokens)).1,
      (chunks (args.map .literal ++ tokens)).2) = _
    rw [ih]
    rfl

/-- Before the first command of written switches there is nothing, and from there on come the
switches. -/
theorem chunks_flatten {switches : List Entry} (h : ∀ switch ∈ switches, switch ≠ []) :
    chunks (flatten switches) = ([], switches) := by
  induction switches with
  | nil => rfl
  | cons switch switches ih =>
    cases switch with
    | nil => exact absurd rfl (h [] List.mem_cons_self)
    | cons name args =>
      have ih := ih fun switch hmem => h switch (List.mem_cons_of_mem _ hmem)
      have hargs := chunks_literals args (flatten switches)
      rw [ih, List.append_nil] at hargs
      show ([], (name :: (chunks (args.map .literal ++ flatten switches)).1) ::
        (chunks (args.map .literal ++ flatten switches)).2) = _
      rw [hargs]

theorem assemble_flatten {switches : List Entry} (h : ∀ switch ∈ switches, switch ≠ []) :
    assemble (flatten switches) = .ok switches := by
  rw [assemble, chunks_flatten h]

/-- No token is lost in assembling, and every switch that is assembled has its name. -/
theorem flatten_chunks (tokens : List Token) :
    tokens = (chunks tokens).1.map .literal ++ flatten (chunks tokens).2 ∧
      ∀ switch ∈ (chunks tokens).2, switch ≠ [] := by
  induction tokens with
  | nil => exact ⟨rfl, fun switch h => absurd h List.not_mem_nil⟩
  | cons token tokens ih =>
    obtain ⟨htokens, hne⟩ := ih
    cases token with
    | literal text => exact ⟨congrArg (Token.literal text :: ·) htokens, hne⟩
    | command name =>
      refine ⟨congrArg (Token.command name :: ·) htokens, ?_⟩
      exact List.forall_mem_cons.mpr ⟨List.cons_ne_nil _ _, hne⟩

/-- **Tokens are assembled to switches exactly if they are the tokens of these switches.** -/
theorem assemble_eq_ok_iff {tokens : List Token} {switches : List Entry} :
    assemble tokens = .ok switches ↔
      (∀ switch ∈ switches, switch ≠ []) ∧ tokens = flatten switches := by
  constructor
  · intro h
    obtain ⟨htokens, hne⟩ := flatten_chunks tokens
    unfold assemble at h
    split at h
    · next hchunks =>
      cases h
      rw [hchunks] at htokens hne
      exact ⟨hne, htokens⟩
    · cases h
  · rintro ⟨hne, rfl⟩
    exact assemble_flatten hne

/-! ## Tokens among which other things could stand -/

theorem tokensAmong_map_token (tokens : List Token) :
    tokensAmong (tokens.map .token) = .ok tokens := by
  induction tokens with
  | nil => rfl
  | cons token tokens ih =>
    rw [List.map_cons, tokensAmong, ih]
    rfl

/-- Among tokens alone nothing is out of place but a literal at the front. -/
theorem assembleItems_map_token (tokens : List Token) :
    assembleItems (tokens.map .token) = (assemble tokens).mapError fun _ => .orphanArgument := by
  have hamong := tokensAmong_map_token tokens
  cases tokens with
  | nil => rfl
  | cons token tokens =>
    cases token with
    | literal text => rfl
    | command name =>
      show (tokensAmong (.token (.command name) :: tokens.map .token)).map _ = _
      rw [← List.map_cons, hamong]
      rfl

/-! ## Item by item -/

/-- The switches so far, with the next item added: a command starts a switch, and a literal is one
more argument of the last. -/
def addItem (switches : List Entry) : Item → Except AssemblyError (List Entry)
  | .token (.command name) => .ok (switches ++ [[name]])
  | .token (.literal text) =>
    match switches.getLast? with
    | some last => .ok (switches.dropLast ++ [last ++ [text]])
    | none => .error .orphanArgument
  | .foreign text => .error (.foreign text)

theorem addItem_literal (switches : List Entry) (last : Entry) (text : String) :
    addItem (switches ++ [last]) (.token (.literal text)) = .ok (switches ++ [last ++ [text]]) := by
  rw [addItem, List.getLast?_concat, List.dropLast_concat]

/-- Behind a first switch all items are assembled that are tokens: literals go to the switch that is
the last by then. That this switch is still growing is what the induction is about. -/
theorem foldlM_addItem_concat (items : List Item) (switches : List Entry) (last : Entry) :
    items.foldlM addItem (switches ++ [last]) =
      (tokensAmong items).map fun tokens =>
        switches ++ (last ++ (chunks tokens).1) :: (chunks tokens).2 := by
  induction items generalizing switches last with
  | nil =>
    show Except.ok (switches ++ [last]) = .ok (switches ++ [last ++ []])
    rw [List.append_nil]
  | cons item items ih =>
    rw [List.foldlM_cons]
    cases item with
    | foreign text => rfl
    | token token =>
      rw [tokensAmong]
      cases token with
      | literal text =>
        rw [addItem_literal, Outcome.ok_bind, ih]
        cases tokensAmong items with
        | error why => rfl
        | ok tokens =>
          show Except.ok (switches ++ (last ++ [text] ++ (chunks tokens).1) :: (chunks tokens).2) =
            .ok (switches ++ (last ++ text :: (chunks tokens).1) :: (chunks tokens).2)
          rw [List.append_assoc, List.singleton_append]
      | command name =>
        show (items.foldlM addItem (switches ++ [last] ++ [[name]])) = _
        rw [ih]
        cases tokensAmong items with
        | error why => rfl
        | ok tokens =>
          show Except.ok (switches ++ [last] ++ (name :: (chunks tokens).1) :: _) =
            .ok (switches ++ (last ++ []) :: (name :: (chunks tokens).1) :: _)
          rw [List.append_nil, List.append_assoc, List.singleton_append]

/-- **Assembling items is adding one after the other.** -/
theorem foldlM_addItem (items : List Item) : items.foldlM addItem [] = assembleItems items := by
  cases items with
  | nil => rfl
  | cons item items =>
    cases item with
    | foreign text => rfl
    | token token =>
      cases token with
      | literal text => rfl
      | command name =>
        have hfirst := foldlM_addItem_concat items [] [name]
        show items.foldlM addItem [[name]] = (tokensAmong (.token (.command name) :: items)).map _
        rw [List.nil_append] at hfirst
        rw [hfirst, tokensAmong]
        cases tokensAmong items <;> rfl

/-! ## The first item out of place -/

/-- What is told of the item behind those `before` it: it is no token, or it is a literal and there
is no command before it. -/
inductive OutOfPlace (before : List Item) : Item → AssemblyError → Prop
  | foreign {text : String} : OutOfPlace before (.foreign text) (.foreign text)
  | orphan {text : String} :
      (∀ name, .token (.command name) ∉ before) →
        OutOfPlace before (.token (.literal text)) .orphanArgument

/-- No item is out of place. -/
def AllInPlace (items : List Item) : Prop :=
  ∀ before item after, items = before ++ item :: after → ∀ why, ¬ OutOfPlace before item why

/-- This is told of the first item that is out of place. -/
def IsFirstOutOfPlace (items : List Item) (why : AssemblyError) : Prop :=
  ∃ before item after, items = before ++ item :: after ∧ OutOfPlace before item why ∧
    AllInPlace before

/-- There are switches as soon as there is a command. -/
theorem eq_nil_iff_of_assembleItems {items : List Item} {switches : List Entry}
    (h : assembleItems items = .ok switches) :
    switches = [] ↔ ∀ name, .token (.command name) ∉ items := by
  cases items with
  | nil =>
    cases h
    exact ⟨fun _ name => List.not_mem_nil, fun _ => rfl⟩
  | cons item items =>
    cases item with
    | foreign text => cases h
    | token token =>
      cases token with
      | literal text => cases h
      | command name =>
        rw [← foldlM_addItem, List.foldlM_cons] at h
        have hfirst := foldlM_addItem_concat items [] [name]
        obtain ⟨_, ⟨⟩, h⟩ := Outcome.bind_eq_ok_iff.mp h
        rw [hfirst] at h
        refine iff_of_false ?_ fun hnone => hnone name List.mem_cons_self
        rintro rfl
        cases htokens : tokensAmong items with
        | error why =>
          rw [htokens] at h
          cases h
        | ok tokens =>
          rw [htokens] at h
          cases h

/-- **An item cannot be added exactly if it is out of place.** -/
theorem addItem_eq_error_iff {before : List Item} {switches : List Entry} {item : Item}
    {why : AssemblyError} (h : assembleItems before = .ok switches) :
    addItem switches item = .error why ↔ OutOfPlace before item why := by
  have hnone := eq_nil_iff_of_assembleItems h
  cases item with
  | foreign text =>
    constructor
    · intro hadd
      cases hadd
      exact .foreign
    · rintro ⟨⟩
      rfl
  | token token =>
    cases token with
    | command name =>
      constructor
      · intro hadd
        cases hadd
      · rintro ⟨⟩
    | literal text =>
      rcases List.eq_nil_or_concat switches with rfl | ⟨init, last, rfl⟩
      · constructor
        · intro hadd
          cases hadd
          exact .orphan (hnone.mp rfl)
        · rintro ⟨⟩
          rfl
      · constructor
        · intro hadd
          rw [List.concat_eq_append, addItem_literal] at hadd
          cases hadd
        · intro hout
          cases hout with
          | orphan hcommands => exact absurd (hnone.mpr hcommands) (by simp)

/-- Items are not assembled if one of them is out of place and those before it are assembled. -/
theorem assembleItems_eq_error_iff_exists {items : List Item} {why : AssemblyError} :
    assembleItems items = .error why ↔
      ∃ before item after switches, items = before ++ item :: after ∧
        assembleItems before = .ok switches ∧ OutOfPlace before item why := by
  rw [← foldlM_addItem, Outcome.foldlM_eq_error_iff]
  refine exists_congr fun before => exists_congr fun item => exists_congr fun after => ?_
  refine exists_congr fun switches => and_congr_right fun _ => ?_
  rw [foldlM_addItem]
  exact and_congr_right fun hbefore => addItem_eq_error_iff hbefore

/-- **Items are assembled exactly if each is in its place.** -/
theorem exists_assembleItems_iff {items : List Item} :
    (∃ switches, assembleItems items = .ok switches) ↔ AllInPlace items := by
  rw [Outcome.exists_eq_ok_iff]
  constructor
  · rintro h before item after rfl why hout
    -- the items before this one are assembled, or something is told of one of them
    cases hbefore : assembleItems before with
    | ok switches =>
      exact h why (assembleItems_eq_error_iff_exists.mpr ⟨_, _, _, _, rfl, hbefore, hout⟩)
    | error why' =>
      obtain ⟨before', item', after', switches, rfl, hbefore', hout'⟩ :=
        assembleItems_eq_error_iff_exists.mp hbefore
      refine h why' (assembleItems_eq_error_iff_exists.mpr
        ⟨before', item', after' ++ item :: after, switches, ?_, hbefore', hout'⟩)
      rw [List.append_assoc, List.cons_append]
  · intro h why herror
    obtain ⟨before, item, after, _, hitems, -, hout⟩ := assembleItems_eq_error_iff_exists.mp herror
    exact h before item after hitems why hout

/-- **What is told of items** is told of the first that is out of place. -/
theorem assembleItems_eq_error_iff {items : List Item} {why : AssemblyError} :
    assembleItems items = .error why ↔ IsFirstOutOfPlace items why := by
  rw [assembleItems_eq_error_iff_exists]
  refine exists_congr fun before => exists_congr fun item => exists_congr fun after => ?_
  rw [← exists_assembleItems_iff]
  constructor
  · rintro ⟨switches, hitems, hbefore, hout⟩
    exact ⟨hitems, hout, switches, hbefore⟩
  · rintro ⟨hitems, hout, switches, hbefore⟩
    exact ⟨switches, hitems, hbefore, hout⟩

/-! ## Assembling and flattening -/

/-- Tokens that do not start with a literal are assembled. -/
theorem exists_assemble {tokens : List Token}
    (h : ∀ token ∈ tokens.head?, ∃ name, token = .command name) :
    ∃ switches, assemble tokens = .ok switches := by
  cases tokens with
  | nil => exact ⟨[], rfl⟩
  | cons token tokens =>
    obtain ⟨name, rfl⟩ := h token rfl
    exact ⟨_, rfl⟩

/-- **Assembling is inverse to flattening.** Switches none of which is empty are assembled from
their tokens, and tokens that do not start with a literal are those of the switches they are
assembled to. Any items are assembled one after the other. They are not if one of them is out of
place, and what is told is told of the first such item: an argument that belongs to no switch, or
the text that is no token. -/
theorem assembleItems_inverse :
    (∀ switches : List Entry, (∀ switch ∈ switches, switch ≠ []) →
      assembleItems ((flatten switches).map .token) = .ok switches) ∧
    (∀ tokens : List Token, (∀ token ∈ tokens.head?, ∃ name, token = .command name) →
      ∃ switches, assembleItems (tokens.map .token) = .ok switches ∧
        (∀ switch ∈ switches, switch ≠ []) ∧ flatten switches = tokens) ∧
    (∀ items, items.foldlM addItem [] = assembleItems items) ∧
    (∀ items, (∃ why, assembleItems items = .error why) ↔
      ∃ before item after why, items = before ++ item :: after ∧ OutOfPlace before item why) ∧
    (∀ items why, assembleItems items = .error why ↔ IsFirstOutOfPlace items why) ∧
    AssemblyError.orphanArgument.message = "text with no switch" ∧
    ∀ text, (AssemblyError.foreign text).message = "unexpected token: " ++ visible text := by
  refine ⟨?_, ?_, foldlM_addItem, ?_, fun items why => assembleItems_eq_error_iff, rfl,
    fun text => rfl⟩
  · intro switches h
    rw [assembleItems_map_token, assemble_flatten h]
    rfl
  · intro tokens h
    obtain ⟨switches, hassemble⟩ := exists_assemble h
    obtain ⟨hne, htokens⟩ := assemble_eq_ok_iff.mp hassemble
    refine ⟨switches, ?_, hne, htokens.symm⟩
    rw [assembleItems_map_token, hassemble]
    rfl
  · intro items
    constructor
    · rintro ⟨why, herror⟩
      obtain ⟨before, item, after, hitems, hout, -⟩ := assembleItems_eq_error_iff.mp herror
      exact ⟨before, item, after, why, hitems, hout⟩
    · rintro ⟨before, item, after, why, hitems, hout⟩
      cases hassemble : assembleItems items with
      | error why' => exact ⟨why', rfl⟩
      | ok switches =>
        have hplace := exists_assembleItems_iff.mp ⟨switches, hassemble⟩
        exact absurd hout (hplace before item after hitems why)

/-- Two switches with their tokens, and items of which two are out of place. -/
theorem assembleItems_inverse_mixed :
    assembleItems ((flatten [["a", "b"], ["c"]]).map .token) = .ok [["a", "b"], ["c"]] ∧
      (∃ switches, assembleItems ([.command "a", .literal "b"].map .token) = .ok switches ∧
        (∀ switch ∈ switches, switch ≠ []) ∧ flatten switches = [.command "a", .literal "b"]) ∧
      assembleItems [.token (.command "a"), .foreign "x", .token (.literal "b"), .foreign "y"] =
        .error (.foreign "x") ∧
      assembleItems [.token (.literal "b"), .foreign "x"] = .error .orphanArgument := by
  obtain ⟨hflatten, hassemble, -, -, hfirst, -⟩ := assembleItems_inverse
  refine ⟨hflatten _ (by decide), hassemble _ ?_, ?_, ?_⟩
  · rintro token ⟨⟩
    exact ⟨"a", rfl⟩
  · refine (hfirst _ _).mpr ⟨[.token (.command "a")], _, _, rfl, .foreign, ?_⟩
    exact exists_assembleItems_iff.mp ⟨[["a"]], rfl⟩
  · refine (hfirst _ _).mpr ⟨[], _, _, rfl, .orphan fun name => List.not_mem_nil, ?_⟩
    exact exists_assembleItems_iff.mp ⟨[], rfl⟩

end CommandBar.Switch
