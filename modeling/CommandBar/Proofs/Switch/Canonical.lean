import CommandBar.Entry.Name
import CommandBar.Proofs.Switch.Writing
import Mathlib.Data.List.Forall2

/-!
# Switches under canonical names

Canonicalizing replaces names and leaves all words alone. The name of a command folds to itself, so
on switches that can be written nothing but aliases is replaced; and whether switches can be written
depends on their names only in so far as these are names of commands. So if every alias stands for
such a name, the switches can be written before and after, and are read back both times.

- `Renames`: an entry and the same with its name replaced, if that is an alias.
- `canonicalName_eq`: the name for which the name of a command stands.
- `flatten_canonicalize`, `runsOn_canonicalize`, `IsWritable.canonicalize`: canonicalizing switches
  is canonicalizing their tokens, and keeps what the writer asks of them.
- `write_canonicalize`: **switches that can be written** are renamed as their aliases say, and can
  then be written and read back.
-/

namespace CommandBar.Switch

variable {aliases : Aliases} {name : String} {token : Token} {switches : List Entry}

/-- The second entry is the first with its name replaced by the one that it is an alias of, or the
first as it is if its name is no alias. -/
inductive Renames (aliases : Aliases) : Entry → Entry → Prop
  | alias {name value : String} {words : List String} :
      aliases name = some value → Renames aliases (name :: words) (value :: words)
  | same {name : String} {words : List String} :
      aliases name = none → Renames aliases (name :: words) (name :: words)

/-- Every alias stands for a name that a command can have. -/
def NamesCommands (aliases : Aliases) : Prop :=
  ∀ name value, aliases name = some value → IsCommandName value

/-- The token with its name replaced by the one it stands for. A literal has no name. -/
def Token.canonicalize (aliases : Aliases) : Token → Token
  | command name => command (canonicalName aliases name)
  | literal text => literal text

/-! ## The names of commands -/

/-- There are no capitals in the name of a command. -/
theorem foldCase_of_isCommandName (h : IsCommandName name) : foldCase name = name := by
  have hall : nameChars.all (fun c => foldChar c = [c]) = true := by decide
  refine foldCase_eq_self fun c hc => ?_
  have hmem : c ∈ nameChars := by simpa [isNameChar] using h.2 c hc
  simpa using List.all_eq_true.mp hall c hmem

/-- The name of a command stands for what it is an alias of, or else for itself. -/
theorem canonicalName_eq (h : IsCommandName name) :
    canonicalName aliases name = (aliases name).getD name := by
  rw [canonicalName, foldCase_of_isCommandName h]

theorem IsCommandName.canonicalName (haliases : NamesCommands aliases) (h : IsCommandName name) :
    IsCommandName (canonicalName aliases name) := by
  rw [canonicalName_eq h]
  cases hvalue : aliases name with
  | none => exact h
  | some value => exact haliases name value hvalue

theorem renames_canonicalize {words : List String} (h : IsCommandName name) :
    Renames aliases (name :: words) (Entry.canonicalize aliases (name :: words)) := by
  rw [Entry.canonicalize, canonicalName_eq h]
  cases hvalue : aliases name with
  | none => exact .same hvalue
  | some value => exact .alias hvalue

/-! ## The tokens of switches -/

theorem flattenOne_canonicalize (aliases : Aliases) (switch : Entry) :
    flattenOne (switch.canonicalize aliases) =
      (flattenOne switch).map (Token.canonicalize aliases) := by
  cases switch with
  | nil => rfl
  | cons name args =>
    rw [Entry.canonicalize, flattenOne, flattenOne, List.map_cons, List.map_map]
    rfl

/-- **Canonicalizing switches is canonicalizing their tokens.** -/
theorem flatten_canonicalize (aliases : Aliases) (switches : List Entry) :
    flatten (canonicalize aliases switches) =
      (flatten switches).map (Token.canonicalize aliases) := by
  unfold flatten canonicalize
  rw [List.flatMap_map, List.map_flatMap]
  exact congrArg (List.flatMap · switches) (funext (flattenOne_canonicalize aliases))

/-- Only arguments run on, and these are left alone. -/
theorem runsOn_canonicalize (aliases : Aliases) (token : Token) :
    (token.canonicalize aliases).runsOn = token.runsOn := by
  cases token <;> rfl

theorem Token.IsWritable.canonicalize (haliases : NamesCommands aliases) (h : token.IsWritable) :
    (token.canonicalize aliases).IsWritable := by
  cases token with
  | command name => exact IsCommandName.canonicalName haliases h
  | literal text => exact h

/-- Canonicalizing empties no switch. -/
theorem canonicalize_ne_nil {switch : Entry} (h : switch ≠ []) :
    switch.canonicalize aliases ≠ [] := by
  cases switch with
  | nil => exact absurd rfl h
  | cons name args => exact List.cons_ne_nil _ _

/-- **What can be written can still be written** under canonical names: the same pieces would run
on, and they stand at the same places. -/
theorem exists_write_canonicalize (haliases : NamesCommands aliases)
    (h : ∃ line, write switches = .ok line) :
    ∃ line, write (canonicalize aliases switches) = .ok line := by
  obtain ⟨hne, hwritable, hlast⟩ := exists_write_iff.mp h
  refine exists_write_iff.mpr ⟨?_, ?_, ?_⟩
  · exact List.forall_mem_map.mpr fun switch hmem => canonicalize_ne_nil (hne switch hmem)
  · rw [flatten_canonicalize, List.forall_mem_map]
    exact fun token hmem => (hwritable token hmem).canonicalize haliases
  · rw [flatten_canonicalize, ← List.map_dropLast, List.forall_mem_map]
    exact fun token hmem => (runsOn_canonicalize aliases token).trans (hlast token hmem)

/-- The names of switches that can be written are names of commands. -/
theorem isCommandName_of_write {line : String} {args : List String}
    (h : write switches = .ok line) (hmem : name :: args ∈ switches) : IsCommandName name := by
  obtain ⟨-, hwritable, -⟩ := exists_write_iff.mp ⟨line, h⟩
  exact hwritable (.command name) (List.mem_flatMap.mpr ⟨_, hmem, List.mem_cons_self⟩)

/-! ## Writing under canonical names -/

/-- **Switches that can be written, under canonical names**, provided that every alias stands for a
name that a command can have. There are as many switches as before, in the same order and with the
same arguments; a name is replaced by what it is an alias of, and is left alone if it is no alias.
The result can be written, and is read back from what is written. -/
theorem write_canonicalize {line : String} (haliases : NamesCommands aliases)
    (h : write switches = .ok line) :
    List.Forall₂ (Renames aliases) switches (canonicalize aliases switches) ∧
      ∃ line', write (canonicalize aliases switches) = .ok line' ∧
        parse line' = .ok (canonicalize aliases switches) := by
  constructor
  · rw [canonicalize, List.forall₂_map_right_iff, List.forall₂_same]
    intro switch hmem
    obtain ⟨hne, -⟩ := exists_write_iff.mp ⟨line, h⟩
    obtain ⟨name, args, rfl⟩ := List.exists_cons_of_ne_nil (hne switch hmem)
    exact renames_canonicalize (isCommandName_of_write h hmem)
  · obtain ⟨line', hline'⟩ := exists_write_canonicalize haliases ⟨line, h⟩
    exact ⟨line', hline', parse_eq_ok_iff.mpr (tokenize_of_write_eq_ok hline')⟩

/-- One name is an alias. -/
def brandAlias : Aliases := fun name => if name = "brand" then some "made-by" else none

/-- A name that is an alias and one that is none, with a quote behind a backslash in an argument in
the middle and a backslash at the end of the last. -/
theorem write_canonicalize_backslashes :
    NamesCommands brandAlias ∧
      write [["brand", "a b\\\"", "c"], ["temp", "x \\"]] =
        .ok "/brand \"a b\\\\\"\" c /temp \"x \\\"" ∧
      List.Forall₂ (Renames brandAlias) [["brand", "a b\\\"", "c"], ["temp", "x \\"]]
        [["made-by", "a b\\\"", "c"], ["temp", "x \\"]] ∧
      ∃ line, write [["made-by", "a b\\\"", "c"], ["temp", "x \\"]] = .ok line ∧
        parse line = .ok [["made-by", "a b\\\"", "c"], ["temp", "x \\"]] := by
  have haliases : NamesCommands brandAlias := by
    intro name value hvalue
    unfold brandAlias at hvalue
    split at hvalue <;> cases hvalue
    exact ⟨by decide, List.all_eq_true.mp (by decide)⟩
  have hwrite : write [["brand", "a b\\\"", "c"], ["temp", "x \\"]] =
      .ok "/brand \"a b\\\\\"\" c /temp \"x \\\"" := by
    decide +kernel
  have hrenamed : canonicalize brandAlias [["brand", "a b\\\"", "c"], ["temp", "x \\"]] =
      [["made-by", "a b\\\"", "c"], ["temp", "x \\"]] := by
    decide +kernel
  have hboth := write_canonicalize haliases hwrite
  rw [hrenamed] at hboth
  exact ⟨haliases, hwrite, hboth⟩

end CommandBar.Switch
