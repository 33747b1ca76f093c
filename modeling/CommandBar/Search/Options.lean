import CommandBar.Search.Fallback

/-!
# Options of a search

What is to become of text that is no facet can be said in three ways: by a fallback, by a tag under
which words are added, or by the wish to skip them. At most one may be used.

- `Options`: what was asked for.
- `Options.resolve`: the fallback that was asked for, if any.
- `Options.Error`: why the options make no sense.
-/

namespace CommandBar.Search

/-- The kinds of value that cannot handle anything. -/
inductive ValueKind where
  | text
  | integer
  | fraction
  | truth
  | list
  | record
  deriving Repr, DecidableEq

/-- What a value of the kind is called in messages. -/
def ValueKind.name : ValueKind → String
  | .text => "str"
  | .integer => "int"
  | .fraction => "float"
  | .truth => "bool"
  | .list => "list"
  | .record => "dict"

/-- What was offered as a fallback. -/
inductive Offer (ε : Type) where
  /-- A handler. -/
  | handler (fallback : Fallback ε)
  /-- A value that is no handler. -/
  | value (kind : ValueKind)

/-- What is to become of text that is no facet. If nothing is said, such text ends the reading. -/
structure Options (ε : Type) where
  /-- Hand it to a fallback. -/
  fallback : Option (Offer ε) := none
  /-- Add each word of it under a tag. An empty tag is a tag. -/
  literal : Option String := none
  /-- Drop each word of it. -/
  skipUnmatched : Bool := false

namespace Options

/-- Why options make no sense. -/
inductive Error where
  /-- More than one of the three ways is used. -/
  | conflicting
  /-- What was offered as a fallback is no handler. -/
  | notHandler (kind : ValueKind)
  deriving Repr, DecidableEq

/-- What the caller is told. -/
def Error.message : Error → String
  | .conflicting => "give at most one of fallback, literal, skip_unmatched"
  | .notHandler kind => "fallback must be callable, not " ++ kind.name

variable {ε : Type}

/-- How many of the three ways are used. -/
def count (options : Options ε) : Nat :=
  options.fallback.isSome.toNat + options.literal.isSome.toNat + options.skipUnmatched.toNat

/-- The fallback that the options ask for. That they conflict is noticed before what was offered
turns out to be no handler. -/
def resolve (options : Options ε) : Except Error (Option (Fallback ε)) :=
  if 1 < options.count then .error .conflicting
  else
    match options.fallback, options.literal with
    | some (.value kind), _ => .error (.notHandler kind)
    | some (.handler fallback), _ => .ok (some fallback)
    | none, some tag => .ok (some (.literal tag))
    | none, none => .ok (if options.skipUnmatched then some .skip else none)

end Options

end CommandBar.Search
