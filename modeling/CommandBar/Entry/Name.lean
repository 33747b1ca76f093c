import CommandBar.Entry
import CommandBar.Text.Fold

/-!
# Canonical names

The names of entries are compared without regard to capitals, and one name may be an alias of
another. Canonicalizing replaces every name by the one it stands for and leaves all words alone.

- `Aliases`: the names that stand for another.
- `canonicalName`: the name for which a name stands.
- `canonicalize`: entries with their names replaced.
-/

namespace CommandBar

/-- The name for which a name stands, if it is an alias. Aliases are looked up folded. -/
abbrev Aliases := String → Option String

namespace Aliases

/-- No name is an alias. -/
def none : Aliases := fun _ => .none

end Aliases

/-- The name for which a name stands: what its folding is an alias of, or else its folding. What an
alias stands for is taken as it is, neither folded nor looked up again. -/
def canonicalName (aliases : Aliases) (name : String) : String :=
  (aliases (foldCase name)).getD (foldCase name)

/-- The entry with its name replaced by the one it stands for. -/
def Entry.canonicalize (aliases : Aliases) : Entry → Entry
  | [] => []
  | name :: words => canonicalName aliases name :: words

/-- Each entry with its name replaced by the one it stands for. The entries are separate values: one
that stands at two places of the list has its name looked up once at each. -/
def canonicalize (aliases : Aliases) (entries : List Entry) : List Entry :=
  entries.map (Entry.canonicalize aliases)

end CommandBar
