import CommandBar.Quoted.Escape
import CommandBar.Search.Facet

/-!
# The ways to write facets

The same facets can be typed in many ways: a value bare or between quotes of any kind, and any
blanks between the facets.

- `IsName`: what can be the name of a facet.
- `SpellsValue`, `SpellsValues`, `SpellsFacet`: the ways to write a value, the values behind a name,
  and a facet.
- `SpellsSearch`: the ways to write a search that consists of facets.
-/

namespace CommandBar.Search

/-- The text is an identifier as a whole. -/
def IsName (name : String) : Prop :=
  identifier? name.toList = some (name, [])

/-- The text writes the value, and reads back as that value wherever it stands. -/
inductive SpellsValue : (value : String) → (s : List Char) → Prop
  | bare {w : List Char} :
      w ≠ [] → (∀ c ∈ w, isBareValueChar c = true) → SpellsValue (String.ofList w) w
  | quoted {content s : List Char} :
      Quoted.Spells content s → SpellsValue (String.ofList content) s

/-- The text writes the values, each behind a colon. -/
inductive SpellsValues : (values : List String) → (s : List Char) → Prop
  | nil : SpellsValues [] []
  | cons {value : String} {values : List String} {s t : List Char} :
      SpellsValue value s → SpellsValues values t → SpellsValues (value :: values) (':' :: (s ++ t))

/-- The text writes the facet. -/
inductive SpellsFacet : Entry → (s : List Char) → Prop
  | mk {name : String} {values : List String} {s : List Char} :
      IsName name → values ≠ [] → SpellsValues values s →
        SpellsFacet (name :: values) (name.toList ++ s)

/-- The text writes the facets one after the other, with blanks in between and possibly around
them. -/
inductive SpellsSearch : List Entry → (s : List Char) → Prop
  | nil {gap : List Char} : AllBlank gap → SpellsSearch [] gap
  | cons {gap s rest : List Char} {facet : Entry} {facets : List Entry} :
      AllBlank gap → SpellsFacet facet s → atWordEnd rest = true → SpellsSearch facets rest →
        SpellsSearch (facet :: facets) (gap ++ (s ++ rest))

end CommandBar.Search
