/-!
# Entries

Whatever is typed into a command bar is read as a list of entries: a name, and the words that
belong to it. A switch is an entry whose words are its arguments, and a facet of a search is one
whose words are its values.

- `Entry`: the name followed by its words. An entry made by hand may be empty.
-/

namespace CommandBar

/-- A name, followed by the words that belong to it. -/
abbrev Entry := List String

end CommandBar
