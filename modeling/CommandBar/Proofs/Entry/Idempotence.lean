import CommandBar.Entry.Name
import CommandBar.Proofs.Text.Fold

/-!
# Canonicalizing twice

A name stands for what its folding is an alias of, and this is taken as it is: it is neither folded
nor looked up again. So canonicalizing a second time may go one step further, to what the alias of
the alias stands for. Whether it does is a matter of the value of each alias that is met, for a name
that is no alias is folded, and folding twice is folding once.

- `canonicalName_eq_self_iff`: the names that stand for themselves.
- `canonicalName_canonicalName_iff`: a name is settled after one step if it is no alias, or if its
  value stands for itself.
- `canonicalize_canonicalize_iff`: so are entries, if each of their names is.
- `canonicalize_exchange`: two names that are aliases of each other change places each time.
- `canonicalize_folded_iff`: **aliases for folded names** settle the entries in which none of them
  leads to another.
- `canonicalize_idempotent_iff`: **the aliases that settle all entries.**
-/

namespace CommandBar

variable {aliases : Aliases} {name value : String} {entries : List Entry}

/-! ## One name -/

/-- **A name stands for itself** if its folding is an alias of it, or if it is folded and no
alias. -/
theorem canonicalName_eq_self_iff :
    canonicalName aliases name = name ↔
      aliases (foldCase name) = some name ∨
        aliases (foldCase name) = none ∧ foldCase name = name := by
  rw [canonicalName]
  cases aliases (foldCase name) <;> simp

theorem canonicalName_of_some (h : aliases (foldCase name) = some value) :
    canonicalName aliases name = value := by
  rw [canonicalName, h]
  rfl

/-- A name whose folding is no alias stands for its folding, and this for itself. -/
theorem canonicalName_of_none (h : aliases (foldCase name) = none) :
    canonicalName aliases name = foldCase name ∧
      canonicalName aliases (foldCase name) = foldCase name := by
  constructor
  · rw [canonicalName, h]
    rfl
  · refine canonicalName_eq_self_iff.mpr (.inr ?_)
    rw [foldCase_foldCase]
    exact ⟨h, rfl⟩

/-- **A name is settled after one step** if it is no alias, or if its value stands for itself. -/
theorem canonicalName_canonicalName_iff :
    canonicalName aliases (canonicalName aliases name) = canonicalName aliases name ↔
      ∀ value, aliases (foldCase name) = some value → canonicalName aliases value = value := by
  cases halias : aliases (foldCase name) with
  | none =>
    obtain ⟨honce, htwice⟩ := canonicalName_of_none halias
    rw [honce]
    exact ⟨fun _ value h => absurd h (by simp), fun _ => htwice⟩
  | some value =>
    rw [canonicalName_of_some halias]
    simp

/-! ## Entries -/

theorem canonicalize_entry_iff {entry : Entry} :
    (entry.canonicalize aliases).canonicalize aliases = entry.canonicalize aliases ↔
      ∀ name words, entry = name :: words →
        canonicalName aliases (canonicalName aliases name) = canonicalName aliases name := by
  cases entry with
  | nil => exact ⟨fun _ name words h => absurd h (by simp), fun _ => rfl⟩
  | cons name words =>
    rw [Entry.canonicalize, Entry.canonicalize, List.cons_eq_cons, and_iff_left rfl]
    constructor
    · rintro h _ _ ⟨⟩
      exact h
    · intro h
      exact h name words rfl

/-- **Entries are settled after one step** if for each of their names that is an alias the value
stands for itself. -/
theorem canonicalize_canonicalize_iff :
    canonicalize aliases (canonicalize aliases entries) = canonicalize aliases entries ↔
      ∀ name words value, name :: words ∈ entries → aliases (foldCase name) = some value →
        canonicalName aliases value = value := by
  rw [canonicalize, canonicalize, List.map_map, List.map_inj_left]
  constructor
  · intro h name words value hmem hvalue
    have hentry := canonicalize_entry_iff.mp (h _ hmem) name words rfl
    exact canonicalName_canonicalName_iff.mp hentry value hvalue
  · intro h entry hmem
    refine canonicalize_entry_iff.mpr ?_
    rintro name words rfl
    exact canonicalName_canonicalName_iff.mpr fun value hvalue => h name words value hmem hvalue

/-! ## Aliases for folded names -/

/-- Two names, each an alias of the other. -/
def exchange : Aliases := fun name =>
  if name = "to" then some "from" else if name = "from" then some "to" else none

/-- Names that are aliases of each other change places each time, though both are folded. -/
theorem canonicalize_exchange :
    (∀ name value, exchange name = some value → foldCase value = value) ∧
      canonicalize exchange [["to", "ann"]] = [["from", "ann"]] ∧
      canonicalize exchange (canonicalize exchange [["to", "ann"]]) ≠
        canonicalize exchange [["to", "ann"]] := by
  refine ⟨?_, by decide +kernel, by decide +kernel⟩
  intro name value h
  unfold exchange at h
  split at h
  · cases h
    decide +kernel
  · split at h
    · cases h
      decide +kernel
    · cases h

/-- **Where all aliases stand for folded names**, canonicalizing entries twice is canonicalizing
them once, unless one of their names is an alias of a name that is an alias of another. -/
theorem canonicalize_folded_iff
    (hfolded : ∀ name value, aliases name = some value → foldCase value = value) :
    canonicalize aliases (canonicalize aliases entries) = canonicalize aliases entries ↔
      ∀ name words value, name :: words ∈ entries → aliases (foldCase name) = some value →
        aliases value = none ∨ aliases value = some value := by
  rw [canonicalize_canonicalize_iff]
  refine forall₃_congr fun name words value => forall₂_congr fun _ hvalue => ?_
  rw [canonicalName_eq_self_iff, hfolded _ value hvalue, or_comm]
  simp

/-- One name is an alias, and what it is an alias of is an alias of itself. -/
def streetAlias : Aliases := fun name =>
  if name = "strasse" then some "street" else if name = "street" then some "street" else none

/-- A name that folds to a longer one, which is an alias, and one that is no alias. -/
theorem canonicalize_folded_iff_street :
    (∀ name value, streetAlias name = some value → foldCase value = value) ∧
      canonicalize streetAlias [["Stra\u00dfe", "5"], [], ["Other", "X"]] =
        [["street", "5"], [], ["other", "X"]] ∧
      canonicalize streetAlias [["street", "5"], [], ["other", "X"]] =
        [["street", "5"], [], ["other", "X"]] := by
  have hstreet : ∀ name value, streetAlias name = some value → value = "street" := by
    intro name value h
    unfold streetAlias at h
    split at h
    · exact (Option.some.inj h).symm
    · split at h
      · exact (Option.some.inj h).symm
      · cases h
  have hfolded : ∀ name value, streetAlias name = some value → foldCase value = value := by
    intro name value h
    rw [hstreet name value h]
    decide +kernel
  have honce : canonicalize streetAlias [["Stra\u00dfe", "5"], [], ["Other", "X"]] =
      [["street", "5"], [], ["other", "X"]] := by
    decide +kernel
  have htwice : canonicalize streetAlias
      (canonicalize streetAlias [["Stra\u00dfe", "5"], [], ["Other", "X"]]) =
        canonicalize streetAlias [["Stra\u00dfe", "5"], [], ["Other", "X"]] := by
    refine (canonicalize_folded_iff hfolded).mpr fun name words value _ h => ?_
    rw [hstreet _ value h]
    exact .inr (by decide)
  rw [honce] at htwice
  exact ⟨hfolded, honce, htwice⟩

/-! ## All entries -/

/-- **The aliases that settle all entries** in one step: for each folded name that is an alias, the
value is what its own folding is an alias of, or else is folded and no alias. All that matters about
folding is that folding twice is folding once. -/
theorem canonicalize_idempotent_iff :
    (∀ text, foldCase (foldCase text) = foldCase text) ∧
    ∀ aliases : Aliases,
      (∀ entries, canonicalize aliases (canonicalize aliases entries) =
        canonicalize aliases entries) ↔
      ∀ name value, foldCase name = name → aliases name = some value →
        aliases (foldCase value) = some value ∨
          aliases (foldCase value) = none ∧ foldCase value = value := by
  refine ⟨foldCase_foldCase, fun aliases => ?_⟩
  constructor
  · intro h name value hname hvalue
    -- an entry with nothing but the name shows what becomes of it
    have hentry := canonicalize_canonicalize_iff.mp (h [[name]])
    refine canonicalName_eq_self_iff.mp (hentry name [] value List.mem_cons_self ?_)
    rwa [hname]
  · intro h entries
    refine canonicalize_canonicalize_iff.mpr fun name words value _ hvalue => ?_
    exact canonicalName_eq_self_iff.mpr (h _ value (foldCase_foldCase name) hvalue)

/-- One name is an alias of a name that is not folded and folds back to it. -/
def sharpAlias : Aliases := fun name => if name = "strasse" then some "Stra\u00dfe" else none

/-- The alias of a name that folds back to it settles all entries, and the exchange of two names
does not. -/
theorem canonicalize_idempotent_iff_sharp :
    (∀ entries, canonicalize sharpAlias (canonicalize sharpAlias entries) =
        canonicalize sharpAlias entries) ∧
      ¬ ∀ entries, canonicalize exchange (canonicalize exchange entries) =
        canonicalize exchange entries := by
  obtain ⟨-, hsettles⟩ := canonicalize_idempotent_iff
  constructor
  · refine (hsettles sharpAlias).mpr fun name value _ hvalue => .inl ?_
    unfold sharpAlias at hvalue
    split at hvalue <;> cases hvalue
    decide +kernel
  · intro h
    have hto := (hsettles exchange).mp h "to" "from" (by decide +kernel) (by decide)
    revert hto
    decide +kernel

end CommandBar
