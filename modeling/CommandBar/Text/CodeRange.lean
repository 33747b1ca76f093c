/-!
# Classes of code points

A class of characters is given by the ranges of its code points, lowest first.

- `CodeRange`: a closed range of code points.
- `CodeRange.AscendFrom`: ranges none of which is empty, each above the one before it.
- `CodeRange.anyMem`: whether some range of an ascending list holds a code point. The search stops
  at the first range that begins above the code point, so a low character is settled at once
  however long the list is.
- `CodeClass`: a class of code points. That its ranges ascend is part of it.
- `CodeClass.contains_iff`: stopping early loses nothing.
-/

namespace CommandBar

/-- The code points from `first` to `last`, both included. -/
structure CodeRange where
  first : Nat
  last : Nat
  deriving Repr, DecidableEq

namespace CodeRange

variable {code low : Nat} {r : CodeRange} {rs : List CodeRange}

/-- The code point lies in the range. -/
def Holds (r : CodeRange) (code : Nat) : Prop :=
  r.first ≤ code ∧ code ≤ r.last

/-- No range is empty, and each begins above the end of the one before it. All of them begin at
`low` or above. -/
def AscendFrom : (low : Nat) → List CodeRange → Prop
  | _, [] => True
  | low, r :: rs => low ≤ r.first ∧ r.first ≤ r.last ∧ AscendFrom (r.last + 1) rs

instance decidableAscendFrom : (low : Nat) → (rs : List CodeRange) → Decidable (AscendFrom low rs)
  | _, [] => inferInstanceAs (Decidable True)
  | low, r :: rs =>
    have := decidableAscendFrom (r.last + 1) rs
    inferInstanceAs (Decidable (low ≤ r.first ∧ r.first ≤ r.last ∧ AscendFrom (r.last + 1) rs))

/-- Some range of the list holds the code point, provided the list ascends. -/
def anyMem (code : Nat) : List CodeRange → Bool
  | [] => false
  | r :: rs => if code < r.first then false else code ≤ r.last || anyMem code rs

theorem AscendFrom.le_first (h : AscendFrom low rs) (hr : r ∈ rs) : low ≤ r.first := by
  induction rs generalizing low with
  | nil => exact absurd hr List.not_mem_nil
  | cons r' rs ih =>
    obtain ⟨hlow, hne, hrs⟩ := h
    rcases List.mem_cons.mp hr with rfl | hr
    · exact hlow
    · have := ih hrs hr
      omega

/-- **Stopping early is right**: on an ascending list the search finds a range exactly when one of
the ranges holds the code point. -/
theorem AscendFrom.anyMem_iff (h : AscendFrom low rs) :
    anyMem code rs = true ↔ ∃ r ∈ rs, r.Holds code := by
  induction rs generalizing low with
  | nil => simp [anyMem]
  | cons r rs ih =>
    obtain ⟨-, hne, hrs⟩ := h
    by_cases hbelow : code < r.first
    · -- what is below this range is below the later ones
      have hnone : ¬ ∃ r' ∈ r :: rs, r'.Holds code := by
        rintro ⟨r', hr', hfirst, -⟩
        rcases List.mem_cons.mp hr' with rfl | hr'
        · omega
        · have := hrs.le_first hr'
          omega
      simpa [anyMem, hbelow] using hnone
    · have hfirst : r.first ≤ code := by omega
      simp [anyMem, hbelow, ih hrs, Holds, hfirst]

end CodeRange

/-- A class of code points. -/
structure CodeClass where
  /-- Where the code points of the class lie. -/
  ranges : List CodeRange
  /-- The search for a code point relies on it. -/
  ascend : CodeRange.AscendFrom 0 ranges

namespace CodeClass

/-- The code point belongs to the class. -/
def contains (codes : CodeClass) (code : Nat) : Bool :=
  CodeRange.anyMem code codes.ranges

/-- **A code point belongs to a class** if it lies in one of the ranges. -/
theorem contains_iff {codes : CodeClass} {code : Nat} :
    codes.contains code = true ↔ ∃ r ∈ codes.ranges, r.Holds code :=
  codes.ascend.anyMem_iff

end CodeClass

end CommandBar
