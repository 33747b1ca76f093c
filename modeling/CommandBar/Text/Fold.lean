import CommandBar.Text.Fold.Table

/-!
# Case folding

Two texts that differ only in capitals fold to the same text.

- `foldCode`: the code points to which one code point folds.
- `foldCase`: a text with each character replaced by what it folds to, whatever stands around it.
- `foldCase_eq_self`: a text of characters that fold to themselves does so, too.
-/

namespace CommandBar

/-- What the first rule that reaches up to the code point makes of it, and the code point itself if
the rules have passed it by. The rules ascend, so no later one can cover it. -/
def foldCodeBy (code : Nat) : List FoldRule → List Nat
  | [] => [code]
  | .shift first last stride target :: rules =>
    if code < first then [code]
    else if code ≤ last then
      if (code - first) % stride = 0 then [target + (code - first)] else [code]
    else foldCodeBy code rules
  | .expand single targets :: rules =>
    if code < single then [code]
    else if code = single then targets
    else foldCodeBy code rules

/-- The code points to which a code point folds. -/
def foldCode (code : Nat) : List Nat :=
  foldCodeBy code foldRules

/-- The characters to which a character folds. -/
def foldChar (c : Char) : List Char :=
  (foldCode c.toNat).map Char.ofNat

/-- The text with the difference between capital and small letters removed. -/
def foldCase (text : String) : String :=
  String.ofList (text.toList.flatMap foldChar)

theorem toList_foldCase (text : String) :
    (foldCase text).toList = text.toList.flatMap foldChar :=
  String.toList_ofList

theorem foldCase_eq_self {text : String} (h : ∀ c ∈ text.toList, foldChar c = [c]) :
    foldCase text = text := by
  have hflat : text.toList.flatMap foldChar = text.toList := by
    generalize text.toList = s at h
    induction s with
    | nil => rfl
    | cons c s ih =>
      obtain ⟨hc, hs⟩ := List.forall_mem_cons.mp h
      rw [List.flatMap_cons, hc, ih hs, List.singleton_append]
  rw [foldCase, hflat, String.ofList_toList]

end CommandBar
