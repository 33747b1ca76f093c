import CommandBar.Text.Fold

/-!
# Folding twice

Folding a text a second time changes nothing. It could: a character may fold to three others, and
nothing in the shape of the rules keeps one of these from folding on. What has to be shown about the
table is that no code point is at once folded by a rule and the result of one. There are about 1500
of either kind, too many to compare each with each, so either kind is put into the bits of one
number and the two numbers are compared.

- `FoldRule.sources`, `FoldRule.targets`: the code points that a rule folds, and what it makes of
  them.
- `codeSet`, `testBit_codeSet`: code points as the bits of a number.
- `not_mem_sources_of_mem_targets`: **the rules fold no code point to one that they fold.**
- `foldCode_of_mem_foldCode`, `foldCase_foldCase`: **folding twice is folding once**, for code
  points and for texts.
-/

namespace CommandBar

namespace FoldRule

/-- The code points that the rule folds. -/
def sources : FoldRule → List Nat
  | .shift first last stride _ =>
    (List.range ((last - first) / stride + 1)).map (first + stride * ·)
  | .expand code _ => [code]

/-- The code points to which the rule folds. -/
def targets : FoldRule → List Nat
  | .shift first last stride target =>
    (List.range ((last - first) / stride + 1)).map (target + stride * ·)
  | .expand _ targets => targets

end FoldRule

/-! ## What a code point folds to -/

/-- A code point folds to itself, or some rule folds it to what it folds to. -/
theorem foldCodeBy_cases (code : Nat) (rules : List FoldRule) :
    foldCodeBy code rules = [code] ∨
      ∃ rule ∈ rules, code ∈ rule.sources ∧ ∀ d ∈ foldCodeBy code rules, d ∈ rule.targets := by
  -- a rule that is passed by leaves the matter to those behind it
  have hlater {rule : FoldRule} {rules : List FoldRule} (h : foldCodeBy code rules = [code] ∨
      ∃ r ∈ rules, code ∈ r.sources ∧ ∀ d ∈ foldCodeBy code rules, d ∈ r.targets) :
      foldCodeBy code rules = [code] ∨
        ∃ r ∈ rule :: rules, code ∈ r.sources ∧ ∀ d ∈ foldCodeBy code rules, d ∈ r.targets := by
    refine h.imp_right ?_
    rintro ⟨r, hr, hboth⟩
    exact ⟨r, List.mem_cons_of_mem rule hr, hboth⟩
  fun_induction foldCodeBy code rules with
  | case1 => exact .inl rfl
  | case2 => exact .inl rfl
  | case3 first last stride target rules hfirst hlast hstride =>
    -- the code point is so many strides above the first that the rule folds
    have hcount : (code - first) / stride < (last - first) / stride + 1 :=
      Nat.lt_succ_of_le (Nat.div_le_div_right (by omega))
    have hdist : stride * ((code - first) / stride) = code - first :=
      Nat.mul_div_cancel' (Nat.dvd_of_mod_eq_zero hstride)
    refine .inr ⟨_, List.mem_cons_self, ?_, ?_⟩
    · refine List.mem_map.mpr ⟨_, List.mem_range.mpr hcount, ?_⟩
      omega
    · intro d hd
      obtain rfl := List.mem_singleton.mp hd
      exact List.mem_map.mpr ⟨_, List.mem_range.mpr hcount, by rw [hdist]⟩
  | case4 => exact .inl rfl
  | case5 first last stride target rules _ _ ih => exact hlater ih
  | case6 => exact .inl rfl
  | case7 => exact .inr ⟨_, List.mem_cons_self, List.mem_singleton_self _, fun d hd => hd⟩
  | case8 single targets rules _ _ ih => exact hlater ih

/-! ## Code points as the bits of a number -/

/-- The number whose bits are set at the code points. -/
def codeSet (codes : List Nat) : Nat :=
  codes.foldr (fun code set => 1 <<< code ||| set) 0

theorem testBit_codeSet (codes : List Nat) (code : Nat) :
    (codeSet codes).testBit code = decide (code ∈ codes) := by
  induction codes with
  | nil => simp [codeSet]
  | cons first codes ih =>
    rw [codeSet, List.foldr_cons, ← codeSet, Nat.testBit_or, ih, Nat.one_shiftLeft,
      Nat.testBit_two_pow, ← Bool.decide_or]
    exact decide_eq_decide.mpr (by rw [List.mem_cons, eq_comm])

/-- Two lists of code points have none in common if their numbers have no bit in common. -/
theorem not_mem_of_codeSet_and_eq_zero {codes codes' : List Nat}
    (h : codeSet codes &&& codeSet codes' = 0) {code : Nat} (hcode : code ∈ codes') :
    code ∉ codes := by
  intro hcode'
  have hbit := congrArg (Nat.testBit · code) h
  simp [Nat.testBit_and, testBit_codeSet, hcode, hcode'] at hbit

/-! ## The table -/

theorem codeSet_sources_and_targets :
    codeSet (foldRules.flatMap FoldRule.sources) &&& codeSet (foldRules.flatMap FoldRule.targets)
      = 0 := by
  decide +kernel

/-- **The rules fold no code point to one that they fold.** -/
theorem not_mem_sources_of_mem_targets {rule rule' : FoldRule} (hrule : rule ∈ foldRules)
    (hrule' : rule' ∈ foldRules) {code : Nat} (h : code ∈ rule.targets) : code ∉ rule'.sources := by
  intro hsource
  refine not_mem_of_codeSet_and_eq_zero codeSet_sources_and_targets
    (List.mem_flatMap.mpr ⟨rule, hrule, h⟩) ?_
  exact List.mem_flatMap.mpr ⟨rule', hrule', hsource⟩

theorem all_targets_isValidChar :
    (foldRules.flatMap FoldRule.targets).all (fun code => decide code.isValidChar) = true := by
  decide +kernel

/-- A character folds to characters: none of the code points is a surrogate or lies beyond the
last one. -/
theorem isValidChar_of_mem_targets {rule : FoldRule} (hrule : rule ∈ foldRules) {code : Nat}
    (h : code ∈ rule.targets) : code.isValidChar := by
  have hmem : code ∈ foldRules.flatMap FoldRule.targets := List.mem_flatMap.mpr ⟨rule, hrule, h⟩
  simpa using List.all_eq_true.mp all_targets_isValidChar code hmem

/-! ## Folding twice -/

/-- **What a code point folds to folds to itself.** -/
theorem foldCode_of_mem_foldCode {code d : Nat} (h : d ∈ foldCode code) : foldCode d = [d] := by
  rcases foldCodeBy_cases code foldRules with hself | ⟨rule, hrule, -, htargets⟩
  · rw [foldCode, hself] at h
    obtain rfl := List.mem_singleton.mp h
    exact hself
  · rcases foldCodeBy_cases d foldRules with hself | ⟨rule', hrule', hsource, -⟩
    · exact hself
    · exact absurd hsource (not_mem_sources_of_mem_targets hrule hrule' (htargets d h))

theorem toNat_ofNat_of_mem_foldCode {c : Char} {d : Nat} (h : d ∈ foldCode c.toNat) :
    (Char.ofNat d).toNat = d := by
  rcases foldCodeBy_cases c.toNat foldRules with hself | ⟨rule, hrule, -, htargets⟩
  · rw [foldCode, hself] at h
    obtain rfl := List.mem_singleton.mp h
    rw [Char.ofNat_toNat]
  · have hvalid := isValidChar_of_mem_targets hrule (htargets d h)
    rw [Char.ofNat, dif_pos hvalid]
    rfl

theorem foldChar_of_mem_foldChar {c d : Char} (h : d ∈ foldChar c) : foldChar d = [d] := by
  obtain ⟨code, hcode, rfl⟩ := List.mem_map.mp h
  rw [foldChar, toNat_ofNat_of_mem_foldCode hcode, foldCode_of_mem_foldCode hcode]
  rfl

/-- **Folding a text twice is folding it once**, though folding may lengthen it. -/
theorem foldCase_foldCase (text : String) : foldCase (foldCase text) = foldCase text := by
  refine foldCase_eq_self fun d hd => ?_
  rw [toList_foldCase] at hd
  obtain ⟨c, -, hd⟩ := List.mem_flatMap.mp hd
  exact foldChar_of_mem_foldChar hd

/-- The sharp s, a letter with a tittle of its own, and a small letter that folds to a capital. -/
example : foldCase "Stra\u00dfe \u0130 \uab70" = "strasse i\u0307 \u13a0" := by decide +kernel

end CommandBar
