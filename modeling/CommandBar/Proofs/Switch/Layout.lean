import CommandBar.Proofs.Quoted.Longest
import CommandBar.Proofs.Text.Tiling
import CommandBar.Switch.Grammar

/-!
# The layout of a switch line

Where the tokens of a line stand. A token stands on a piece of the text, and between the pieces, in
front of the first and behind the last there are blanks only. A quoted token may hold blanks itself
and extend over several words, so the pieces cannot be told by looking at the blanks alone.

- `IsUnitAt`: a token stands on a piece of the text.
- `Placed`, `IsLayout`: tokens with the pieces that they stand on, and how these lie in the text.
- `isUnitAt_iff`, `units_iff`: the same by what is left of the text.
- `IsLayout.unique`, `IsLayout.existsUnique_covers`: a text has one layout, and every character that
  is not blank belongs to one token.
- `tokenize_layout`: **the tokens of a line are those of its layout**.
-/

namespace CommandBar.Switch

/-- The token stands in the text from `start` up to `stop`. What would be a word is bare only if no
quoted run that starts there ends where a word may end, and then it is the whole word. -/
inductive IsUnitAt (text : List Char) (start stop : Nat) : Token → Prop
  | command :
      text[start]? = some '/' → stop ≤ text.length → text.extract (start + 1) stop ≠ [] →
        (∀ c ∈ text.extract (start + 1) stop, isNameChar c = true) →
        isWordEndAt text stop = true →
        IsUnitAt text start stop (.command (String.ofList (text.extract (start + 1) stop)))
  | quoted {content : List Char} :
      Quoted.IsRunAt text start content stop → isWordEndAt text stop = true →
        (∀ content' stop', Quoted.IsRunAt text start content' stop' →
          isWordEndAt text stop' = true → stop' ≤ stop) →
        IsUnitAt text start stop (.literal (String.ofList content))
  | bare {c : Char} :
      text[start]? = some c → isBlank c = false → c ≠ '/' →
        (∀ content stop', Quoted.IsRunAt text start content stop' →
          isWordEndAt text stop' = false) →
        stop = afterWordAt text start → '/' ∉ text.extract start stop →
        IsUnitAt text start stop (.literal (String.ofList (text.extract start stop)))

/-- A token, and the piece of the text that it stands on: from `start` up to `stop`. -/
structure Placed where
  start : Nat
  stop : Nat
  token : Token
  deriving Repr, DecidableEq

/-- From `pos` on the text consists of the tokens, each on its piece, with at least one blank
between two of them and any number of blanks in front of the first and behind the last. -/
inductive IsLayout (text : List Char) : (pos : Nat) → List Placed → Prop
  | done {pos : Nat} : AllBlank (text.drop pos) → IsLayout text pos []
  | cons {pos : Nat} {unit : Placed} {units : List Placed} :
      pos ≤ unit.start → AllBlank (text.extract pos unit.start) →
        IsUnitAt text unit.start unit.stop unit.token →
        (∀ next ∈ units.head?, unit.stop < next.start) → IsLayout text unit.stop units →
        IsLayout text pos (unit :: units)

/-! ## A token by position and by what is left -/

theorem IsUnit.suffix {s rest : List Char} {token : Token} (h : IsUnit s token rest) :
    rest <:+ s := by
  cases h with
  | @command name _ => exact ⟨'/' :: name, rfl⟩
  | quoted hlongest => exact hlongest.1.suffix
  | bare => exact List.suffix_append _ _

/-- Behind a token a word may end. -/
theorem IsUnit.atWordEnd {s rest : List Char} {token : Token} (h : IsUnit s token rest) :
    atWordEnd rest = true := by
  cases h with
  | command _ _ hend => exact hend
  | quoted hlongest => exact hlongest.2.1
  | bare _ _ hend => exact hend

/-- A token is not empty. -/
theorem IsUnit.length_lt {s rest : List Char} {token : Token} (h : IsUnit s token rest) :
    rest.length < s.length :=
  length_rest_lt_of_judge (judge_eq_takes_iff.mpr h)

/-- **A token at a position** is a token that starts what is left there. -/
theorem isUnitAt_iff {text : List Char} {start stop : Nat} {token : Token} :
    IsUnitAt text start stop token ↔
      stop ≤ text.length ∧ IsUnit (text.drop start) token (text.drop stop) := by
  constructor
  · intro h
    cases h with
    | command hslash hstop hne hname hend =>
      have hname' := (drop_eq_append_drop_iff hne hstop).mpr rfl
      refine ⟨hstop, ?_⟩
      rw [drop_eq_cons_iff.mpr ⟨hslash, hname'⟩]
      exact .command hne hname hend
    | quoted hrun hend hlongest =>
      obtain ⟨hstop, hlongest⟩ := Quoted.isLongestRunAt_iff.mpr ⟨hrun, hend, hlongest⟩
      exact ⟨hstop, .quoted hlongest⟩
    | @bare c hc hblank _ hrun hstop hslash =>
      obtain ⟨hlt, -⟩ := List.getElem?_eq_some_iff.mp hc
      subst hstop
      refine ⟨afterWordAt_le_length (Nat.le_of_lt hlt), ?_⟩
      rw [extract_afterWordAt] at hslash ⊢
      rw [drop_afterWordAt]
      have hne : word (text.drop start) ≠ [] := by
        rw [drop_eq_cons_iff.mpr ⟨hc, rfl⟩, word, List.takeWhile_cons_of_pos (by simp [hblank])]
        exact List.cons_ne_nil _ _
      have hunit : IsUnit (word (text.drop start) ++ afterWord (text.drop start))
          (.literal (String.ofList (word (text.drop start)))) (afterWord (text.drop start)) := by
        refine .bare hne (fun d hd => ⟨isBlank_of_mem_word hd, ?_⟩) (atWordEnd_afterWord _) ?_
        · rintro rfl
          exact hslash hd
        · rw [word_append_afterWord]
          exact Quoted.forall_isRunAt_iff.mp hrun
      rwa [word_append_afterWord] at hunit
  · rintro ⟨hstop, h⟩
    generalize hs : text.drop start = s at h
    generalize hr : text.drop stop = rest at h
    cases h with
    | @command name rest hne hname hend =>
      obtain ⟨hslash, hs⟩ := drop_eq_cons_iff.mp hs
      subst hr
      obtain rfl := (drop_eq_append_drop_iff hne hstop).mp hs
      exact .command hslash hstop hne hname hend
    | quoted hlongest =>
      subst hs hr
      obtain ⟨hrun, hend, hlongest⟩ := Quoted.isLongestRunAt_iff.mp ⟨hstop, hlongest⟩
      exact .quoted hrun hend hlongest
    | @bare w rest hne hw hend hrun =>
      subst hr
      obtain ⟨hword, -⟩ := word_append (fun c hc => (hw c hc).1) hend
      have hafter : stop = afterWordAt text start := by
        rw [eq_add_length_of_drop_eq hne hstop hs, afterWordAt, hs, hword]
      have hpiece := (drop_eq_append_drop_iff hne hstop).mp hs
      obtain ⟨c, w', rfl⟩ := List.exists_cons_of_ne_nil hne
      obtain ⟨hblank, hslash⟩ := hw c List.mem_cons_self
      rw [← hs] at hrun
      rw [← hpiece]
      refine .bare (drop_eq_cons_iff.mp hs).1 hblank hslash (Quoted.forall_isRunAt_iff.mpr hrun)
        hafter ?_
      rw [hpiece]
      intro hmem
      exact (hw '/' hmem).2 rfl

/-- Where a token starts decides which token it is and where it ends. -/
theorem IsUnitAt.unique {text : List Char} {start stop stop' : Nat} {token token' : Token}
    (h : IsUnitAt text start stop token) (h' : IsUnitAt text start stop' token') :
    stop = stop' ∧ token = token' := by
  obtain ⟨hstop, hunit⟩ := isUnitAt_iff.mp h
  obtain ⟨hstop', hunit'⟩ := isUnitAt_iff.mp h'
  have hjudge := judge_eq_takes_iff.mpr hunit
  rw [judge_eq_takes_iff.mpr hunit'] at hjudge
  obtain ⟨htoken, hrest⟩ := Verdict.takes.inj hjudge
  exact ⟨eq_of_drop_eq hstop hstop' hrest.symm, htoken.symm⟩

/-- A token starts with a character that is not blank. -/
theorem IsUnitAt.exists_first {text : List Char} {start stop : Nat} {token : Token}
    (h : IsUnitAt text start stop token) : ∃ c, text[start]? = some c ∧ isBlank c = false := by
  cases h with
  | command hslash => exact ⟨'/', hslash, by decide⟩
  | quoted hrun =>
    obtain ⟨opener, hopener, hopens⟩ := hrun.opens
    exact ⟨opener, hopener, isBlank_of_isOpener hopens⟩
  | bare hc hblank => exact ⟨_, hc, hblank⟩

theorem IsUnitAt.start_lt_stop {text : List Char} {start stop : Nat} {token : Token}
    (h : IsUnitAt text start stop token) : start < stop := by
  obtain ⟨hstop, hunit⟩ := isUnitAt_iff.mp h
  have hlt := hunit.length_lt
  rw [List.length_drop, List.length_drop] at hlt
  omega

/-! ## The layout of a text -/

/-- In front of the first token there is a blank, if a word may end there. -/
theorem IsLayout.lt_start {text : List Char} {pos : Nat} {next : Placed} {units : List Placed}
    (h : IsLayout text pos (next :: units)) (hend : isWordEndAt text pos = true) :
    pos < next.start := by
  cases h with
  | cons hle _ hunit =>
    obtain ⟨c, hc, hblank⟩ := hunit.exists_first
    refine Nat.lt_of_le_of_ne hle ?_
    rintro rfl
    rw [isWordEndAt, drop_eq_cons_iff.mpr ⟨hc, rfl⟩, atWordEnd, hblank] at hend
    cases hend

/-- **What is left at a position consists of tokens** exactly if these have a layout from there. -/
theorem units_iff {text : List Char} {pos : Nat} {tokens : List Token} :
    Units (text.drop pos) tokens ↔
      ∃ units, IsLayout text pos units ∧ units.map (·.token) = tokens := by
  constructor
  · intro h
    generalize hs : text.drop pos = s at h
    induction h generalizing pos with
    | done hgap =>
      subst hs
      exact ⟨[], .done hgap, rfl⟩
    | @cons gap s rest token tokens hgap hunit _ ih =>
      have hstart := drop_add_length hs
      have hgap' := extract_add_length hs
      have hsuffix : rest <:+ text.drop pos := by
        rw [hs]
        exact hunit.suffix.trans (List.suffix_append gap s)
      have hrest := drop_length_sub_length hsuffix
      obtain ⟨units, hlayout, rfl⟩ := ih hrest
      refine ⟨⟨pos + gap.length, text.length - rest.length, token⟩ :: units, ?_, rfl⟩
      refine .cons (Nat.le_add_right _ _) ?_ ?_ ?_ hlayout
      · rwa [hgap']
      · refine isUnitAt_iff.mpr ⟨Nat.sub_le _ _, ?_⟩
        rw [hstart, hrest]
        exact hunit
      · intro next hnext
        obtain ⟨units', rfl⟩ := List.head?_eq_some_iff.mp hnext
        refine hlayout.lt_start ?_
        rw [isWordEndAt, hrest]
        exact hunit.atWordEnd
  · rintro ⟨units, h, rfl⟩
    induction h with
    | done hblank => exact .done hblank
    | cons hle hgap hunit _ _ ih =>
      rw [drop_eq_extract_append hle]
      exact .cons hgap (isUnitAt_iff.mp hunit).2 ih

/-- **A text has one layout.** -/
theorem IsLayout.unique {text : List Char} {pos : Nat} {units units' : List Placed}
    (h : IsLayout text pos units) (h' : IsLayout text pos units') : units = units' := by
  induction h generalizing units' with
  | done hblank =>
    cases h' with
    | done => rfl
    | cons hle _ hunit =>
      obtain ⟨c, hc, hc'⟩ := hunit.exists_first
      rw [hblank c (mem_drop_of_getElem? hle hc)] at hc'
      cases hc'
  | @cons pos unit units hle hgap hunit _ _ ih =>
    obtain ⟨c, hc, hblank⟩ := hunit.exists_first
    cases h' with
    | done hblank' =>
      rw [hblank' c (mem_drop_of_getElem? hle hc)] at hblank
      cases hblank
    | @cons _ unit' units' hle' hgap' hunit' _ hrest' =>
      obtain ⟨c', hc', hblank'⟩ := hunit'.exists_first
      obtain ⟨start, stop, token⟩ := unit
      obtain ⟨start', stop', token'⟩ := unit'
      have hstart : start = start' :=
        Nat.le_antisymm (start_le_of_allBlank hgap hle' hc' hblank')
          (start_le_of_allBlank hgap' hle hc hblank)
      subst hstart
      obtain ⟨hstop, htoken⟩ := hunit.unique hunit'
      have hstop : stop = stop' := hstop
      have htoken : token = token' := htoken
      subst hstop htoken
      rw [ih hrest']

/-- The tokens stand on pieces of the text that follow one another. -/
theorem IsLayout.tiles {text : List Char} {pos : Nat} {units : List Placed}
    (h : IsLayout text pos units) : Tiles Placed.start Placed.stop text pos units := by
  induction h with
  | done hblank => exact .done hblank
  | cons hle hgap hunit _ _ ih => exact .cons hle hgap hunit.start_lt_stop ih

/-- **Every character that is not blank belongs to one token.** -/
theorem IsLayout.existsUnique_covers {text : List Char} {pos i : Nat} {units : List Placed}
    {c : Char} (h : IsLayout text pos units) (hpos : pos ≤ i) (hc : text[i]? = some c)
    (hblank : isBlank c = false) : ∃! unit, unit ∈ units ∧ unit.start ≤ i ∧ i < unit.stop :=
  h.tiles.existsUnique_covers hpos hc hblank

/-! ## The tokens of a line -/

/-- **The tokens of a line are those of its layout**, and a line that has no layout has no tokens.
A line has at most one layout, and in it every character that is not blank belongs to exactly one
token. -/
theorem tokenize_layout (text : String) (tokens : List Token) :
    (tokenize text = .ok tokens ↔
      ∃ units, IsLayout text.toList 0 units ∧ units.map (·.token) = tokens) ∧
    (∀ units units', IsLayout text.toList 0 units → IsLayout text.toList 0 units' →
      units = units') ∧
    ∀ units i c, IsLayout text.toList 0 units → text.toList[i]? = some c → isBlank c = false →
      ∃! unit, unit ∈ units ∧ unit.start ≤ i ∧ i < unit.stop := by
  refine ⟨?_, ?_, ?_⟩
  · show tokensOf text.toList = .ok tokens ↔ _
    rw [tokensOf_eq_ok_iff]
    have h : Units (text.toList.drop 0) tokens ↔ _ := units_iff
    rwa [List.drop_zero] at h
  · intro units units' h h'
    exact h.unique h'
  · intro units i c h hc hblank
    exact h.existsUnique_covers (Nat.zero_le i) hc hblank

/-- A quoted token that extends over two words: the character in its second word belongs to it
alone. -/
theorem tokenize_layout_twoWords :
    ∃ units, IsLayout "/to \"a b\" c".toList 0 units ∧
      units.map (·.token) = [.command "to", .literal "a b", .literal "c"] ∧
      (∀ units', IsLayout "/to \"a b\" c".toList 0 units' → units' = units) ∧
      ∃! unit, unit ∈ units ∧ unit.start ≤ 7 ∧ 7 < unit.stop := by
  obtain ⟨htokens, hunique, hcovers⟩ :=
    tokenize_layout "/to \"a b\" c" [.command "to", .literal "a b", .literal "c"]
  obtain ⟨units, hlayout, hmap⟩ := htokens.mp (by cbv)
  refine ⟨units, hlayout, hmap, ?_, ?_⟩
  · intro units' h
    exact hunique units' units h hlayout
  · exact hcovers units 7 'b' hlayout (by decide) (by decide)

end CommandBar.Switch
