import CommandBar.Proofs.Text.Extract
import CommandBar.Quoted.Grammar
import CommandBar.Quoted.Position
import CommandBar.Text.Position

/-!
# The longest accepted run

What looking for a quoted run at a position comes to, said by positions alone. A run is a piece of
the text between two quotes; several runs may start at one position, and the one that is found is
the longest whose end is accepted.

- `Body`: what may stand between the quotes, and what it stands for.
- `IsRunAt`: a run of a text, from one position to another.
- `isRunAt_iff`: it is a run of what is left at the first position.
- `isLongestRunAt_iff`, `forall_isRunAt_iff`: the longest run with a welcome end, and that there is
  none, by position and by what is left.
- `runAt_found_eq_some_iff`, `runAt_found_eq_none_iff`, `mem_asked_iff`: what is found, and which
  ends are asked about on the way.
- `runAt_longest`: **the longest run whose end is accepted is found**, and no end is asked about
  once one has been accepted.
-/

namespace CommandBar.Quoted

/-- The characters `body`, which stand between quotes, stand for `content`. A backslash and a quote
stand for the quote, and a character that is neither a quote nor a control character for itself. -/
inductive Body : (body content : List Char) → Prop
  | nil : Body [] []
  | escaped {q : Char} {body content : List Char} :
      isGlyph q = true → Body body content → Body ('\\' :: q :: body) (q :: content)
  | plain {c : Char} {body content : List Char} :
      isGlyph c = false → isControl c = false → Body body content →
        Body (c :: body) (c :: content)

/-- The piece of the text from `pos` up to `stop` is a quoted run that encloses `content`. -/
structure IsRunAt (text : List Char) (pos : Nat) (content : List Char) (stop : Nat) : Prop where
  two_le : pos + 2 ≤ stop
  stop_le : stop ≤ text.length
  opens : ∃ opener, text[pos]? = some opener ∧ isOpener opener = true
  shuts : ∃ closer, text[stop - 1]? = some closer ∧ isCloser closer = true
  body : Body (text.extract (pos + 1) (stop - 1)) content

/-- The end is accepted. Where nothing is given to accept ends by, every end is. -/
def accepts (accept : Option (Nat → Bool)) (stop : Nat) : Bool :=
  accept.all (· stop)

/-! ## Runs by position and runs of what is left -/

/-- What is enclosed is a body and the quote that closes it. -/
theorem encloses_iff {s content rest : List Char} :
    Encloses s content rest ↔
      ∃ body closer, s = body ++ closer :: rest ∧ isCloser closer = true ∧ Body body content := by
  constructor
  · intro h
    induction h with
    | @closed c rest hc => exact ⟨[], c, rfl, hc, .nil⟩
    | @escaped q s content rest hq _ ih =>
      obtain ⟨body, closer, rfl, hc, hbody⟩ := ih
      exact ⟨'\\' :: q :: body, closer, rfl, hc, .escaped hq hbody⟩
    | @plain c s content rest hglyph hcontrol _ ih =>
      obtain ⟨body, closer, rfl, hc, hbody⟩ := ih
      exact ⟨c :: body, closer, rfl, hc, .plain hglyph hcontrol hbody⟩
  · rintro ⟨body, closer, rfl, hc, hbody⟩
    induction hbody with
    | nil => exact .closed hc
    | escaped hq _ ih => exact .escaped hq ih
    | plain hglyph hcontrol _ ih => exact .plain hglyph hcontrol ih

/-- What follows a run is a later part of the text. -/
theorem IsRun.suffix {s content rest : List Char} (h : IsRun s content rest) : rest <:+ s := by
  obtain ⟨opener, s', rfl, -, h⟩ := h
  obtain ⟨body, closer, rfl, -, -⟩ := encloses_iff.mp h
  exact ⟨opener :: (body ++ [closer]), by simp⟩

/-- **A run at a position** is a run of what is left there. -/
theorem isRunAt_iff {text content : List Char} {pos stop : Nat} :
    IsRunAt text pos content stop ↔
      stop ≤ text.length ∧ IsRun (text.drop pos) content (text.drop stop) := by
  constructor
  · rintro ⟨htwo, hstop, ⟨opener, hopener, hopens⟩, ⟨closer, hcloser, hshuts⟩, hbody⟩
    have hlast : text.drop (stop - 1) = closer :: text.drop stop := by
      refine drop_eq_cons_iff.mpr ⟨hcloser, ?_⟩
      rw [show stop - 1 + 1 = stop by omega]
    have hmiddle : text.drop (pos + 1) = text.extract (pos + 1) (stop - 1) ++ _ :=
      drop_eq_extract_append (by omega)
    rw [hlast] at hmiddle
    refine ⟨hstop, opener, _, drop_eq_cons_iff.mpr ⟨hopener, rfl⟩, hopens, ?_⟩
    exact encloses_iff.mpr ⟨_, closer, hmiddle, hshuts, hbody⟩
  · rintro ⟨hstop, opener, s, hs, hopens, hencloses⟩
    obtain ⟨body, closer, rfl, hshuts, hbody⟩ := encloses_iff.mp hencloses
    obtain ⟨hopener, hrest⟩ := drop_eq_cons_iff.mp hs
    -- the closing quote stands behind the body, and that is right before `stop`
    have hcloser := drop_add_length hrest
    have hlength := congrArg List.length hcloser
    simp only [List.length_drop, List.length_cons] at hlength
    have hlast : stop - 1 = pos + 1 + body.length := by omega
    refine ⟨by omega, hstop, ⟨opener, hopener, hopens⟩, ⟨closer, ?_, hshuts⟩, ?_⟩
    · rw [hlast]
      exact (drop_eq_cons_iff.mp hcloser).1
    · rw [hlast, extract_add_length hrest]
      exact hbody

/-- A run of what is left at a position ends at a position of the text. -/
theorem IsRun.isRunAt {text content rest : List Char} {pos : Nat}
    (h : IsRun (text.drop pos) content rest) :
    IsRunAt text pos content (text.length - rest.length) := by
  refine isRunAt_iff.mpr ⟨Nat.sub_le _ _, ?_⟩
  rw [drop_length_sub_length h.suffix]
  exact h

/-- Two runs from one position to another enclose the same. -/
theorem IsRunAt.content_unique {text content content' : List Char} {pos stop : Nat}
    (h : IsRunAt text pos content stop) (h' : IsRunAt text pos content' stop) :
    content = content' :=
  (isRunAt_iff.mp h).2.content_unique (isRunAt_iff.mp h').2

/-- **The longest run with a welcome end** is the same by position and by what is left. -/
theorem isLongestRunAt_iff {welcome : List Char → Bool} {text content : List Char}
    {pos stop : Nat} :
    stop ≤ text.length ∧ IsLongestRun welcome (text.drop pos) content (text.drop stop) ↔
      IsRunAt text pos content stop ∧ welcome (text.drop stop) = true ∧
        ∀ content' stop', IsRunAt text pos content' stop' → welcome (text.drop stop') = true →
          stop' ≤ stop := by
  constructor
  · rintro ⟨hstop, hrun, hend, hlongest⟩
    refine ⟨isRunAt_iff.mpr ⟨hstop, hrun⟩, hend, ?_⟩
    intro content' stop' hrun' hend'
    have hle := hlongest content' _ (isRunAt_iff.mp hrun').2 hend'
    have hstop' := hrun'.stop_le
    rw [List.length_drop, List.length_drop] at hle
    omega
  · rintro ⟨hrun, hend, hlongest⟩
    obtain ⟨hstop, hrun⟩ := isRunAt_iff.mp hrun
    refine ⟨hstop, hrun, hend, ?_⟩
    intro content' rest' hrun' hend'
    have hrest' := drop_length_sub_length hrun'.suffix
    have hle := hlongest content' _ hrun'.isRunAt (by rwa [hrest'])
    have hsuffix := hrun'.suffix.length_le
    rw [List.length_drop] at hsuffix ⊢
    omega

/-- No run has a welcome end, by position and by what is left. -/
theorem forall_isRunAt_iff {welcome : List Char → Bool} {text : List Char} {pos : Nat} :
    (∀ content stop, IsRunAt text pos content stop → welcome (text.drop stop) = false) ↔
      ∀ content rest, IsRun (text.drop pos) content rest → welcome rest = false := by
  constructor
  · intro h content rest hrun
    have hend := h content _ hrun.isRunAt
    rwa [drop_length_sub_length hrun.suffix] at hend
  · intro h content stop hrun
    exact h content _ (isRunAt_iff.mp hrun).2

/-! ## What is found -/

/-- Looking for a run at a position is reading one whose end is accepted. -/
theorem runAt_found (accept : Option (Nat → Bool)) (text : List Char) (pos : Nat) :
    (runAt accept text pos).found =
      (run? (fun rest => accepts accept (text.length - rest.length)) (text.drop pos)).map
        fun close => (close.content, close.endIn text) := by
  cases accept with
  | none =>
    show (closes (text.drop pos)).head?.map _ = ((closes (text.drop pos)).find? _).map _
    cases closes (text.drop pos) <;> rfl
  | some accept => rfl

/-- At the end of a run, being accepted by position is being accepted by what is left. -/
theorem IsRunAt.accepts_eq {text content : List Char} {pos stop : Nat}
    (h : IsRunAt text pos content stop) (accept : Option (Nat → Bool)) :
    accepts accept (text.length - (text.drop stop).length) = accepts accept stop := by
  rw [length_sub_length_drop h.stop_le]

theorem runAt_found_eq_none_iff {accept : Option (Nat → Bool)} {text : List Char} {pos : Nat} :
    (runAt accept text pos).found = none ↔
      ∀ content stop, IsRunAt text pos content stop → accepts accept stop = false := by
  rw [runAt_found, Option.map_eq_none_iff, run?_eq_none_iff, ← forall_isRunAt_iff]
  refine forall₂_congr fun content stop => forall_congr' fun hrun => ?_
  rw [hrun.accepts_eq]

/-- **What is found** is the run with the greatest end that is accepted. -/
theorem runAt_found_eq_some_iff {accept : Option (Nat → Bool)} {text : List Char} {pos stop : Nat}
    {content : String} :
    (runAt accept text pos).found = some (content, stop) ↔
      IsRunAt text pos content.toList stop ∧ accepts accept stop = true ∧
        ∀ content' stop', IsRunAt text pos content' stop' → accepts accept stop' = true →
          stop' ≤ stop := by
  have hlongest : (stop ≤ text.length ∧
      IsLongestRun (fun rest => accepts accept (text.length - rest.length)) (text.drop pos)
        content.toList (text.drop stop)) ↔
      IsRunAt text pos content.toList stop ∧ accepts accept stop = true ∧
        ∀ content' stop', IsRunAt text pos content' stop' → accepts accept stop' = true →
          stop' ≤ stop := by
    rw [isLongestRunAt_iff]
    refine and_congr_right fun hrun => ?_
    rw [hrun.accepts_eq]
    refine and_congr_right fun _ => forall₂_congr fun content' stop' => ?_
    refine forall_congr' fun hrun' => ?_
    rw [hrun'.accepts_eq]
  rw [← hlongest, runAt_found, Option.map_eq_some_iff]
  constructor
  · rintro ⟨close, hclose, heq⟩
    have hrun := run?_eq_some_iff.mp hclose
    obtain ⟨rfl, rfl⟩ := Prod.mk.inj heq
    refine ⟨Nat.sub_le _ _, ?_⟩
    rwa [Close.endIn, drop_length_sub_length hrun.1.suffix, Close.content, String.toList_ofList]
  · rintro ⟨hstop, hrun⟩
    refine ⟨⟨content.toList.reverse, text.drop stop⟩, run?_eq_some_iff.mpr ?_, ?_⟩
    · rwa [List.reverse_reverse]
    · rw [Close.content, Close.endIn, List.reverse_reverse, String.ofList_toList,
        length_sub_length_drop hstop]

/-! ## Which ends are asked about -/

/-- In a list that descends, the elements up to the first that satisfies the test are those above
which none does. -/
theorem mem_throughFirst_iff {test : Nat → Bool} {l : List Nat} (h : l.Pairwise (· > ·)) {a : Nat} :
    a ∈ throughFirst test l ↔ a ∈ l ∧ ∀ b ∈ l, a < b → test b = false := by
  induction h with
  | nil => simp [throughFirst]
  | @cons b l hb _ ih =>
    rw [throughFirst]
    split
    · next htest =>
      rw [List.mem_singleton]
      constructor
      · rintro rfl
        refine ⟨List.mem_cons_self, ?_⟩
        intro c hc hlt
        rcases List.mem_cons.mp hc with rfl | hc
        · omega
        · have := hb c hc
          omega
      · rintro ⟨hmem, hnone⟩
        rcases List.mem_cons.mp hmem with rfl | hmem
        · rfl
        · have := hnone b List.mem_cons_self (hb a hmem)
          rw [htest] at this
          cases this
    · next htest =>
      rw [List.mem_cons, List.mem_cons, ih]
      constructor
      · rintro (rfl | ⟨hmem, hnone⟩)
        · refine ⟨.inl rfl, ?_⟩
          intro c hc hlt
          rcases List.mem_cons.mp hc with rfl | hc
          · omega
          · have := hb c hc
            omega
        · refine ⟨.inr hmem, ?_⟩
          intro c hc hlt
          rcases List.mem_cons.mp hc with rfl | hc
          · simpa using htest
          · exact hnone c hc hlt
      · rintro ⟨rfl | hmem, hnone⟩
        · exact .inl rfl
        · exact .inr ⟨hmem, fun c hc => hnone c (List.mem_cons_of_mem _ hc)⟩

theorem throughFirst_sublist {α : Type} (test : α → Bool) :
    ∀ l : List α, (throughFirst test l).Sublist l
  | [] => .slnil
  | a :: l => by
    rw [throughFirst]
    split
    · exact .cons_cons a (List.nil_sublist l)
    · exact .cons_cons a (throughFirst_sublist test l)

/-- The ends of the runs at a position, from the longest run down. -/
def endsAt (text : List Char) (pos : Nat) : List Nat :=
  (closes (text.drop pos)).map (·.endIn text)

theorem mem_endsAt_iff {text : List Char} {pos stop : Nat} :
    stop ∈ endsAt text pos ↔ ∃ content, IsRunAt text pos content stop := by
  rw [endsAt, List.mem_map]
  constructor
  · rintro ⟨close, hclose, rfl⟩
    exact ⟨_, (mem_closes_iff.mp hclose).isRunAt⟩
  · rintro ⟨content, hrun⟩
    refine ⟨⟨content.reverse, text.drop stop⟩, ?_, length_sub_length_drop hrun.stop_le⟩
    refine mem_closes_iff.mpr ?_
    rw [List.reverse_reverse]
    exact (isRunAt_iff.mp hrun).2

theorem pairwise_endsAt (text : List Char) (pos : Nat) : (endsAt text pos).Pairwise (· > ·) := by
  refine List.pairwise_map.mpr (List.Pairwise.imp_of_mem ?_ (pairwise_closes (text.drop pos)))
  intro a b _ hb hlt
  have hle := (mem_closes_iff.mp hb).suffix.length_le
  rw [List.length_drop] at hle
  show text.length - b.rest.length < text.length - a.rest.length
  omega

theorem runAt_asked (accept : Option (Nat → Bool)) (text : List Char) (pos : Nat) :
    (runAt accept text pos).asked =
      match accept with
      | none => []
      | some accept => throughFirst accept (endsAt text pos) := by
  cases accept <;> rfl

theorem pairwise_asked (accept : Option (Nat → Bool)) (text : List Char) (pos : Nat) :
    (runAt accept text pos).asked.Pairwise (· > ·) := by
  rw [runAt_asked]
  cases accept with
  | none => exact .nil
  | some accept => exact (pairwise_endsAt text pos).sublist (throughFirst_sublist _ _)

/-- **The ends that are asked about** are those of the runs that are not shorter than one whose end
is accepted. -/
theorem mem_asked_iff {accept : Option (Nat → Bool)} {text : List Char} {pos stop : Nat} :
    stop ∈ (runAt accept text pos).asked ↔
      accept.isSome = true ∧ (∃ content, IsRunAt text pos content stop) ∧
        ∀ content' stop', IsRunAt text pos content' stop' → stop < stop' →
          accepts accept stop' = false := by
  rw [runAt_asked]
  cases accept with
  | none => simp
  | some accept =>
    rw [mem_throughFirst_iff (pairwise_endsAt text pos), mem_endsAt_iff]
    show _ ↔ true = true ∧ _
    rw [eq_self_iff_true, true_and]
    refine and_congr Iff.rfl ⟨?_, ?_⟩
    · intro h content' stop' hrun hlt
      exact h stop' (mem_endsAt_iff.mpr ⟨content', hrun⟩) hlt
    · intro h stop' hmem hlt
      obtain ⟨content', hrun⟩ := mem_endsAt_iff.mp hmem
      exact h content' stop' hrun hlt

/-! ## The longest accepted run -/

/-- **Looking for a run at a position**, whatever the text and whatever accepts the ends. Where a
run ends decides what it encloses. What is found is the run with the greatest end that is accepted,
and nothing is found only if no end is. The ends are asked about from the greatest down, and they
are those of the runs above which no end is accepted. -/
theorem runAt_longest (accept : Option (Nat → Bool)) (text : List Char) (pos : Nat) :
    (∀ content content' stop, IsRunAt text pos content stop → IsRunAt text pos content' stop →
      content = content') ∧
    (∀ content stop, (runAt accept text pos).found = some (content, stop) ↔
      IsRunAt text pos content.toList stop ∧ accepts accept stop = true ∧
        ∀ content' stop', IsRunAt text pos content' stop' → accepts accept stop' = true →
          stop' ≤ stop) ∧
    ((runAt accept text pos).found = none ↔
      ∀ content stop, IsRunAt text pos content stop → accepts accept stop = false) ∧
    (runAt accept text pos).asked.Pairwise (· > ·) ∧
    ∀ stop, stop ∈ (runAt accept text pos).asked ↔
      accept.isSome = true ∧ (∃ content, IsRunAt text pos content stop) ∧
        ∀ content' stop', IsRunAt text pos content' stop' → stop < stop' →
          accepts accept stop' = false := by
  refine ⟨?_, ?_, runAt_found_eq_none_iff, pairwise_asked accept text pos, ?_⟩
  · intro content content' stop h h'
    exact h.content_unique h'
  · intro content stop
    exact runAt_found_eq_some_iff
  · intro stop
    exact mem_asked_iff

/-- The text `"x\" "y`, in which a run may end behind the escaped quote and behind the last one. -/
def twoRuns : List Char := ['"', 'x', '\\', '"', ' ', '"', 'y']

/-- Where a word has to end, the shorter of the two runs is found, and the end of the longer one was
asked about before. -/
theorem runAt_longest_twoRuns :
    IsRunAt twoRuns 0 ['x', '\\'] 4 ∧ IsRunAt twoRuns 0 ['x', '"', ' '] 6 ∧
      (∀ content, IsRunAt twoRuns 0 content 6 → content = ['x', '"', ' ']) ∧
      isWordEndAt twoRuns 6 = false := by
  have hword := runAt_longest (some (isWordEndAt twoRuns)) twoRuns 0
  have hany := runAt_longest none twoRuns 0
  have hshort : IsRunAt twoRuns 0 ['x', '\\'] 4 := ((hword.2.1 "x\\" 4).mp (by decide)).1
  have hlong : IsRunAt twoRuns 0 ['x', '"', ' '] 6 := ((hany.2.1 "x\" " 6).mp (by decide)).1
  have hasked : 4 ∈ (runAt (some (isWordEndAt twoRuns)) twoRuns 0).asked := by decide
  refine ⟨hshort, hlong, ?_, ?_⟩
  · intro content hrun
    exact hany.1 _ _ 6 hrun hlong
  · exact ((hword.2.2.2.2 4).mp hasked).2.2 _ 6 hlong (by decide)

end CommandBar.Quoted
