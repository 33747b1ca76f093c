/-!
# Steps that may fail

What it means that a step succeeds which is made of others: all of them succeed. It fails as the
first of them does that fails.

- `exists_eq_ok_iff`: a step succeeds unless it fails.
- `ok_bind`, `bind_eq_ok_iff`, `bind_eq_error_iff`: one step and another that uses what it gave.
- `mapM_cons_eq_ok_iff`, `exists_mapM_eq_ok_iff`, `forall_mem_of_mapM`, `map_eq_map_of_mapM`: one
  step for each element of a list.
- `mapM_eq_error_iff`, `foldlM_eq_error_iff`: such steps fail as the first does that fails.
- `findM?_map`: looking for the first element with a test that may fail.
-/

namespace CommandBar.Outcome

variable {ε α β : Type}

/-- A step succeeds unless it fails. -/
theorem exists_eq_ok_iff {x : Except ε α} : (∃ a, x = .ok a) ↔ ∀ e, x ≠ .error e := by
  cases x <;> simp

/-- A step that succeeded hands on what it gave. -/
theorem ok_bind (a : α) (f : α → Except ε β) : (Except.ok a >>= f) = f a :=
  rfl

theorem bind_eq_ok_iff {x : Except ε α} {f : α → Except ε β} {b : β} :
    x >>= f = .ok b ↔ ∃ a, x = .ok a ∧ f a = .ok b := by
  cases x with
  | error e =>
    constructor
    · intro h
      cases h
    · rintro ⟨_, h, _⟩
      cases h
  | ok a =>
    constructor
    · intro h
      exact ⟨a, rfl, h⟩
    · rintro ⟨_, h, hf⟩
      cases h
      exact hf

theorem bind_eq_error_iff {x : Except ε α} {f : α → Except ε β} {e : ε} :
    x >>= f = .error e ↔ x = .error e ∨ ∃ a, x = .ok a ∧ f a = .error e := by
  cases x with
  | error e' =>
    constructor
    · intro h
      cases h
      exact .inl rfl
    · rintro (h | ⟨_, h, _⟩)
      · cases h
        rfl
      · cases h
  | ok a =>
    constructor
    · intro h
      exact .inr ⟨a, rfl, h⟩
    · rintro (h | ⟨_, h, hf⟩)
      · cases h
      · cases h
        exact hf

theorem mapM_nil_eq_ok_iff {f : α → Except ε β} {bs : List β} :
    [].mapM f = .ok bs ↔ bs = [] := by
  rw [List.mapM_nil]
  constructor
  · intro h
    cases h
    rfl
  · rintro rfl
    rfl

theorem mapM_cons_eq_ok_iff {f : α → Except ε β} {a : α} {as : List α} {bs : List β} :
    (a :: as).mapM f = .ok bs ↔
      ∃ b bs', f a = .ok b ∧ as.mapM f = .ok bs' ∧ bs = b :: bs' := by
  rw [List.mapM_cons, bind_eq_ok_iff]
  refine exists_congr fun b => ?_
  rw [bind_eq_ok_iff]
  constructor
  · rintro ⟨hb, bs', hbs, h⟩
    cases h
    exact ⟨bs', hb, hbs, rfl⟩
  · rintro ⟨bs', hb, hbs, rfl⟩
    exact ⟨hb, bs', hbs, rfl⟩

/-- The steps for the elements of a list succeed exactly if each of them does. -/
theorem exists_mapM_eq_ok_iff {f : α → Except ε β} {as : List α} :
    (∃ bs, as.mapM f = .ok bs) ↔ ∀ a ∈ as, ∃ b, f a = .ok b := by
  induction as with
  | nil => exact ⟨fun _ a ha => absurd ha List.not_mem_nil, fun _ => ⟨[], rfl⟩⟩
  | cons a as ih =>
    rw [List.forall_mem_cons, ← ih]
    constructor
    · rintro ⟨bs, h⟩
      obtain ⟨b, bs', hb, hbs, -⟩ := mapM_cons_eq_ok_iff.mp h
      exact ⟨⟨b, hb⟩, bs', hbs⟩
    · rintro ⟨⟨b, hb⟩, bs, hbs⟩
      exact ⟨b :: bs, mapM_cons_eq_ok_iff.mpr ⟨b, bs, hb, hbs, rfl⟩⟩

/-- What holds of the result of each step holds of all results. -/
theorem forall_mem_of_mapM {f : α → Except ε β} {P : β → Prop} (hP : ∀ a b, f a = .ok b → P b)
    {as : List α} {bs : List β} (h : as.mapM f = .ok bs) : ∀ b ∈ bs, P b := by
  induction as generalizing bs with
  | nil =>
    obtain rfl := mapM_nil_eq_ok_iff.mp h
    exact fun b hb => absurd hb List.not_mem_nil
  | cons a as ih =>
    obtain ⟨b, bs', hb, hbs, rfl⟩ := mapM_cons_eq_ok_iff.mp h
    exact List.forall_mem_cons.mpr ⟨hP a b hb, ih hbs⟩

/-- What can be told of the result of each step can be told of the list of the results. -/
theorem map_eq_map_of_mapM {γ : Type} {f : α → Except ε β} {g : β → γ} {g' : α → γ}
    (hg : ∀ a b, f a = .ok b → g b = g' a) {as : List α} {bs : List β} (h : as.mapM f = .ok bs) :
    bs.map g = as.map g' := by
  induction as generalizing bs with
  | nil =>
    obtain rfl := mapM_nil_eq_ok_iff.mp h
    rfl
  | cons a as ih =>
    obtain ⟨b, bs', hb, hbs, rfl⟩ := mapM_cons_eq_ok_iff.mp h
    rw [List.map_cons, List.map_cons, hg a b hb, ih hbs]

/-- **The steps for the elements of a list fail** as the first does that fails. -/
theorem mapM_eq_error_iff {f : α → Except ε β} {as : List α} {e : ε} :
    as.mapM f = .error e ↔
      ∃ before a after, as = before ++ a :: after ∧ (∀ a' ∈ before, ∃ b, f a' = .ok b) ∧
        f a = .error e := by
  induction as with
  | nil =>
    constructor
    · intro h
      cases h
    · rintro ⟨before, a, after, h, -, -⟩
      cases before <;> cases h
  | cons first as ih =>
    rw [List.mapM_cons, bind_eq_error_iff]
    constructor
    · rintro (h | ⟨b, hb, h⟩)
      · exact ⟨[], first, as, rfl, fun a' ha' => absurd ha' List.not_mem_nil, h⟩
      · rcases bind_eq_error_iff.mp h with h | ⟨_, _, h⟩
        · obtain ⟨before, a, after, rfl, hbefore, ha⟩ := ih.mp h
          exact ⟨first :: before, a, after, rfl, List.forall_mem_cons.mpr ⟨⟨b, hb⟩, hbefore⟩, ha⟩
        · cases h
    · rintro ⟨before, a, after, has, hbefore, ha⟩
      cases before with
      | nil =>
        cases has
        exact .inl ha
      | cons first' before =>
        cases has
        obtain ⟨⟨b, hb⟩, hbefore⟩ := List.forall_mem_cons.mp hbefore
        have hrest := ih.mpr ⟨before, a, after, rfl, hbefore, ha⟩
        exact .inr ⟨b, hb, bind_eq_error_iff.mpr (.inl hrest)⟩

/-- **The steps that lead from one state to the next fail** as the first does that fails, in the
state to which those before it lead. -/
theorem foldlM_eq_error_iff {f : β → α → Except ε β} {as : List α} {b : β} {e : ε} :
    as.foldlM f b = .error e ↔
      ∃ before a after b', as = before ++ a :: after ∧ before.foldlM f b = .ok b' ∧
        f b' a = .error e := by
  induction as generalizing b with
  | nil =>
    constructor
    · intro h
      cases h
    · rintro ⟨before, a, after, b', h, -, -⟩
      cases before <;> cases h
  | cons first as ih =>
    rw [List.foldlM_cons, bind_eq_error_iff]
    constructor
    · rintro (h | ⟨next, hnext, h⟩)
      · exact ⟨[], first, as, b, rfl, rfl, h⟩
      · obtain ⟨before, a, after, b', rfl, hbefore, ha⟩ := ih.mp h
        refine ⟨first :: before, a, after, b', rfl, ?_, ha⟩
        rw [List.foldlM_cons, hnext]
        exact hbefore
    · rintro ⟨before, a, after, b', has, hbefore, ha⟩
      cases before with
      | nil =>
        cases has
        cases hbefore
        exact .inl ha
      | cons first' before =>
        cases has
        obtain ⟨next, hnext, hbefore⟩ := bind_eq_ok_iff.mp hbefore
        exact .inr ⟨next, hnext, ih.mpr ⟨before, a, after, b', rfl, hbefore, ha⟩⟩

/-- Of elements that were made from others, the first that passes is made from the first of these
that passes then. -/
theorem findM?_map (f : α → β) (test : β → Except ε Bool) (as : List α) :
    (as.map f).findM? test = (as.findM? fun a => test (f a)).map (Option.map f) := by
  induction as with
  | nil => rfl
  | cons a as ih =>
    rw [List.map_cons, List.findM?, List.findM?]
    cases test (f a) with
    | error e => rfl
    | ok passes =>
      cases passes with
      | true => rfl
      | false => exact ih

end CommandBar.Outcome
