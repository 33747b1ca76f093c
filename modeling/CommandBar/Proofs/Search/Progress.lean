import CommandBar.Proofs.Search.Steps
import CommandBar.Proofs.Text.Word
import Mathlib

/-!
# Searches under an arbitrary fallback

A fallback may do with the text whatever it likes: put a longer one in its place, blank it, give up.
Still a reading comes to an end, and what it gives can be told from the calls alone.

- `Reading.exchanges`: what the fallback was handed and what it answered, call by call.
- `Follows`: the turns to which a text leads if nobody looks at the progress they make.
- `Proceeds`, `proceeds_readFrom`: how a reading goes on, a rule for each thing that can come next.
- `Reading.EndsWell`, `Proceeds.endsWell`: how it ends, told from its last turn.
- `read_fallback`: **the calls of a reading, and its result**.
-/

namespace CommandBar.Search

variable {ε : Type} {handler : Fallback ε} {earlier : List (List Char)} {s left : List Char}
  {reading : Reading ε}

/-- What the fallback is handed in the turn, and what it answers. -/
def Turn.exchange? : Turn ε → Option (List Char × Except ε Reply)
  | facet _ => none
  | handed given answer => some (given, answer)

/-- What the fallback was handed and what it answered, call by call. -/
def Reading.exchanges (reading : Reading ε) : List (List Char × Except ε Reply) :=
  reading.turns.filterMap Turn.exchange?

/-- The turn is no call, or the fallback left less than it was handed, blanks in front not
counted. -/
def Turn.Progresses : Turn ε → Prop
  | facet _ => True
  | handed given (.ok reply) => (skipBlanks reply.rest).length < given.length
  | handed _ (.error _) => False

/-- From the text `s` the turns follow one after the other, and the last leaves `left`. Blanks are
skipped in front of a turn. Where a facet starts, it is taken; anything else is handed over, and the
fallback's answer says what is left. When the fallback gives up, there is no further turn. Whether
the turns make progress is left open. -/
inductive Follows (handler : Fallback ε) :
    (earlier : List (List Char)) → (s : List Char) → List (Turn ε) → (left : List Char) → Prop
  | done {earlier : List (List Char)} {s : List Char} : Follows handler earlier s [] s
  | facet {earlier : List (List Char)} {s rest left : List Char} {entry : Entry}
      {turns : List (Turn ε)} :
      facet? (skipBlanks s) = some (entry, rest) → Follows handler earlier rest turns left →
        Follows handler earlier s (.facet entry :: turns) left
  | answered {earlier : List (List Char)} {s left : List Char} {reply : Reply}
      {turns : List (Turn ε)} :
      skipBlanks s ≠ [] → facet? (skipBlanks s) = none →
        handler earlier (skipBlanks s) = .ok reply →
        Follows handler (skipBlanks s :: earlier) reply.rest turns left →
        Follows handler earlier s (.handed (skipBlanks s) (.ok reply) :: turns) left
  | gaveUp {earlier : List (List Char)} {s : List Char} {error : ε} :
      skipBlanks s ≠ [] → facet? (skipBlanks s) = none →
        handler earlier (skipBlanks s) = .error error →
        Follows handler earlier s [.handed (skipBlanks s) (.error error)] (skipBlanks s)

/-- Reading the text `s` goes as `reading` says. -/
inductive Proceeds (handler : Fallback ε) :
    (earlier : List (List Char)) → (s : List Char) → Reading ε → Prop
  | finished {earlier : List (List Char)} {s : List Char} :
      AllBlank s → Proceeds handler earlier s ⟨[], .finished⟩
  | facet {earlier : List (List Char)} {s rest : List Char} {entry : Entry} {reading : Reading ε} :
      facet? (skipBlanks s) = some (entry, rest) → Proceeds handler earlier rest reading →
        Proceeds handler earlier s (reading.cons (.facet entry))
  | answered {earlier : List (List Char)} {s : List Char} {reply : Reply} {reading : Reading ε} :
      skipBlanks s ≠ [] → facet? (skipBlanks s) = none →
        handler earlier (skipBlanks s) = .ok reply →
        (skipBlanks reply.rest).length < (skipBlanks s).length →
        Proceeds handler (skipBlanks s :: earlier) reply.rest reading →
        Proceeds handler earlier s (reading.cons (.handed (skipBlanks s) (.ok reply)))
  | stalled {earlier : List (List Char)} {s : List Char} {reply : Reply} :
      skipBlanks s ≠ [] → facet? (skipBlanks s) = none →
        handler earlier (skipBlanks s) = .ok reply →
        (skipBlanks s).length ≤ (skipBlanks reply.rest).length →
        Proceeds handler earlier s
          ⟨[.handed (skipBlanks s) (.ok reply)], .stalled (skipBlanks reply.rest)⟩
  | gaveUp {earlier : List (List Char)} {s : List Char} {error : ε} :
      skipBlanks s ≠ [] → facet? (skipBlanks s) = none →
        handler earlier (skipBlanks s) = .error error →
        Proceeds handler earlier s ⟨[.handed (skipBlanks s) (.error error)], .failed error⟩

/-! ## How a reading goes on -/

/-- **Every reading proceeds by these rules.** The induction is on what is left: a facet leaves
less, and so does a fallback, or else its call was the last. -/
theorem proceeds_readFrom (handler : Fallback ε) (earlier : List (List Char)) (s : List Char) :
    Proceeds handler earlier s (readFrom (some handler) earlier (skipBlanks s)) := by
  induction hlength : (skipBlanks s).length using Nat.strongRecOn generalizing earlier s with
  | ind length ih =>
    by_cases hne : skipBlanks s = []
    · rw [hne, readFrom_nil]
      exact .finished (skipBlanks_eq_nil_iff.mp hne)
    · cases hfacet : facet? (skipBlanks s) with
      | some found =>
        obtain ⟨entry, rest⟩ := found
        have hlt := length_skipBlanks_lt_of_facet? hfacet
        rw [readFrom_facet hfacet]
        exact .facet hfacet (ih _ (hlength ▸ hlt) earlier rest rfl)
      | none =>
        cases hanswer : handler earlier (skipBlanks s) with
        | error error =>
          rw [readFrom_gaveUp hne hfacet hanswer]
          exact .gaveUp hne hfacet hanswer
        | ok reply =>
          rw [readFrom_answered hne hfacet hanswer]
          split
          · next hlt => exact .answered hne hfacet hanswer hlt (ih _ (hlength ▸ hlt) _ _ rfl)
          · next hle => exact .stalled hne hfacet hanswer (Nat.le_of_not_lt hle)

/-- The turns of a reading follow one after the other from the text. Only blanks are left when it
finishes. -/
theorem Proceeds.follows (h : Proceeds handler earlier s reading) :
    ∃ left, Follows handler earlier s reading.turns left ∧
      (reading.ending = .finished → AllBlank left) := by
  induction h with
  | finished hblank => exact ⟨_, .done, fun _ => hblank⟩
  | facet hfacet _ ih =>
    obtain ⟨left, hturns, hleft⟩ := ih
    exact ⟨left, .facet hfacet hturns, hleft⟩
  | answered hne hfacet hanswer _ _ ih =>
    obtain ⟨left, hturns, hleft⟩ := ih
    exact ⟨left, .answered hne hfacet hanswer hturns, hleft⟩
  | stalled hne hfacet hanswer _ =>
    exact ⟨_, .answered hne hfacet hanswer .done, fun h => by cases h⟩
  | gaveUp hne hfacet hanswer =>
    exact ⟨_, .gaveUp hne hfacet hanswer, fun h => by cases h⟩

/-! ## The calls -/

/-- What the fallback is handed has a word in front, which starts no facet. -/
theorem Proceeds.of_mem_calls (h : Proceeds handler earlier s reading) :
    ∀ given ∈ reading.calls, given ≠ [] ∧ skipBlanks given = given ∧ facet? given = none := by
  induction h with
  | finished => exact fun given h => absurd h List.not_mem_nil
  | facet _ _ ih => exact ih
  | answered hne hfacet _ _ _ ih =>
    exact List.forall_mem_cons.mpr ⟨⟨hne, skipBlanks_skipBlanks _, hfacet⟩, ih⟩
  | stalled hne hfacet =>
    exact List.forall_mem_singleton.mpr ⟨hne, skipBlanks_skipBlanks _, hfacet⟩
  | gaveUp hne hfacet =>
    exact List.forall_mem_singleton.mpr ⟨hne, skipBlanks_skipBlanks _, hfacet⟩

/-- What the fallback is handed is no longer than the text. -/
theorem Proceeds.length_le (h : Proceeds handler earlier s reading) :
    ∀ given ∈ reading.calls, given.length ≤ (skipBlanks s).length := by
  induction h with
  | finished => exact fun given h => absurd h List.not_mem_nil
  | facet hfacet _ ih =>
    intro given hmem
    have hle := ih given hmem
    have hlt := length_skipBlanks_lt_of_facet? hfacet
    omega
  | answered _ _ _ hlt _ ih =>
    refine List.forall_mem_cons.mpr ⟨Nat.le_refl _, fun given hmem => ?_⟩
    have hle := ih given hmem
    omega
  | stalled => exact List.forall_mem_singleton.mpr (Nat.le_refl _)
  | gaveUp => exact List.forall_mem_singleton.mpr (Nat.le_refl _)

/-- **Each call is handed less than the one before.** -/
theorem Proceeds.pairwise_calls (h : Proceeds handler earlier s reading) :
    reading.calls.Pairwise fun given given' => given'.length < given.length := by
  induction h with
  | finished => exact .nil
  | facet _ _ ih => exact ih
  | answered _ _ _ hlt h ih =>
    refine List.pairwise_cons.mpr ⟨fun given hmem => ?_, ih⟩
    have hle := h.length_le given hmem
    omega
  | stalled => exact List.pairwise_singleton _ _
  | gaveUp => exact List.pairwise_singleton _ _

/-- **There are no more calls than there are characters to read.** -/
theorem Proceeds.length_calls_le (h : Proceeds handler earlier s reading) :
    reading.calls.length ≤ (skipBlanks s).length := by
  induction h with
  | finished => exact Nat.zero_le _
  | facet hfacet _ ih =>
    have hlt := length_skipBlanks_lt_of_facet? hfacet
    exact Nat.le_trans ih (Nat.le_of_lt hlt)
  | answered _ _ _ hlt _ ih => exact Nat.lt_of_le_of_lt ih hlt
  | stalled hne => exact List.length_pos_iff.mpr hne
  | gaveUp hne => exact List.length_pos_iff.mpr hne

/-! ## How a reading ends -/

/-- The reading ends as its last turn says: all turns before the last make progress, and the last
one does if the reading finishes. -/
def Reading.EndsWell (reading : Reading ε) : Prop :=
  match reading.ending with
  | .finished => ∀ turn ∈ reading.turns, turn.Progresses
  | .stalled rest => ∃ init given reply, reading.turns = init ++ [.handed given (.ok reply)] ∧
      (∀ turn ∈ init, turn.Progresses) ∧ rest = skipBlanks reply.rest ∧ given ≠ [] ∧
      given.length ≤ rest.length
  | .failed error => ∃ init given, reading.turns = init ++ [.handed given (.error error)] ∧
      ∀ turn ∈ init, turn.Progresses

/-- A first turn that makes progress changes nothing in how the reading ends. -/
theorem Reading.EndsWell.cons {turn : Turn ε} (h : reading.EndsWell) (hturn : turn.Progresses) :
    (reading.cons turn).EndsWell := by
  obtain ⟨turns, ending⟩ := reading
  cases ending with
  | finished => exact List.forall_mem_cons.mpr ⟨hturn, h⟩
  | stalled rest =>
    obtain ⟨init, given, reply, hturns, hinit, hlast⟩ := h
    refine ⟨turn :: init, given, reply, congrArg (turn :: ·) hturns, ?_, hlast⟩
    exact List.forall_mem_cons.mpr ⟨hturn, hinit⟩
  | failed error =>
    obtain ⟨init, given, hturns, hinit⟩ := h
    refine ⟨turn :: init, given, congrArg (turn :: ·) hturns, ?_⟩
    exact List.forall_mem_cons.mpr ⟨hturn, hinit⟩

theorem Proceeds.endsWell (h : Proceeds handler earlier s reading) : reading.EndsWell := by
  induction h with
  | finished => exact fun turn h => absurd h List.not_mem_nil
  | facet _ _ ih => exact ih.cons trivial
  | answered _ _ _ hlt _ ih => exact ih.cons hlt
  | stalled hne _ _ hle =>
    exact ⟨[], _, _, rfl, fun turn h => absurd h List.not_mem_nil, rfl, hne, hle⟩
  | gaveUp => exact ⟨[], _, rfl, fun turn h => absurd h List.not_mem_nil⟩

/-! ## The result, told from the calls -/

theorem mem_exchanges_iff {given : List Char} {answer : Except ε Reply} :
    (given, answer) ∈ reading.exchanges ↔ .handed given answer ∈ reading.turns := by
  rw [Reading.exchanges, List.mem_filterMap]
  constructor
  · rintro ⟨turn, hmem, hturn⟩
    cases turn with
    | facet entry => cases hturn
    | handed given' answer' =>
      cases hturn
      exact hmem
  · intro hmem
    exact ⟨_, hmem, rfl⟩

/-- A last turn that is a call is the last call. -/
theorem getLast?_exchanges {init : List (Turn ε)} {given : List Char} {answer : Except ε Reply}
    (h : reading.turns = init ++ [.handed given answer]) :
    reading.exchanges.getLast? = some (given, answer) := by
  rw [Reading.exchanges, h, List.filterMap_append]
  exact List.getLast?_concat

/-- A call in which the fallback gives up can only be the last turn. -/
theorem Reading.EndsWell.ending_of_error (h : reading.EndsWell) {given : List Char} {error : ε}
    (hmem : (given, .error error) ∈ reading.exchanges) :
    reading.ending = .failed error ∧
      reading.turns.getLast? = some (.handed given (.error error)) := by
  have hturn := mem_exchanges_iff.mp hmem
  obtain ⟨turns, ending⟩ := reading
  cases ending with
  | finished => exact absurd (h _ hturn) id
  | stalled rest =>
    obtain ⟨init, given', reply, rfl, hinit, -⟩ := h
    rcases List.mem_append.mp hturn with hturn | hturn
    · exact absurd (hinit _ hturn) id
    · cases List.mem_singleton.mp hturn
  | failed error' =>
    obtain ⟨init, given', rfl, hinit⟩ := h
    rcases List.mem_append.mp hturn with hturn | hturn
    · exact absurd (hinit _ hturn) id
    · cases List.mem_singleton.mp hturn
      exact ⟨rfl, List.getLast?_concat⟩

/-- **A reading fails** with the error with which the fallback gives up in some call. -/
theorem Reading.EndsWell.result_eq_error_iff (h : reading.EndsWell) {error : ε} :
    reading.result = .error error ↔ ∃ given, (given, .error error) ∈ reading.exchanges := by
  constructor
  · intro hresult
    obtain ⟨turns, ending⟩ := reading
    cases ending with
    | finished => cases hresult
    | stalled => cases hresult
    | failed error' =>
      cases hresult
      obtain ⟨init, given, rfl, -⟩ := h
      exact ⟨given, mem_exchanges_iff.mpr (List.mem_append_right _ List.mem_cons_self)⟩
  · rintro ⟨given, hmem⟩
    rw [Reading.result, (h.ending_of_error hmem).1]

/-- **A reading gives nothing** exactly if in the last call the fallback left something, and no less
than it was handed. -/
theorem Reading.EndsWell.result_eq_none_iff (h : reading.EndsWell) :
    reading.result = .ok none ↔
      ∃ given reply, reading.exchanges.getLast? = some (given, .ok reply) ∧
        skipBlanks reply.rest ≠ [] ∧ given.length ≤ (skipBlanks reply.rest).length := by
  constructor
  · intro hresult
    obtain ⟨turns, ending⟩ := reading
    cases ending with
    | finished => cases hresult
    | failed => cases hresult
    | stalled rest =>
      obtain ⟨init, given, reply, hturns, -, rfl, hne, hle⟩ := h
      have hpos := List.length_pos_iff.mpr hne
      refine ⟨given, reply, getLast?_exchanges hturns, ?_, hle⟩
      exact List.length_pos_iff.mp (Nat.lt_of_lt_of_le hpos hle)
  · rintro ⟨given, reply, hlast, -, hle⟩
    have hturn := mem_exchanges_iff.mp (List.mem_of_getLast? hlast)
    obtain ⟨turns, ending⟩ := reading
    cases ending with
    | finished => exact absurd (h _ hturn) (Nat.not_lt.mpr hle)
    | stalled => rfl
    | failed error =>
      obtain ⟨init, given', hturns, -⟩ := h
      rw [getLast?_exchanges hturns] at hlast
      cases hlast

/-! ## Any text, and any fallback -/

/-- **Reading a text under a fallback**, whatever the fallback does. The turns follow one after the
other from the text. There are no more calls than characters behind the blanks in front; each call
is handed a text that starts with a word and with no facet, and that is shorter than in the call
before. Nothing is given exactly if the last call left something and no less than it was handed.
The reading fails exactly if the fallback gives up in a call, with the error of that call, and
there is no turn behind it. Otherwise only blanks are left, and what is given are the facets and
the entries of the fallback in the order of the turns. -/
theorem read_fallback (handler : Fallback ε) (text : String) :
    ∃ reading left,
      parse { fallback := some (.handler handler) } text = .ok reading ∧
      Follows handler [] text.toList reading.turns left ∧
      reading.calls.length ≤ (skipBlanks text.toList).length ∧
      (∀ given ∈ reading.calls, given ≠ [] ∧ skipBlanks given = given ∧ facet? given = none) ∧
      (reading.calls.Pairwise fun given given' => given'.length < given.length) ∧
      (reading.result = .ok none ↔
        ∃ given reply, reading.exchanges.getLast? = some (given, .ok reply) ∧
          skipBlanks reply.rest ≠ [] ∧ given.length ≤ (skipBlanks reply.rest).length) ∧
      (∀ error, reading.result = .error error ↔
        ∃ given, (given, .error error) ∈ reading.exchanges) ∧
      (∀ given error, (given, .error error) ∈ reading.exchanges →
        reading.turns.getLast? = some (.handed given (.error error))) ∧
      ∀ entries, reading.result = .ok (some entries) →
        AllBlank left ∧ entries = reading.turns.filterMap Turn.entry? := by
  have h := proceeds_readFrom handler [] text.toList
  have hends := h.endsWell
  obtain ⟨left, hfollows, hleft⟩ := h.follows
  refine ⟨read (some handler) text, left, rfl, hfollows, h.length_calls_le, h.of_mem_calls,
    h.pairwise_calls, hends.result_eq_none_iff, fun error => hends.result_eq_error_iff, ?_, ?_⟩
  · intro given error hmem
    exact (hends.ending_of_error hmem).2
  · intro entries hresult
    unfold Reading.result at hresult
    split at hresult
    · next hfinished =>
      cases hresult
      exact ⟨hleft hfinished, rfl⟩
    · cases hresult
    · cases hresult

/-- Three readings: behind a facet the fallback puts a longer text in the place of what it is
handed; it gives up in its second call; it takes what is left of the text. -/
theorem read_fallback_threeEndings :
    (∃ reading : Reading String,
      parse { fallback := some (.handler (.script ["k:v abc", "longer"] (some ["e"]))) }
        "abcdef gh" = .ok reading ∧
      reading.calls = ["abcdef gh".toList, "abc".toList] ∧ facet? "abc".toList = none ∧
      reading.result = .ok none) ∧
    (∃ reading : Reading String,
      parse { fallback := some (.handler (.wordsUntil 1 "enough")) } "x a:b y" = .ok reading ∧
      reading.result = .error "enough" ∧
      reading.turns.getLast? = some (.handed ['y'] (.error "enough"))) ∧
    ∃ reading : Reading String,
      parse { fallback := some (.handler (.words 1 "w")) } "x a:b" = .ok reading ∧
      reading.turns.filterMap Turn.entry? = [["w", "x"], ["a", "b"]] := by
  refine ⟨?_, ?_, ?_⟩
  · obtain ⟨reading, left, hparse, -, -, hcalls, -, hnone, -, -, -⟩ :=
      @read_fallback String (.script ["k:v abc", "longer"] (some ["e"])) "abcdef gh"
    have hread : parse { fallback := some (.handler (.script ["k:v abc", "longer"] (some ["e"]))) }
        "abcdef gh" = .ok (⟨[.handed "abcdef gh".toList (.ok ⟨"k:v abc".toList, some ["e"]⟩),
          .facet ["k", "v"], .handed "abc".toList (.ok ⟨"longer".toList, some ["e"]⟩)],
          .stalled "longer".toList⟩ : Reading String) := by
      cbv
    rw [hread] at hparse
    cases hparse
    refine ⟨_, hread, rfl, (hcalls "abc".toList (by decide)).2.2, ?_⟩
    exact hnone.mpr ⟨"abc".toList, ⟨"longer".toList, some ["e"]⟩, rfl, by decide, by decide⟩
  · obtain ⟨reading, left, hparse, -, -, -, -, -, herror, hlast, -⟩ :=
      @read_fallback String (.wordsUntil 1 "enough") "x a:b y"
    have hread : parse { fallback := some (.handler (.wordsUntil 1 "enough")) } "x a:b y" =
        .ok (⟨[.handed "x a:b y".toList (.ok ⟨"a:b y".toList, some ["word", "x"]⟩),
          .facet ["a", "b"], .handed ['y'] (.error "enough")], .failed "enough"⟩ :
          Reading String) := by
      cbv
    rw [hread] at hparse
    cases hparse
    have hmem : ((['y'], .error "enough") : List Char × Except String Reply) ∈
        [("x a:b y".toList, .ok ⟨"a:b y".toList, some ["word", "x"]⟩), (['y'], .error "enough")] :=
      List.mem_cons_of_mem _ List.mem_cons_self
    exact ⟨_, hread, (herror "enough").mpr ⟨_, hmem⟩, hlast _ _ hmem⟩
  · obtain ⟨reading, left, hparse, -, -, -, -, -, -, -, hentries⟩ :=
      @read_fallback String (.words 1 "w") "x a:b"
    have hresult : (parse { fallback := some (.handler (.words 1 "w")) } "x a:b").map
        (Reading.result : Reading String → _) = .ok (.ok (some [["w", "x"], ["a", "b"]])) := by
      cbv
    rw [hparse] at hresult
    exact ⟨reading, hparse, (hentries _ (Except.ok.inj hresult)).2.symm⟩

end CommandBar.Search
