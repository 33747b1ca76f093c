import CommandBar.Search.Reading

/-!
# Reading a search step by step

One equation for each thing that can come next when a search is read: the end of the text, a facet,
an answer of the fallback, its giving up, and text that there is no fallback for.

- `readFrom_nil`, `readFrom_facet`, `readFrom_answered`, `readFrom_gaveUp`, `readFrom_stuck`: the
  equations.
- `entries_map_facet`, `calls_map_facet`: what turns that take facets amount to.
-/

namespace CommandBar.Search

variable {ε : Type} {fallback : Option (Fallback ε)} {handler : Fallback ε}
  {earlier : List (List Char)} {s rest : List Char}

/-- A facet leaves less to read, with the blanks behind it skipped. -/
theorem length_skipBlanks_lt_of_facet? {entry : Entry} (h : facet? s = some (entry, rest)) :
    (skipBlanks rest).length < s.length := by
  have hrest := length_rest_lt_of_facet? h
  have hskip := length_skipBlanks_le rest
  omega

theorem ne_nil_of_facet? {found : Entry × List Char} (h : facet? s = some found) : s ≠ [] := by
  rintro rfl
  cases h

theorem readFrom_nil : readFrom fallback earlier [] = ⟨[], .finished⟩ := by
  rw [readFrom, if_pos List.isEmpty_nil]

theorem readFrom_facet {entry : Entry} (h : facet? s = some (entry, rest)) :
    readFrom fallback earlier s =
      (readFrom fallback earlier (skipBlanks rest)).cons (.facet entry) := by
  have hne : ¬ s.isEmpty = true := by simpa using ne_nil_of_facet? h
  have hstep : step fallback earlier s = .took (.facet entry) rest := by simp only [step, h]
  rw [readFrom, if_neg hne, hstep]
  exact if_pos (length_skipBlanks_lt_of_facet? h)

theorem readFrom_answered {reply : Reply} (hne : s ≠ []) (hfacet : facet? s = none)
    (hanswer : handler earlier s = .ok reply) :
    readFrom (some handler) earlier s =
      if (skipBlanks reply.rest).length < s.length then
        (readFrom (some handler) (s :: earlier) (skipBlanks reply.rest)).cons
          (.handed s (.ok reply))
      else ⟨[.handed s (.ok reply)], .stalled (skipBlanks reply.rest)⟩ := by
  have hne : ¬ s.isEmpty = true := by simpa using hne
  have hstep : step (some handler) earlier s = .took (.handed s (.ok reply)) reply.rest := by
    simp only [step, hfacet, hanswer]
  rw [readFrom, if_neg hne, hstep]
  rfl

theorem readFrom_gaveUp {error : ε} (hne : s ≠ []) (hfacet : facet? s = none)
    (hanswer : handler earlier s = .error error) :
    readFrom (some handler) earlier s = ⟨[.handed s (.error error)], .failed error⟩ := by
  have hne : ¬ s.isEmpty = true := by simpa using hne
  have hstep : step (some handler) earlier s = .failed error := by
    simp only [step, hfacet, hanswer]
  rw [readFrom, if_neg hne, hstep]

theorem readFrom_stuck (hne : s ≠ []) (hfacet : facet? s = none) :
    readFrom (none : Option (Fallback ε)) earlier s = ⟨[], .stalled s⟩ := by
  have hne : ¬ s.isEmpty = true := by simpa using hne
  have hstep : step (none : Option (Fallback ε)) earlier s = .stuck := by simp only [step, hfacet]
  rw [readFrom, if_neg hne, hstep]

/-! ## Turns that take facets -/

theorem entries_map_facet (facets : List Entry) (ending : Ending ε) :
    (⟨facets.map .facet, ending⟩ : Reading ε).entries = facets := by
  unfold Reading.entries
  rw [List.filterMap_map]
  exact List.filterMap_some

/-- No fallback is called. -/
theorem calls_map_facet (facets : List Entry) (ending : Ending ε) :
    (⟨facets.map .facet, ending⟩ : Reading ε).calls = [] := by
  unfold Reading.calls
  rw [List.filterMap_map]
  exact List.filterMap_eq_nil_iff.mpr fun facet _ => rfl

end CommandBar.Search
