import CommandBar.Proofs.Outcome
import CommandBar.Proofs.Quoted.Seam
import CommandBar.Proofs.Switch.Assembly
import CommandBar.Proofs.Text.Word
import CommandBar.Switch.Grammar
import CommandBar.Switch.Parser
import Mathlib.Data.List.Defs

/-!
# Lines that are put together

Two lines with a seam between them are read as the one and then the other. Blanks alone would not
do: a quote that is left open in the first line makes a bare word there, and with the second line
behind it could find its closing quote.

- `judge_append`: in front of a text that seals it, a text is judged as it is alone.
- `tokensOf_append`: a line up to a seam and the line behind it are read one after the other.
- `tokenize_concat`: **the tokens, the mistakes and the switches of two lines with a seam between
  them** are those of the two lines.
-/

namespace CommandBar.Switch

variable {s gap later : List Char}

/-- The same verdict, with a text behind what is left. -/
def Verdict.followedBy (later : List Char) : Verdict → Verdict
  | .declines => .declines
  | .rejects why => .rejects why
  | .takes token rest => .takes token (rest ++ later)

/-! ## The rules in front of a later text -/

theorem isNameChar_of_isBlank {c : Char} (h : isBlank c = true) : isNameChar c = false := by
  cases hc : isNameChar c with
  | false => rfl
  | true =>
    rw [isBlank_of_isNameChar hc] at h
    cases h

theorem judgeBareWord_append (hend : atWordEnd later = true) :
    Rule.judgeBareWord (s ++ later) = (Rule.judgeBareWord s).followedBy later := by
  obtain ⟨hword, hafter⟩ := word_append_of_atWordEnd (s := s) hend
  unfold Rule.judgeBareWord
  rw [hword, hafter]
  split
  · rfl
  · split <;> rfl

/-- A slash and what follows it are judged by the word there. -/
theorem judge_slash_append (hend : atWordEnd later = true) :
    judge ('/' :: (s ++ later)) = (judge ('/' :: s)).followedBy later := by
  obtain ⟨hword, -⟩ := word_append_of_atWordEnd (s := s) hend
  obtain ⟨hname, hrest⟩ := span_append_of_stop (p := isNameChar) (s := s) fun c r hc =>
    isNameChar_of_isBlank (isBlank_of_atWordEnd hend c r hc)
  rw [judge_slash, judge_slash, hword, hname, hrest]
  dsimp only
  rw [atWordEnd_append hend]
  split
  · rfl
  · split <;> rfl

/-- **A text is judged as it is alone**, in front of a text that seals it. -/
theorem judge_append (hne : s ≠ []) (hseals : Quoted.Seals later) (hend : atWordEnd later = true) :
    judge (s ++ later) = (judge s).followedBy later := by
  cases s with
  | nil => exact absurd rfl hne
  | cons c s =>
    -- a slash is judged by its word alone, anything else by the runs that start there
    by_cases hc : c = '/'
    · subst hc
      exact judge_slash_append hend
    · have hslash : ∀ t : List Char, (c :: t).head? ≠ some '/' := by
        intro t h
        exact hc (Option.some.inj h)
      have hwelcome : (fun rest => atWordEnd (rest ++ later)) = atWordEnd :=
        funext fun rest => atWordEnd_append hend
      rw [judge_of_ne_slash (hslash s), List.cons_append, judge_of_ne_slash (hslash _),
        ← List.cons_append, Quoted.run?_append hseals, hwelcome]
      cases Quoted.run? atWordEnd (c :: s) with
      | none => exact judgeBareWord_append hend
      | some close => rfl

/-! ## The tokens of a line up to a seam -/

theorem tokensOf_gap (hgap : AllBlank gap) : tokensOf (gap ++ s) = tokensOf s := by
  by_cases hs : AllBlank s
  · have hall : AllBlank (gap ++ s) := List.forall_mem_append.mpr ⟨hgap, hs⟩
    rw [tokensOf_of_allBlank hall, tokensOf_of_allBlank hs]
  · have hall : ¬ AllBlank (gap ++ s) := fun h => hs (List.forall_mem_append.mp h).2
    rw [tokensOf_of_not_allBlank hall, tokensOf_of_not_allBlank hs, skipBlanks_append hgap]

/-- **A line is read up to a seam, and then the line behind it.** A mistake in the first line is
found before any in the second. -/
theorem tokensOf_append (h : Quoted.Seam gap later) :
    tokensOf (s ++ (gap ++ later)) =
      tokensOf s >>= fun tokens => (tokensOf later).map (tokens ++ ·) := by
  induction hlength : s.length using Nat.strongRecOn generalizing s with
  | ind length ih =>
    by_cases hblank : AllBlank s
    · -- of the first line nothing is left but blanks, to which those of the seam are added
      rw [tokensOf_gap hblank, tokensOf_gap h.blank, tokensOf_of_allBlank hblank]
      cases tokensOf later <;> rfl
    · have hskip : skipBlanks (s ++ (gap ++ later)) = skipBlanks s ++ (gap ++ later) :=
        skipBlanks_append_of_not_allBlank hblank
      have hall : ¬ AllBlank (s ++ (gap ++ later)) :=
        fun hall => hblank (List.forall_mem_append.mp hall).1
      have hne := mt skipBlanks_eq_nil_iff.mp hblank
      rw [tokensOf_of_not_allBlank hall, tokensOf_of_not_allBlank hblank, hskip,
        judge_append hne h.seals h.atWordEnd]
      cases hjudge : judge (skipBlanks s) with
      | declines => rfl
      | rejects why => rfl
      | takes token rest =>
        have hlt : rest.length < length := by
          have hrest := length_rest_lt_of_judge hjudge
          have hle := length_skipBlanks_le s
          omega
        show (tokensOf (rest ++ (gap ++ later))).map (token :: ·) = (tokensOf rest).map _ >>= _
        rw [ih _ hlt rfl]
        cases tokensOf rest with
        | error why => rfl
        | ok tokens => cases tokensOf later <;> rfl

/-! ## Lines that are put together -/

theorem tokenize_append {first gap second : String}
    (h : Quoted.Seam gap.toList second.toList) :
    tokenize (first ++ gap ++ second) =
      tokenize first >>= fun tokens => (tokenize second).map (tokens ++ ·) := by
  show tokensOf (first ++ gap ++ second).toList = _
  rw [String.toList_append, String.toList_append, List.append_assoc]
  exact tokensOf_append h

theorem parse_eq_ok_iff {line : String} {switches : List Entry} :
    parse line = .ok switches ↔
      (∀ switch ∈ switches, switch ≠ []) ∧ tokenize line = .ok (flatten switches) := by
  rw [parse, Outcome.bind_eq_ok_iff]
  constructor
  · rintro ⟨tokens, htokens, h⟩
    obtain ⟨hne, rfl⟩ := assemble_eq_ok_iff.mp h
    exact ⟨hne, htokens⟩
  · rintro ⟨hne, htokens⟩
    exact ⟨_, htokens, assemble_flatten hne⟩

theorem parse_append {first gap second : String} {switches switches' : List Entry}
    (h : Quoted.Seam gap.toList second.toList) (hfirst : parse first = .ok switches)
    (hsecond : parse second = .ok switches') :
    parse (first ++ gap ++ second) = .ok (switches ++ switches') := by
  obtain ⟨hne, htokens⟩ := parse_eq_ok_iff.mp hfirst
  obtain ⟨hne', htokens'⟩ := parse_eq_ok_iff.mp hsecond
  have hflatten : flatten (switches ++ switches') = flatten switches ++ flatten switches' :=
    List.flatMap_append
  refine parse_eq_ok_iff.mpr ⟨List.forall_mem_append.mpr ⟨hne, hne'⟩, ?_⟩
  rw [tokenize_append h, htokens, htokens', hflatten]
  rfl

/-- **Two lines with a seam between them** have the tokens of the first and then those of the
second. A mistake in the first line is reported as it is for that line alone, and otherwise one in
the second. If both lines consist of switches, the whole consists of the switches of the two. -/
theorem tokenize_concat {first gap second : String}
    (h : Quoted.Seam gap.toList second.toList) :
    (∀ tokens tokens', tokenize first = .ok tokens → tokenize second = .ok tokens' →
      tokenize (first ++ gap ++ second) = .ok (tokens ++ tokens')) ∧
    (∀ why, tokenize first = .error why → tokenize (first ++ gap ++ second) = .error why) ∧
    (∀ tokens why, tokenize first = .ok tokens → tokenize second = .error why →
      tokenize (first ++ gap ++ second) = .error why) ∧
    ∀ switches switches', parse first = .ok switches → parse second = .ok switches' →
      parse (first ++ gap ++ second) = .ok (switches ++ switches') := by
  rw [tokenize_append h]
  refine ⟨?_, ?_, ?_, ?_⟩
  · intro tokens tokens' hfirst hsecond
    rw [hfirst, hsecond]
    rfl
  · intro why hfirst
    rw [hfirst]
    rfl
  · intro tokens why hfirst hsecond
    rw [hfirst, hsecond]
    rfl
  · intro switches switches' hfirst hsecond
    exact parse_append h hfirst hsecond

/-- A tab keeps a quote that is left open in the first line from one that could close it in the
second. -/
theorem tokenize_concat_openQuote :
    Quoted.Seam "\t".toList "/b y\"".toList ∧
      tokenize ("/a \"x" ++ "\t" ++ "/b y\"") =
        .ok [.command "a", .literal "\"x", .command "b", .literal "y\""] ∧
      parse ("/a \"x" ++ "\t" ++ "/b y\"") = .ok [["a", "\"x"], ["b", "y\""]] := by
  have hseam : Quoted.Seam "\t".toList "/b y\"".toList := Quoted.seam_tab _
  obtain ⟨htokens, -, -, hparse⟩ := @tokenize_concat "/a \"x" "\t" "/b y\"" hseam
  refine ⟨hseam, ?_, ?_⟩
  · exact htokens [.command "a", .literal "\"x"] [.command "b", .literal "y\""] (by cbv) (by cbv)
  · exact hparse [["a", "\"x"]] [["b", "y\""]] (by cbv) (by cbv)

/-- A space does not. -/
example : parse ("/a \"x" ++ " " ++ "/b y\"") = .ok [["a", "x /b y"]] := by cbv

end CommandBar.Switch
