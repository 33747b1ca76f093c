import CommandBar.Proofs.Quoted.Longest
import CommandBar.Proofs.Quoted.Seam
import CommandBar.Proofs.Switch.RoundTrip

/-!
# Arguments that are written between quotes

An argument between quotes is read back from any text in which it stands, not only from a switch
line. It may be followed by anything, unless it ends in a backslash. Then the closing quote looks
like an escaped one, and reading goes on behind it; it comes back to that quote if it finds no other
that closes the run.

- `quoted_of_writeArgument`: what is written for an argument if it is not written bare.
- `runAt_found_of_closes`: the longest run at a position is found if its end is accepted.
- `runAt_writeArgument`: **an argument between quotes is read back**, whatever stands in front of it
  and nearly whatever follows.
-/

namespace CommandBar.Switch

variable {arg text : String} {accept : Option (Nat → Bool)} {before after : List Char}

/-- A bare argument starts with no quote, so what starts with one is the argument between quotes. -/
theorem quoted_of_writeArgument (h : writeArgument arg = .ok text)
    (hquoted : text.toList.head? = some '"') :
    (∀ c ∈ arg.toList, isControl c = false) ∧
      text.toList = '"' :: (Quoted.escape arg.toList ++ ['"']) := by
  rw [writeArgument] at h
  cases hpiece : Piece.ofArgument arg with
  | error why =>
    rw [hpiece] at h
    cases h
  | ok piece =>
    obtain ⟨hfits, htoken⟩ := Piece.of_ofArgument_eq_ok hpiece
    rw [hpiece] at h
    cases h
    cases piece with
    | command name => cases htoken
    | bare word =>
      have hfits : Piece.fitsBare word.toList = true := hfits
      have hquoted : word.toList.head? = some '"' := hquoted
      obtain ⟨s, hs⟩ := List.head?_eq_some_iff.mp hquoted
      rw [hs, Piece.fitsBare] at hfits
      cases hfits
    | quoted word =>
      cases htoken
      exact ⟨hfits, String.toList_ofList⟩

/-- The longest run at a position is found if its end is accepted. -/
theorem runAt_found_of_closes {s : List Char} {pos : Nat} {close : Quoted.Close}
    {shorter : List Quoted.Close} (h : Quoted.closes (s.drop pos) = close :: shorter)
    (haccept : Quoted.accepts accept (close.endIn s) = true) :
    (Quoted.runAt accept s pos).found = some (close.content, close.endIn s) := by
  rw [Quoted.runAt_found, Quoted.run?_of_closes_eq_cons h haccept]
  rfl

/-- **An argument between quotes is read back** from any text in which it stands, provided that the
place behind its closing quote is accepted as an end. If the argument ends in a backslash, what
follows may hold no closing quote in front of its first control character; otherwise it may be
anything. -/
theorem runAt_writeArgument (h : writeArgument arg = .ok text)
    (hquoted : text.toList.head? = some '"')
    (haccept : Quoted.accepts accept (before.length + text.length) = true)
    (hlast : arg.toList.getLast? = some '\\' →
      ∀ c ∈ after.takeWhile (!isControl ·), Quoted.isCloser c = false) :
    (Quoted.runAt accept (before ++ (text.toList ++ after)) before.length).found =
      some (arg, before.length + text.length) := by
  obtain ⟨hcontrol, htext⟩ := quoted_of_writeArgument h hquoted
  obtain ⟨shorter, hcloses⟩ : ∃ shorter,
      Quoted.closes ('"' :: (Quoted.escape arg.toList ++ '"' :: after)) =
        ⟨arg.toList.reverse, after⟩ :: shorter :=
    Quoted.closes_of_quoted (by decide) (by decide) hcontrol fun hback _ _ =>
      Quoted.scan_of_no_closer (hlast hback)
  have hdrop : (before ++ (text.toList ++ after)).drop before.length =
      '"' :: (Quoted.escape arg.toList ++ '"' :: after) := by
    rw [List.drop_left, htext]
    simp
  have hstop : Quoted.Close.endIn (before ++ (text.toList ++ after)) ⟨arg.toList.reverse, after⟩ =
      before.length + text.length := by
    rw [Quoted.Close.endIn, List.length_append, List.length_append, String.length_toList]
    show before.length + (text.length + after.length) - after.length = _
    omega
  rw [← hdrop] at hcloses
  rw [runAt_found_of_closes hcloses (by rwa [hstop]), hstop, Quoted.Close.content,
    List.reverse_reverse, String.ofList_toList]

/-- The text `x"\"a\ \" “`, a line end, and a quote. -/
def quotedAndStray : List Char :=
  ['x', '"', '\\', '"', 'a', '\\', ' ', '\\', '"', ' ', '“', '\n', '"']

/-- The argument `"a\ \` is read back from it, where a word may end behind the run. The run does not
reach the last quote, for the curly one and the line end stand between. -/
theorem runAt_writeArgument_quotedAndStray :
    writeArgument "\"a\\ \\" = .ok "\"\\\"a\\ \\\"" ∧
      isWordEndAt quotedAndStray 9 = true ∧
      (Quoted.runAt (some (isWordEndAt quotedAndStray)) quotedAndStray 1).found =
        some ("\"a\\ \\", 9) := by
  have hwrite : writeArgument "\"a\\ \\" = .ok "\"\\\"a\\ \\\"" := by rfl
  have hend : isWordEndAt quotedAndStray 9 = true := by decide
  refine ⟨hwrite, hend, ?_⟩
  have hstray :
      ([' ', '“', '\n', '"'].takeWhile (!isControl ·)).all (!Quoted.isCloser ·) = true := by
    decide +kernel
  have hfound : (Quoted.runAt (some (isWordEndAt quotedAndStray))
      (['x'] ++ ("\"\\\"a\\ \\\"".toList ++ [' ', '“', '\n', '"'])) 1).found =
        some ("\"a\\ \\", 9) :=
    runAt_writeArgument hwrite (by decide +kernel) hend fun _ c hc => by
      simpa using List.all_eq_true.mp hstray c hc
  exact hfound

end CommandBar.Switch
