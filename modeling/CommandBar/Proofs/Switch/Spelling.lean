import CommandBar.Proofs.Quoted.Escape
import CommandBar.Proofs.Switch.Assembly
import CommandBar.Switch.Grammar
import CommandBar.Switch.Parser
import CommandBar.Switch.Spelling

/-!
# Reading a line back, however it was typed

A token that was written is the token that starts the text, wherever it stands. So switches are read
alike in whatever way they are typed: with arguments bare or between quotes of any kind, and with
any blanks between them.

- `isUnit_of_spellsToken`: a written token is read back if a word may end behind it.
- `units_of_spellsTokens`: so are tokens with blanks between them.
- `parse_of_spellsLine`: **a line is read back as the switches that it writes**.
-/

namespace CommandBar.Switch

/-- Behind its closes, a quoted literal is the token that starts the text. -/
theorem isUnit_of_closes {s content rest : List Char} {shorter : List Quoted.Close}
    (h : Quoted.closes s = ⟨content.reverse, rest⟩ :: shorter) (hend : atWordEnd rest = true) :
    IsUnit s (.literal (String.ofList content)) rest := by
  have hlongest := Quoted.run?_eq_some_iff.mp (Quoted.run?_of_closes_eq_cons h hend)
  rw [List.reverse_reverse] at hlongest
  exact .quoted hlongest

/-- A text that starts with no opening quote starts with no quoted run. -/
theorem not_isRun_of_not_isOpener {c : Char} {s content rest : List Char}
    (hc : Quoted.isOpener c = false) : ¬ Quoted.IsRun (c :: s) content rest := by
  rintro ⟨opener, s', hs, hopens, -⟩
  obtain ⟨rfl, -⟩ := List.cons.inj hs
  rw [hc] at hopens
  cases hopens

/-- **A written token is read back** wherever it stands, if a word may end behind it. -/
theorem isUnit_of_spellsToken {token : Token} {s rest : List Char} (h : SpellsToken token s)
    (hend : atWordEnd rest = true) : IsUnit (s ++ rest) token rest := by
  cases h with
  | command hne hname => exact .command hne hname hend
  | @bare c w hopener hw =>
    refine .bare (List.cons_ne_nil c w) hw hend ?_
    intro content rest' hrun
    exact absurd hrun (not_isRun_of_not_isOpener hopener)
  | quoted hspells =>
    obtain ⟨shorter, hcloses⟩ := Quoted.closes_of_spells hspells
    exact isUnit_of_closes hcloses hend

/-- **Written tokens are read back**: what follows a token starts with a blank, if there is
anything. -/
theorem units_of_spellsTokens {tokens : List Token} {s : List Char} (h : SpellsTokens tokens s) :
    Units s tokens := by
  induction h with
  | nil hgap => exact .done hgap
  | cons hgap htoken hend _ ih => exact .cons hgap (isUnit_of_spellsToken htoken hend) ih

/-! ## Lines -/

/-- **A line is read back as the switches that it writes**, in whatever way it writes them: each
argument bare or between any pair of quotes, any blanks between the units, and any at both ends. -/
theorem parse_of_spellsLine {switches : List Entry} {line : String}
    (h : SpellsLine switches line.toList) : parse line = .ok switches := by
  obtain ⟨hne, htokens⟩ := h
  have htokenize : tokenize line = .ok (flatten switches) :=
    tokensOf_of_units (units_of_spellsTokens htokens)
  rw [parse, htokenize]
  exact assemble_flatten hne

/-- A line with a wide space, a tab and a line end for its blanks. The first argument stands between
curly quotes and has a straight one in it, the second is bare, starts with a closing quote and holds
a control character, and the last is empty and stands between two kinds of quotes. -/
theorem parse_of_spellsLine_mixed :
    SpellsLine [["a", "x \"y", "”\x01"], ["b", ""]]
        "\u3000/a “x \\\"y”\t”\x01  /b \"”\n".toList ∧
      parse "\u3000/a “x \\\"y”\t”\x01  /b \"”\n" =
        .ok [["a", "x \"y", "”\x01"], ["b", ""]] := by
  have hcontrol : ['x', ' ', '"', 'y'].all (!isControl ·) = true := by decide +kernel
  have ha : SpellsToken (.command "a") ['/', 'a'] :=
    @SpellsToken.command ['a'] (by decide) (List.all_eq_true.mp (by decide))
  have hb : SpellsToken (.command "b") ['/', 'b'] :=
    @SpellsToken.command ['b'] (by decide) (List.all_eq_true.mp (by decide))
  have hcurly : SpellsToken (.literal "x \"y") ['“', 'x', ' ', '\\', '"', 'y', '”'] := by
    refine .quoted (@Quoted.Spells.mk '“' '”' ['x', ' ', '"', 'y'] (by decide) (by decide) ?_ ?_)
    · exact fun c hc => by simpa using List.all_eq_true.mp hcontrol c hc
    · decide
  have hbare : SpellsToken (.literal "”\x01") ['”', '\x01'] :=
    .bare (by decide)
      (List.forall_mem_cons.mpr ⟨by decide, List.forall_mem_singleton.mpr (by decide)⟩)
  have hempty : SpellsToken (.literal "") ['"', '”'] :=
    .quoted (@Quoted.Spells.mk '"' '”' [] (by decide) (by decide)
      (fun c hc => absurd hc List.not_mem_nil) (by decide))
  have hblank : ∀ gap : List Char, gap.all isBlank = true → AllBlank gap :=
    fun gap h => List.all_eq_true.mp h
  -- from the line end at the back to the wide space in front
  have hback : SpellsTokens [] ['\n'] := .nil (hblank ['\n'] (by decide))
  have hback := SpellsTokens.cons (hblank [' '] (by decide)) hempty (by decide) hback
  have hback := SpellsTokens.cons (hblank [' ', ' '] (by decide)) hb (by decide) hback
  have hback := SpellsTokens.cons (hblank ['\t'] (by decide)) hbare (by decide) hback
  have hback := SpellsTokens.cons (hblank [' '] (by decide)) hcurly (by decide) hback
  have hline : SpellsLine [["a", "x \"y", "”\x01"], ["b", ""]]
      "\u3000/a “x \\\"y”\t”\x01  /b \"”\n".toList :=
    ⟨by simp, SpellsTokens.cons (hblank ['\u3000'] (by decide)) ha (by decide) hback⟩
  exact ⟨hline, parse_of_spellsLine hline⟩

end CommandBar.Switch
