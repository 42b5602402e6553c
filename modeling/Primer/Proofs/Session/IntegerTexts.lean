import Primer.Proofs.Lexing.Spelling
import Primer.Proofs.Number.Exactness
import Primer.Proofs.Parsing.Run
import Primer.Session.Run

/-!
# The texts of integers as sources

The text of an integer is a program, and its value is that integer. A source has no negative literals:
a minus is an operator in front of a magnitude, which is read as an integer of its own. So the text
of a negative integer is read as two tokens, parsed as a sign and its operand, and evaluated by negating
the magnitude.

## Main result

`run_integer_text`: every integer but the least is the value of its text. The magnitude of the least one
is not a 64-bit integer, and its text is rejected.
-/

namespace Primer

/-! ### Reading -/

/-- The text of an integer that is not negative is one token. -/
theorem lex_text_natural {value : Int64} (natural : 0 ≤ value.toInt) :
    ∃ lexemes, lex (Number.int value).text = .ok lexemes ∧
      lexemes.map Lexeme.token = [.int value, .endOfInput] := by
  have reads := Reads.nil.token (.int value) natural (Token.separate_nil _)
  rw [List.append_nil] at reads
  exact reads.exists_lex

/-- The text of a negative integer is a minus and the magnitude. -/
theorem lex_text_negative {value magnitude : Int64} (negative : value.toInt < 0)
    (opposite : magnitude.toInt = -value.toInt) :
    ∃ lexemes, lex (Number.int value).text = .ok lexemes ∧
      lexemes.map Lexeme.token = [.minus, .int magnitude, .endOfInput] := by
  obtain ⟨n, below⟩ := Int.eq_negSucc_of_lt_zero negative
  have above : magnitude.toInt = .ofNat (n + 1) := by rw [opposite, below]; rfl
  have digits : (Token.int magnitude).literal.toList = Decimal.digits (n + 1) := by
    rw [Token.literal, above, String.toList_ofList]
    rfl
  have text : (Number.int value).text.toList = '-' :: (Token.int magnitude).literal.toList := by
    rw [digits, Number.text, below, String.toList_ofList]
    rfl
  -- The minus is no arrow, because a digit follows it.
  have separate : (Token.int magnitude).literal.toList.head? ≠ some '>' := by
    intro first
    rw [digits] at first
    have digit := Nat.isDigit_of_mem_toDigits (by decide) (by decide) (List.mem_of_head? first)
    exact absurd digit (by decide)
  have natural : 0 ≤ magnitude.toInt := by omega
  have behind := Reads.nil.token (.int magnitude) natural (Token.separate_nil _)
  rw [List.append_nil] at behind
  have reads := behind.token .minus trivial separate
  apply Reads.exists_lex
  rw [text]
  exact reads

/-! ### Parsing -/

theorem parseTokens_natural {value : Int64} {lexemes : List Lexeme}
    (tokens : lexemes.map Lexeme.token = [.int value, .endOfInput]) :
    ∃ span span', parseTokens lexemes = .ok ⟨[.number (.int value) span], span'⟩ := by
  obtain ⟨⟨_, span⟩, rest, rfl, ⟨⟩, others⟩ := List.map_eq_cons_iff.mp tokens
  obtain ⟨⟨_, stop⟩, rest, rfl, ⟨⟩, none⟩ := List.map_eq_cons_iff.mp others
  obtain rfl := List.map_eq_nil_iff.mp none
  exact ⟨_, _, rfl⟩

theorem parseTokens_negative {magnitude : Int64} {lexemes : List Lexeme}
    (tokens : lexemes.map Lexeme.token = [.minus, .int magnitude, .endOfInput]) :
    ∃ span span' span'', parseTokens lexemes
      = .ok ⟨[.unary .minus (.number (.int magnitude) span) span'], span''⟩ := by
  obtain ⟨⟨_, sign⟩, rest, rfl, ⟨⟩, operand⟩ := List.map_eq_cons_iff.mp tokens
  obtain ⟨⟨_, span⟩, rest, rfl, ⟨⟩, others⟩ := List.map_eq_cons_iff.mp operand
  obtain ⟨⟨_, stop⟩, rest, rfl, ⟨⟩, none⟩ := List.map_eq_cons_iff.mp others
  obtain rfl := List.map_eq_nil_iff.mp none
  exact ⟨_, _, _, rfl⟩

/-! ### Evaluation -/

/-- Every negative integer but the least has a magnitude. -/
theorem exists_magnitude {value : Int64} (negative : value.toInt < 0)
    (greater : value ≠ Int64.minValue) : ∃ magnitude : Int64, magnitude.toInt = -value.toInt := by
  have least := value.minValue_le_toInt
  have other : value.toInt ≠ Int64.minValue.toInt := fun same => greater (Int64.toInt_inj.mp same)
  have bounds : Int64.minValue.toInt = -2 ^ 63 := rfl
  exact ⟨.ofInt (-value.toInt), Int64.toInt_ofInt_of_le (by omega) (by omega)⟩

section

variable (budget : Nat) (scope : ScopeId) (world : World)

theorem evalProgram_natural (value : Int64) (span span' : Span) :
    evalProgram (budget + 2) scope ⟨[.number (.int value) span], span'⟩ world
      = .ok (.number (.int value)) world := rfl

/-- A sign makes an integer of its opposite. -/
theorem evalProgram_negative {value magnitude : Int64} (opposite : value.toInt = -magnitude.toInt)
    (span span' span'' : Span) :
    evalProgram (budget + 2) scope
        ⟨[.unary .minus (.number (.int magnitude) span) span'], span''⟩ world
      = .ok (.number (.int value)) world := by
  have negated : Number.neg (.int magnitude) = .int value := Number.exactOr_of_toInt opposite _
  rw [← negated]
  rfl

end

/-! ### Running -/

section

variable (path : String) (scope : ScopeId) (world : World) {budget : Nat} (enough : 2 ≤ budget)
  {value : Int64}

include enough

theorem run_text_of_nonneg (natural : 0 ≤ value.toInt) :
    run budget path (Number.int value).text scope world = (.value (.number (.int value)), world) := by
  obtain ⟨budget, rfl⟩ := Nat.exists_eq_add_of_le' enough
  obtain ⟨lexemes, lexed, tokens⟩ := lex_text_natural natural
  obtain ⟨span, span', parsed⟩ := parseTokens_natural tokens
  simp only [run, parse_of_lex lexed, parsed, runProgram, EStateM.run, evalProgram_natural]

theorem run_text_of_neg (negative : value.toInt < 0) (greater : value ≠ Int64.minValue) :
    run budget path (Number.int value).text scope world = (.value (.number (.int value)), world) := by
  obtain ⟨budget, rfl⟩ := Nat.exists_eq_add_of_le' enough
  obtain ⟨magnitude, opposite⟩ := exists_magnitude negative greater
  obtain ⟨lexemes, lexed, tokens⟩ := lex_text_negative negative opposite
  obtain ⟨span, span', span'', parsed⟩ := parseTokens_negative tokens
  have signed : value.toInt = -magnitude.toInt := by omega
  simp only [run, parse_of_lex lexed, parsed, runProgram, EStateM.run,
    evalProgram_negative budget scope world signed]

end

/-- The digits of the least integer are too large for a literal. -/
theorem parse_least : parse (Number.int Int64.minValue).text
    = .error ⟨.lexical ⟨.tooLarge, ⟨1, 20⟩⟩, ⟨1, 20⟩⟩ := by
  have rejected : lex (Number.int Int64.minValue).text = .error ⟨.tooLarge, ⟨1, 20⟩⟩ := by
    cbv
  rw [parse, rejected]

/-- The text of an integer, run in a fresh global scope, has that integer for its value and leaves the
world as it was, unless it is the least one. The text of the least integer is rejected: its digits,
which stand behind the sign, are a literal that is too large. -/
theorem run_integer_text (value : Int64) (path : String) (console : Console) {budget : Nat}
    (enough : 2 ≤ budget) :
    let source : String := (Value.number (.int value)).text
    let world : World := .ofConsole console
    (value ≠ Int64.minValue →
      run budget path source 0 world = (.value (.number (.int value)), world)) ∧
    (value = Int64.minValue →
      run budget path source 0 world
        = (.failure (.parse path source ⟨.lexical ⟨.tooLarge, ⟨1, 20⟩⟩, ⟨1, 20⟩⟩), world)) := by
  intro source world
  have shown : source = (Number.int value).text := rfl
  rw [shown]
  constructor
  · intro greater
    by_cases negative : value.toInt < 0
    · exact run_text_of_neg path 0 world enough negative greater
    · exact run_text_of_nonneg path 0 world enough (Int.not_lt.mp negative)
  · rintro rfl
    simp only [run, parse_least]

/-- The integer above the least one, whose magnitude is the greatest. -/
theorem run_integer_text_above_least :
    run 2 "above.lrl" "-9223372036854775807" 0 (.ofConsole (.ofInput [] .none true))
      = (.value (.number (.int (-9223372036854775807))), .ofConsole (.ofInput [] .none true)) := by
  have text : (Number.int (-9223372036854775807)).text = "-9223372036854775807" := by
    cbv
  rw [← text]
  exact (run_integer_text _ _ _ (Nat.le_refl 2)).1 (by decide)

/-- The least integer is not the value of its text, because that has no value. -/
theorem least_integer_rejected :
    (Value.number (.int Int64.minValue)).text = "-9223372036854775808" ∧
    run 2 "least.lrl" "-9223372036854775808" 0 (.ofConsole (.ofInput [] .none true))
      = (.failure (.parse "least.lrl" "-9223372036854775808"
          ⟨.lexical ⟨.tooLarge, ⟨1, 20⟩⟩, ⟨1, 20⟩⟩), .ofConsole (.ofInput [] .none true)) := by
  have text : (Number.int Int64.minValue).text = "-9223372036854775808" := by
    cbv
  have rejected := parse_least
  rw [text] at rejected
  exact ⟨text, by simp only [run, rejected]⟩

end Primer
