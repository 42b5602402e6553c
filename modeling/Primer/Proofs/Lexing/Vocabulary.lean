import Primer.Proofs.Lexing.Spelling

/-!
# The words of a source

What is known of the tokens that the lexer reads, beyond their places: an identifier is a word that is
not reserved, and an integer has no sign.
-/

namespace Primer

open Lexer

/-- The tokens that some source has. -/
def Token.Lexical : Token → Prop
  | .ident name => IsName name
  | .int value => 0 ≤ value.toInt
  | _ => True

/-- What was read is a token of some source, or an error. -/
def Scanned.Lexical : Scanned → Prop
  | .ok lexeme => lexeme.token.Lexical
  | .error _ => True

variable {here : Cursor} {c : Char} {rest : List Char}

private theorem lexical_pair (second : Char) {double alone : Token} (two : double.Lexical)
    (one : alone.Lexical) : (Lexer.pair here second double alone).1.Lexical := by
  simp only [Lexer.pair]
  split
  · split
    · exact two
    · exact one
  · exact one

private theorem lexical_word (text : here.rest = c :: rest) (start : isWordStart c = true) :
    (word here).1.Lexical := by
  have part : isWordPart c = true := by
    simp only [isWordStart, isWordPart, Char.isAlphanum, Bool.or_eq_true] at start ⊢
    tauto
  have isWord : IsWord (here.rest.takeWhile isWordPart) := by
    rw [text, List.takeWhile_cons_of_pos part]
    refine ⟨?_, ?_, List.cons_ne_nil _ _⟩
    · rintro d ⟨⟩
      exact start
    · intro d member
      rw [← List.takeWhile_cons_of_pos part] at member
      exact List.mem_takeWhile_imp member
  simp only [word, Cursor.accept, Scanned.Lexical]
  cases found : Keyword.ofText? (String.ofList (here.rest.takeWhile isWordPart)) with
  | some keyword => trivial
  | none => exact ⟨by rwa [String.toList_ofList], found⟩

/-- Digits make up a natural number, and one that fits has no sign. -/
private theorem toInt_nonneg {n : Nat} {value : Int64} (fits : Decimal.int64? n = some value) :
    0 ≤ value.toInt := by
  rw [Decimal.int64?_eq_some_iff.mp fits]
  exact Int.natCast_nonneg n

private theorem lexical_number : (number here).1.Lexical := by
  simp only [number]
  split
  · split
    · trivial
    · split <;> trivial
  · split
    next value fits => exact toInt_nonneg fits
    next => trivial

theorem lexical_token : (Lexer.token here).1.Lexical := by
  cases text : here.rest with
  | nil =>
    simp only [Lexer.token, text]
    trivial
  | cons c rest =>
    simp only [Lexer.token, text]
    split
    case h_10 | h_11 | h_12 | h_13 => exact lexical_pair _ trivial trivial
    case h_14 =>
      simp only [inequality]
      split <;> trivial
    case h_15 =>
      simp only [Lexer.string]
      split <;> trivial
    case h_16 =>
      split
      · trivial
      · split
        next start => exact lexical_word text start
        next =>
          split
          · exact lexical_number
          · trivial
    all_goals trivial

/-- By induction along the source: every token that is read is one of the language. -/
theorem lexical_of_lexFrom {budget : Nat} {cursor : Cursor} {lexemes : List Lexeme}
    (read : lexFrom budget cursor = .ok lexemes) : ∀ lexeme ∈ lexemes, lexeme.token.Lexical := by
  induction budget generalizing cursor lexemes with
  | zero =>
    cases read
    exact List.forall_mem_singleton.mpr trivial
  | succ budget ih =>
    have known : (scan cursor).1.Lexical := lexical_token
    rw [lexFrom] at read
    split at read
    next => cases read
    next lexeme after scanned =>
      rw [scanned] at known
      split at read
      · cases read
        exact List.forall_mem_singleton.mpr known
      · cases behind : lexFrom budget after with
        | error => simp [behind, Except.map] at read
        | ok others =>
          simp only [behind, Except.map, Except.ok.injEq] at read
          subst read
          exact List.forall_mem_cons.mpr ⟨known, ih behind⟩

theorem lexical_of_lex {source : String} {lexemes : List Lexeme} (read : lex source = .ok lexemes) :
    ∀ lexeme ∈ lexemes, lexeme.token.Lexical :=
  lexical_of_lexFrom read

end Primer
