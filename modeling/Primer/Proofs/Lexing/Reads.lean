import Mathlib
import Primer.Token.Lexer

/-!
# Reading text from its end

`Reads` relates a text to the tokens that are read from it. It is built up from the end of the text:
what is put in front of a text adds its tokens in front of the others, as long as the text behind does
not go on with the last of them.
-/

namespace Primer

open Lexer

theorem isBlank_iff {c : Char} :
    isBlank c = true ↔ c = ' ' ∨ c = '\t' ∨ c = '\x0c' ∨ c = '\r' := by
  simp [isBlank, or_assoc]

theorem isSeparator_iff {c : Char} : isSeparator c = true ↔ c = '\n' ∨ c = ';' := by
  simp [isSeparator]

/-- From the text these tokens are read, wherever it stands. -/
def Reads (text : List Char) (tokens : List Token) : Prop :=
  ∀ offset budget : Nat, text.length ≤ budget →
    ∃ lexemes : List Lexeme, lexFrom budget ⟨offset, text⟩ = .ok lexemes ∧
      lexemes.map Lexeme.token = tokens

/-- The text neither starts with layout nor with a separator. -/
def Visible (text : List Char) : Prop :=
  ∃ c rest, text = c :: rest ∧ isBlank c = false ∧ isSeparator c = false ∧ c ≠ '#'

variable {text rest : List Char} {token : Token} {tokens : List Token}

theorem Reads.nil : Reads [] [.endOfInput] := by
  intro offset budget _
  cases budget with
  | zero => exact ⟨_, rfl, rfl⟩
  | succ budget => exact ⟨_, rfl, rfl⟩

/-- What is read from a text wherever it stands is read from a source. -/
theorem Reads.exists_lex {source : String} (reads : Reads source.toList tokens) :
    ∃ lexemes, lex source = .ok lexemes ∧ lexemes.map Lexeme.token = tokens :=
  reads 0 _ (Nat.le_of_eq String.length_toList)

/-- One more token is read in front of the others. -/
theorem Reads.cons (more : token ≠ .endOfInput) (shorter : rest.length < text.length)
    (scans : ∀ offset, ∃ span offset',
      scan ⟨offset, text⟩ = (.ok ⟨token, span⟩, ⟨offset', rest⟩))
    (reads : Reads rest tokens) : Reads text (token :: tokens) := by
  intro offset budget enough
  obtain ⟨span, offset', scanned⟩ := scans offset
  -- Scanning a token takes up a character at least, so the budget of the rest is enough as well.
  obtain ⟨budget, rfl⟩ :=
    Nat.exists_eq_add_of_le' (Nat.one_le_of_lt (Nat.lt_of_lt_of_le shorter enough))
  obtain ⟨lexemes, read, tokens⟩ := reads offset' budget (by omega)
  refine ⟨⟨token, span⟩ :: lexemes, ?_, by rw [List.map_cons, tokens]⟩
  simp only [lexFrom, scanned, more, if_false, read]
  rfl

private theorem scan_blank {c : Char} (blank : isBlank c = true) (offset : Nat) :
    scan ⟨offset, c :: rest⟩ = scan ⟨offset + c.utf8Size, rest⟩ := by
  simp only [scan, skipLayout, Cursor.dropWhile, List.takeWhile_cons, List.dropWhile_cons, blank,
    if_true, Text.byteLength, Nat.add_assoc]

theorem Reads.blank {c : Char} (blank : isBlank c = true) (reads : Reads rest tokens) :
    Reads (c :: rest) tokens := by
  intro offset budget enough
  obtain ⟨budget, rfl⟩ := Nat.exists_eq_add_of_le' (Nat.one_le_of_lt enough)
  obtain ⟨lexemes, read, tokens⟩ := reads (offset + c.utf8Size) (budget + 1)
    (Nat.le_of_succ_le enough)
  refine ⟨lexemes, ?_, tokens⟩
  rw [← read]
  simp only [lexFrom, scan_blank blank]

/-- Where no layout stands, a token starts. -/
theorem scan_eq_token {c : Char} (visible : isBlank c = false) (other : c ≠ '#') (offset : Nat) :
    scan ⟨offset, c :: rest⟩ = Lexer.token ⟨offset, c :: rest⟩ := by
  have stays : Cursor.dropWhile isBlank ⟨offset, c :: rest⟩ = ⟨offset, c :: rest⟩ := by
    simp [Cursor.dropWhile, visible, Text.byteLength]
  simp only [scan, skipLayout, stays]
  split
  next first => exact absurd (List.cons.inj first).1 other
  next => rfl

/-- The characters that are layout, separators, or start a token on their own. -/
def special : List Char :=
  [' ', '\t', '\x0c', '\r', '#', '\n', ';', '+', '*', '/', '^', '(', ')', '[', ']', ',', '-', '=',
    '<', '>', '!', '"']

theorem not_mem_of_all {c : Char} {chars : List Char} {p : Char → Bool}
    (none : chars.all (fun d => !p d) = true) (holds : p c = true) : c ∉ chars := by
  intro member
  have other := List.all_eq_true.mp none c member
  rw [holds] at other
  exact absurd other nofun

/-- Any other character starts a word or a number. -/
theorem scan_plain {c : Char} (plain : c ∉ special) (offset : Nat) :
    scan ⟨offset, c :: rest⟩ =
      if isWordStart c then word ⟨offset, c :: rest⟩
      else if Decimal.isDigit c || c == '.' then number ⟨offset, c :: rest⟩
      else Cursor.reject ⟨offset, c :: rest⟩ (Cursor.advance ⟨offset, c :: rest⟩)
        (.unrecognized c) := by
  simp only [special, List.mem_cons, List.not_mem_nil, or_false, not_or] at plain
  have blank : isBlank c = false := by simp [isBlank, plain]
  have separator : isSeparator c = false := by simp [isSeparator, plain]
  rw [scan_eq_token blank plain.2.2.2.2.1, Lexer.token]
  split <;> simp_all

/-- The text behind a word or a number does not go on with it. -/
def Breaks (text : List Char) : Prop :=
  ∀ c ∈ text.head?, isWordPart c = false ∧ c ≠ '.'

/-- A run of characters in front of a text that does not go on with it. -/
theorem dropWhile_append {p : Char → Bool} {run : List Char} (all : ∀ c ∈ run, p c = true)
    (stops : ∀ c ∈ rest.head?, p c = false) (offset : Nat) :
    (run ++ rest).takeWhile p = run ∧
      Cursor.dropWhile p ⟨offset, run ++ rest⟩ = ⟨offset + Text.byteLength run, rest⟩ := by
  have taken : rest.takeWhile p = [] := by
    cases rest with
    | nil => rfl
    | cons c rest => rw [List.takeWhile_cons_of_neg (by simp [stops c rfl])]
  have dropped : rest.dropWhile p = rest := by
    cases rest with
    | nil => rfl
    | cons c rest => rw [List.dropWhile_cons_of_neg (by simp [stops c rfl])]
  have front : (run ++ rest).takeWhile p = run := by
    rw [List.takeWhile_append_of_pos all, taken, List.append_nil]
  refine ⟨front, ?_⟩
  rw [Cursor.dropWhile, front, List.dropWhile_append_of_pos all, dropped]

end Primer
