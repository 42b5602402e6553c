import Primer.Proofs.Decimal.Writing
import Primer.Proofs.Lexing.Reads
import Primer.Proofs.Number.Exactness

/-!
# Tokens from their spelling

The source text of a token reads as that token, if the text behind does not go on with it: no letter
or digit behind a word or a number, no equality sign behind `=`, `<` or `>`, and no `>` behind a minus.
A blank goes on with no token, so tokens that are written with blanks between them are read back
(`lex_literals`).
-/

namespace Primer

open Lexer

/-- The characters of an identifier or a keyword. -/
structure IsWord (text : List Char) : Prop where
  start : ∀ c ∈ text.head?, isWordStart c = true
  parts : ∀ c ∈ text, isWordPart c = true
  nonempty : text ≠ []

instance (text : List Char) : Decidable (IsWord text) :=
  decidable_of_iff (text.head?.all isWordStart = true ∧ text.all isWordPart = true ∧ text ≠ [])
    ⟨fun ⟨start, parts, nonempty⟩ =>
        ⟨(Option.all_eq_true _ _).mp start, List.all_eq_true.mp parts, nonempty⟩,
      fun word =>
        ⟨(Option.all_eq_true _ _).mpr word.start, List.all_eq_true.mpr word.parts, word.nonempty⟩⟩

/-- A name that a program may use: a word that is not reserved. -/
def IsName (name : String) : Prop :=
  IsWord name.toList ∧ Keyword.ofText? name = none

instance (name : String) : Decidable (IsName name) :=
  inferInstanceAs (Decidable (_ ∧ _))

/-- Printable ASCII, a line feed or a tab. -/
def isPlain (c : Char) : Bool :=
  (' ' ≤ c && c ≤ '~') || c == '\n' || c == '\t'

/-- The characters that a quoted text has as they are, or spells with an escape of the language. -/
def isLegible (c : Char) : Bool :=
  c == '\n' || c == '\t' || c == '"' || c == '\\' || Text.spell '"' c == [c]

namespace Token

/-- The tokens whose spelling can be read back. -/
def Spelled : Token → Prop
  | .ident name => IsName name
  | .int value => 0 ≤ value.toInt
  | .string value => ∀ c ∈ value.toList, isLegible c = true
  | .float _ | .newline | .endOfInput => False
  | _ => True

/-- The text behind a token does not go on with it. -/
def Separate (text : List Char) : Token → Prop
  | .ident _ | .int _ | .keyword _ => Breaks text
  | .minus => text.head? ≠ some '>'
  | .assign | .less | .greater => text.head? ≠ some '='
  | _ => True

end Token

variable {rest : List Char} {tokens : List Token}

/-- Characters in front of a text are read as the given token. -/
def Spells (text rest : List Char) (token : Token) : Prop :=
  ∀ offset, ∃ span offset', scan ⟨offset, text ++ rest⟩ = (.ok ⟨token, span⟩, ⟨offset', rest⟩)

private theorem spells_word {text : List Char} {token : Token} (word : IsWord text)
    (breaks : Breaks rest)
    (found : (match Keyword.ofText? (String.ofList text) with
      | some keyword => .keyword keyword
      | none => .ident (String.ofList text)) = token) :
    Spells text rest token := by
  intro offset
  obtain ⟨c, tail, rfl⟩ := List.exists_cons_of_ne_nil word.nonempty
  have start : isWordStart c = true := word.start c rfl
  have plain : c ∉ special := not_mem_of_all (by decide) start
  obtain ⟨taken, dropped⟩ := dropWhile_append word.parts (fun d next => (breaks d next).1) offset
  rw [List.cons_append] at taken dropped ⊢
  rw [scan_plain plain, if_pos start, Lexer.word]
  simp only [taken, dropped]
  subst found
  exact ⟨_, _, rfl⟩

theorem isWord_keyword (keyword : Keyword) : IsWord keyword.text.toList := by
  cases keyword <;> decide

theorem ofText?_text (keyword : Keyword) : Keyword.ofText? keyword.text = some keyword := by
  cases keyword <;> decide

theorem spells_keyword (keyword : Keyword) (breaks : Breaks rest) :
    Spells keyword.text.toList rest (.keyword keyword) := by
  refine spells_word (isWord_keyword keyword) breaks ?_
  rw [String.ofList_toList, ofText?_text]

theorem spells_ident {name : String} (proper : IsName name) (breaks : Breaks rest) :
    Spells name.toList rest (.ident name) := by
  refine spells_word proper.1 breaks ?_
  rw [String.ofList_toList, proper.2]

private theorem isWordPart_of_isDigit {c : Char} (digit : Decimal.isDigit c = true) :
    isWordPart c = true := by
  have same : c.isDigit = true := digit
  simp [isWordPart, Char.isAlphanum, same]

private theorem isWordStart_of_isDigit {c : Char} (digit : Decimal.isDigit c = true) :
    isWordStart c = false := by
  have other : c ≠ '_' := by
    rintro rfl
    exact absurd digit (by decide)
  rw [isWordStart, Decimal.isAlpha_of_isDigit digit, beq_eq_false_iff_ne.mpr other, Bool.or_false]

private theorem noDigit_of_breaks (breaks : Breaks rest) :
    ∀ c ∈ rest.head?, Decimal.isDigit c = false :=
  fun c next => Bool.eq_false_iff.mpr fun digit =>
    absurd (isWordPart_of_isDigit digit) (by rw [(breaks c next).1]; exact nofun)

/-- A text that starts with a digit is read as a number. -/
private theorem scan_digit {c : Char} (digit : Decimal.isDigit c = true) (text : List Char)
    (offset : Nat) : scan ⟨offset, c :: text⟩ = number ⟨offset, c :: text⟩ := by
  have plain : c ∉ special := not_mem_of_all (by decide) digit
  rw [scan_plain plain, if_neg (by simp [isWordStart_of_isDigit digit]), if_pos (by simp [digit])]

theorem spells_int {value : Int64} (positive : 0 ≤ value.toInt) (breaks : Breaks rest) :
    Spells (Token.int value).literal.toList rest (.int value) := by
  intro offset
  obtain ⟨n, toNat⟩ := Int.eq_ofNat_of_zero_le positive
  have text : (Token.int value).literal.toList = Decimal.digits n := by
    rw [Token.literal, String.toList_ofList, toNat]
    rfl
  have digits : ∀ c ∈ Decimal.digits n, Decimal.isDigit c = true := Decimal.digits_digits n
  obtain ⟨taken, dropped⟩ := dropWhile_append digits (noDigit_of_breaks breaks) offset
  obtain ⟨c, tail, some⟩ := List.exists_cons_of_ne_nil (Nat.toDigits_ne_nil (n := n) (b := 10))
  have first : Decimal.digits n = c :: tail := some
  have digit : Decimal.isDigit c = true := digits c (by rw [first]; exact List.mem_cons_self)
  have value? : Decimal.int64? (Decimal.natural (Decimal.digits n)) = Option.some value := by
    rw [Decimal.natural_digits]
    exact Decimal.int64?_eq_some_iff.mpr toNat
  rw [text]
  have scanned : scan ⟨offset, Decimal.digits n ++ rest⟩
      = number ⟨offset, Decimal.digits n ++ rest⟩ := by
    rw [first, List.cons_append, scan_digit digit]
  rw [scanned, number]
  simp only [taken, dropped]
  -- A point would make the number a float.
  split
  next tail => exact absurd rfl (breaks '.' rfl).2
  next =>
    simp only [value?]
    exact ⟨_, _, rfl⟩

theorem spells_float {text : List Char} {value : Float} (denotes : Decimal.Denotes text value)
    (breaks : Breaks rest) : Spells text rest (.float value) := by
  intro offset
  obtain ⟨whole, fraction, rfl, nonempty, digits, decimals, rfl⟩ := denotes
  have noPoint : ∀ c ∈ ('.' :: (fraction ++ rest)).head?, Decimal.isDigit c = false := by
    rintro c ⟨⟩
    decide
  obtain ⟨taken, dropped⟩ := dropWhile_append digits noPoint offset
  obtain ⟨takenBehind, droppedBehind⟩ := dropWhile_append decimals (noDigit_of_breaks breaks)
    (offset + Text.byteLength whole + ('.').utf8Size)
  obtain ⟨c, tail, rfl⟩ := List.exists_cons_of_ne_nil nonempty
  have digit : Decimal.isDigit c = true := digits c List.mem_cons_self
  rw [List.append_assoc, List.cons_append]
  rw [List.cons_append, scan_digit digit, ← List.cons_append, number]
  simp only [taken, dropped, Cursor.advance, takenBehind, droppedBehind]
  split
  next tail => exact absurd rfl (breaks '.' rfl).2
  next =>
    rw [if_neg (by simp)]
    exact ⟨_, _, rfl⟩

private theorem spell_plain {c : Char} (plain : isPlain c = true) (other : c ≠ '"')
    (noEscape : c ≠ '\\') (noLine : c ≠ '\n') (noTab : c ≠ '\t') : Text.spell '"' c = [c] := by
  have code : 32 ≤ c.toNat ∧ c.toNat ≤ 126 := by
    simpa [isPlain, noLine, noTab, Char.le_def, UInt32.le_iff_toNat_le] using plain
  have noNull : c ≠ '\x00' := by rintro rfl; exact absurd code.1 (by decide)
  have noReturn : c ≠ '\r' := by rintro rfl; exact absurd code.1 (by decide)
  -- Printable ASCII lies before every run of extending code points and between the first two runs
  -- of unprintable ones.
  have starts : Text.isExtending c = false := by
    obtain ⟨later, runs⟩ : ∃ later, Text.extendingRanges = (0x300, 0x36F) :: later := ⟨_, rfl⟩
    rw [Text.isExtending, runs, Text.Ranges.holds, if_pos (by omega)]
  have unprintable : Text.isUnprintable c = false := by
    obtain ⟨later, runs⟩ :
      ∃ later, Text.unprintableRanges = (0x0, 0x1F) :: (0x7F, 0xA0) :: later := ⟨_, rfl⟩
    rw [Text.isUnprintable, runs, Text.Ranges.holds, if_neg (by omega), Text.Ranges.holds,
      if_pos (by omega), Bool.or_false, decide_eq_false_iff_not]
    omega
  simp [Text.spell, noNull, noTab, noReturn, noLine, other, noEscape, starts, unprintable]

theorem isLegible_of_isPlain {c : Char} (plain : isPlain c = true) : isLegible c = true := by
  by_cases known : c = '\n' ∨ c = '\t' ∨ c = '"' ∨ c = '\\'
  · rcases known with rfl | rfl | rfl | rfl <;> rfl
  · simp only [not_or] at known
    simp [isLegible, spell_plain plain known.2.2.1 known.2.2.2 known.1 known.2.1]

/-- A text between quotes is read back character by character. -/
private theorem stringBody_quoted {value : List Char}
    (legible : ∀ c ∈ value, isLegible c = true) (offset : Nat) :
    ∃ offset', stringBody offset (value.flatMap (Text.spell '"') ++ '"' :: rest)
      = (some value, ⟨offset', rest⟩) := by
  induction value generalizing offset with
  | nil => exact ⟨_, rfl⟩
  | cons c value ih =>
    have others : ∀ c ∈ value, isLegible c = true := fun d member =>
      legible d (List.mem_cons_of_mem _ member)
    rw [List.flatMap_cons, List.append_assoc]
    -- Four characters are spelled with a backslash and all others by themselves.
    have escaped (e : Char) (stands : unescape e = c) (spelled : Text.spell '"' c = ['\\', e]) :
        ∃ offset', stringBody offset
          (Text.spell '"' c ++ (value.flatMap (Text.spell '"') ++ '"' :: rest))
          = (some (c :: value), ⟨offset', rest⟩) := by
      obtain ⟨offset', read⟩ := ih others (offset + 1 + e.utf8Size)
      refine ⟨offset', ?_⟩
      simp only [spelled, List.cons_append, List.nil_append, stringBody, read, stands,
        Option.map_some]
    by_cases isLine : c = '\n'
    · subst isLine
      exact escaped 'n' rfl rfl
    by_cases isTab : c = '\t'
    · subst isTab
      exact escaped 't' rfl rfl
    by_cases isQuote : c = '"'
    · subst isQuote
      exact escaped '"' rfl rfl
    by_cases isEscape : c = '\\'
    · subst isEscape
      exact escaped '\\' rfl rfl
    have alone : Text.spell '"' c = [c] := by
      simpa [isLegible, isLine, isTab, isQuote, isEscape] using legible c List.mem_cons_self
    obtain ⟨offset', read⟩ := ih others (offset + c.utf8Size)
    refine ⟨offset', ?_⟩
    rw [alone]
    simp [stringBody, isEscape, read]

theorem spells_string {value : String} (legible : ∀ c ∈ value.toList, isLegible c = true) :
    Spells (Token.string value).literal.toList rest (.string value) := by
  intro offset
  have text : (Token.string value).literal.toList ++ rest
      = '"' :: (value.toList.flatMap (Text.spell '"') ++ '"' :: rest) := by
    simp [Token.literal, Text.quote]
  obtain ⟨offset', read⟩ : ∃ offset', stringBody (offset + ('"').utf8Size)
      (value.toList.flatMap (Text.spell '"') ++ '"' :: rest) = (some value.toList, ⟨offset', rest⟩) :=
    stringBody_quoted legible _
  rw [text, scan_eq_token (by decide) (by decide)]
  show ∃ span offset', Lexer.string _ = _
  simp only [Lexer.string, Cursor.advance, read, String.ofList_toList]
  exact ⟨_, _, rfl⟩

/-- The tokens that are neither words nor literals are read from their spelling. -/
theorem spells_symbol {token : Token} (symbol : token ∈ [.plus, .times, .divide, .power, .equal,
      .notEqual, .lessEqual, .greaterEqual, .leftParen, .rightParen, .leftBracket, .rightBracket,
      .comma, .arrow]) :
    Spells token.literal.toList rest token := by
  intro offset
  simp only [List.mem_cons, List.not_mem_nil, or_false] at symbol
  rcases symbol with rfl | rfl | rfl | rfl | rfl | rfl | rfl | rfl | rfl | rfl | rfl | rfl | rfl | rfl
  all_goals exact ⟨_, _, rfl⟩

/-- A token that a second character would make another. -/
private theorem pair_alone {second : Char} {double alone : Token} {c : Char}
    (separate : rest.head? ≠ some second) (offset : Nat) :
    Lexer.pair ⟨offset, c :: rest⟩ second double alone
      = (.ok ⟨alone, ⟨offset, offset + c.utf8Size⟩⟩, ⟨offset + c.utf8Size, rest⟩) := by
  simp only [Lexer.pair, Cursor.advance]
  split
  next d tail =>
    have other : d ≠ second := fun same => separate (same ▸ rfl)
    rw [if_neg other]
    rfl
  next => rfl

theorem spells_minus (separate : rest.head? ≠ some '>') : Spells ['-'] rest .minus :=
  fun offset => ⟨_, _, pair_alone separate offset⟩

theorem spells_assign (separate : rest.head? ≠ some '=') : Spells ['='] rest .assign :=
  fun offset => ⟨_, _, pair_alone separate offset⟩

theorem spells_less (separate : rest.head? ≠ some '=') : Spells ['<'] rest .less :=
  fun offset => ⟨_, _, pair_alone separate offset⟩

theorem spells_greater (separate : rest.head? ≠ some '=') : Spells ['>'] rest .greater :=
  fun offset => ⟨_, _, pair_alone separate offset⟩

/-- A token is read from its spelling. -/
theorem spells_literal {token : Token} (spelled : token.Spelled) (separate : token.Separate rest) :
    Spells token.literal.toList rest token := by
  cases token with
  | ident name => exact spells_ident spelled separate
  | int value => exact spells_int spelled separate
  | string value => exact spells_string spelled
  | keyword word => exact spells_keyword word separate
  | minus => exact spells_minus separate
  | assign => exact spells_assign separate
  | less => exact spells_less separate
  | greater => exact spells_greater separate
  | float | newline | endOfInput => exact spelled.elim
  | _ => exact spells_symbol (by simp)

private theorem literal_ne_nil {token : Token} (spelled : token.Spelled) :
    token.literal.toList ≠ [] := by
  cases token with
  | ident name => exact spelled.1.nonempty
  | int value =>
    rw [Token.literal, String.toList_ofList]
    generalize value.toInt = number
    cases number with
    | ofNat n => exact Nat.toDigits_ne_nil
    | negSucc n => exact List.cons_ne_nil _ _
  | string value => simp [Token.literal, Text.quote]
  | keyword word => exact (isWord_keyword word).nonempty
  | float | newline | endOfInput => exact spelled.elim
  | _ => decide

theorem Reads.token (token : Token) (spelled : token.Spelled) (separate : token.Separate rest)
    (reads : Reads rest tokens) : Reads (token.literal.toList ++ rest) (token :: tokens) := by
  refine reads.cons ?_ ?_ (spells_literal spelled separate)
  · rintro rfl
    exact spelled
  · rw [List.length_append]
    exact Nat.lt_add_of_pos_left (List.length_pos_iff.mpr (literal_ne_nil spelled))

theorem Reads.float {text : List Char} {value : Float} (denotes : Decimal.Denotes text value)
    (breaks : Breaks rest) (reads : Reads rest tokens) :
    Reads (text ++ rest) (.float value :: tokens) := by
  refine reads.cons nofun ?_ (spells_float denotes breaks)
  obtain ⟨whole, fraction, rfl, -⟩ := denotes
  simp only [List.length_append, List.length_cons]
  omega

private theorem separatorRun_append {run : List Char}
    (layout : ∀ c ∈ run, isSeparator c = true ∨ isBlank c = true) (visible : Visible rest)
    (stop offset : Nat) :
    ∃ stop' offset', separatorRun stop offset false (run ++ rest) = (stop', ⟨offset', rest⟩) := by
  induction run generalizing stop offset with
  | nil =>
    obtain ⟨c, tail, rfl, noBlank, noSeparator, noComment⟩ := visible
    refine ⟨stop, offset, ?_⟩
    simp only [isSeparator, Bool.or_eq_false_iff] at noSeparator
    simp [separatorRun, noSeparator, noBlank, noComment]
  | cons c run ih =>
    have others := fun d member => layout d (List.mem_cons_of_mem c member)
    rw [List.cons_append, separatorRun]
    rcases layout c List.mem_cons_self with separator | blank
    · have first : (c == '\n' || c == ';' && !false) = true := by simpa [isSeparator] using separator
      simp only [first, if_true]
      exact ih others _ _
    · obtain ⟨other, noComment⟩ :
          (c == '\n' || c == ';' && !false) = false ∧ (false || c == '#') = false := by
        rcases isBlank_iff.mp blank with rfl | rfl | rfl | rfl <;> decide
      simp only [other, noComment, blank, if_true]
      exact ih others _ _

/-- One `newline` is read from a run of separators and blanks. -/
theorem Reads.newline (c : Char) (run : List Char) (separator : isSeparator c = true)
    (others : ∀ d ∈ run, isSeparator d = true ∨ isBlank d = true) (visible : Visible rest)
    (reads : Reads rest tokens) : Reads (c :: run ++ rest) (.newline :: tokens) := by
  have shorter : rest.length < (c :: run ++ rest).length := by
    rw [List.length_append, List.length_cons]
    omega
  refine reads.cons nofun shorter fun offset => ?_
  have layout : ∀ d ∈ c :: run, isSeparator d = true ∨ isBlank d = true :=
    List.forall_mem_cons.mpr ⟨.inl separator, others⟩
  obtain ⟨stop, after, skipped⟩ := separatorRun_append layout visible offset offset
  refine ⟨⟨offset, stop⟩, after, ?_⟩
  have scanned : scan ⟨offset, c :: run ++ rest⟩ = separators ⟨offset, c :: run ++ rest⟩ := by
    rcases isSeparator_iff.mp separator with rfl | rfl
    all_goals exact scan_eq_token (by decide) (by decide) offset
  rw [scanned, separators]
  simp only [skipped]

/-! ### Blanks between tokens -/

theorem breaks_cons {c : Char} (stops : (isWordPart c || c == '.') = false) : Breaks (c :: rest) := by
  intro d next
  obtain rfl : c = d := Option.some.inj next
  simpa using stops

theorem Reads.space (reads : Reads rest tokens) : Reads (' ' :: rest) tokens :=
  reads.blank rfl

namespace Token

/-- No token goes on behind a blank. -/
theorem separate_space (token : Token) : token.Separate (' ' :: rest) := by
  cases token with
  | ident | int | keyword => exact breaks_cons rfl
  | minus | assign | less | greater => exact nofun
  | _ => trivial

/-- No token goes on behind the end of a text. -/
theorem separate_nil (token : Token) : token.Separate [] := by
  cases token with
  | ident | int | keyword => exact nofun
  | minus | assign | less | greater => exact nofun
  | _ => trivial

/-- The tokens that are spelled in plain characters: a name, an integer without a sign, a text of
printable ASCII, line feeds and tabs, and all that have one spelling. -/
def Plain : Token → Prop
  | .ident name => IsName name
  | .int value => 0 ≤ value.toInt
  | .string value => ∀ c ∈ value.toList, isPlain c = true
  | .float _ | .newline | .endOfInput => False
  | _ => True

theorem Plain.spelled {token : Token} (plain : token.Plain) : token.Spelled := by
  cases token with
  | string value => exact fun c member => isLegible_of_isPlain (plain c member)
  | _ => exact plain

end Token

/-- By induction on the tokens, from the last one: each is read in front of the blank behind it. -/
theorem reads_literals (tokens : List Token) (spelled : ∀ token ∈ tokens, token.Spelled) :
    Reads (" ".intercalate (tokens.map Token.literal)).toList (tokens ++ [.endOfInput]) := by
  match tokens with
  | [] => exact .nil
  | [token] =>
    have read := Reads.nil.token token (spelled token List.mem_cons_self) token.separate_nil
    simpa using read
  | token :: next :: others =>
    obtain ⟨first, rest⟩ := List.forall_mem_cons.mp spelled
    have behind := reads_literals (next :: others) rest
    have whole := behind.space.token token first token.separate_space
    simpa using whole

/-- Plain tokens, written one behind the other with a blank between them, are read back. -/
theorem lex_literals {tokens : List Token} (plain : ∀ token ∈ tokens, token.Plain) :
    ∃ lexemes, lex (" ".intercalate (tokens.map Token.literal)) = .ok lexemes ∧
      lexemes.map Lexeme.token = tokens ++ [.endOfInput] := by
  have reads := reads_literals tokens fun token member => (plain token member).spelled
  exact reads 0 _ (Nat.le_of_eq String.length_toList)

/-- A minus before a comparison, the largest integer, and a text that ends in a backslash and a quote. -/
theorem lex_literals_escapes :
    let tokens : List Token := [.minus, .greater, .int 9223372036854775807, .string "a\t\n\\\"",
      .keyword .isWord, .ident "_is1"]
    (∀ token ∈ tokens, token.Plain) ∧
      ∃ lexemes, lex (" ".intercalate (tokens.map Token.literal)) = .ok lexemes ∧
        lexemes.map Lexeme.token = tokens ++ [.endOfInput] := by
  intro tokens
  have plain : ∀ token ∈ tokens, token.Plain := by
    simp only [tokens, List.forall_mem_cons]
    refine ⟨trivial, trivial, ?_, List.all_eq_true.mp (by decide), trivial, ?_, List.forall_mem_nil _⟩
    · show 0 ≤ (9223372036854775807 : Int64).toInt
      decide
    · show IsName "_is1"
      decide
  exact ⟨plain, lex_literals plain⟩

end Primer
