import Primer.Proofs.Lexing.Reads

/-!
# What a scan reads

A scan goes over layout and takes one token off the front of the text. What it takes depends on the
characters of the token and on whether the text behind goes on with them, and not on the offset or on
anything further behind: `Scans` says so, and `takes_of_token` that every token but a newline and the
end of input is read in this way. `ScanStep` is one scan and `Lexed` reading to the end, without a
budget.
-/

namespace Primer

open Lexer

/-! ### Cursors further on -/

namespace Text

@[simp] theorem byteLength_append (first second : List Char) :
    byteLength (first ++ second) = byteLength first + byteLength second := by
  induction first with
  | nil => simp [byteLength]
  | cons c rest ih => simp [byteLength, ih, Nat.add_assoc]

theorem byteLength_pos {text : List Char} (some : text ≠ []) : 0 < byteLength text := by
  cases text with
  | nil => exact absurd rfl some
  | cons c text => exact Nat.add_pos_left c.utf8Size_pos _

theorem utf8ByteSize_ofList (text : List Char) :
    (String.ofList text).utf8ByteSize = byteLength text := by
  induction text with
  | nil => rfl
  | cons c rest ih =>
    have split : String.ofList (c :: rest) = String.singleton c ++ String.ofList rest := by
      rw [String.singleton_eq_ofList, ← String.ofList_append, List.singleton_append]
    rw [byteLength, ← ih, split, String.utf8ByteSize_append, String.utf8ByteSize_singleton]

theorem byteLength_toList (text : String) : byteLength text.toList = text.utf8ByteSize := by
  rw [← utf8ByteSize_ofList, String.ofList_toList]

end Text

namespace Cursor

/-- The second cursor is behind some of the text of the first. -/
def Reaches (cursor after : Cursor) : Prop :=
  ∃ taken, cursor.rest = taken ++ after.rest ∧ after.offset = cursor.offset + Text.byteLength taken

variable {cursor between after : Cursor}

theorem Reaches.refl (cursor : Cursor) : cursor.Reaches cursor :=
  ⟨[], by simp [Text.byteLength]⟩

theorem Reaches.trans (first : cursor.Reaches between) (second : between.Reaches after) :
    cursor.Reaches after := by
  obtain ⟨taken, text, offset⟩ := first
  obtain ⟨taken', text', offset'⟩ := second
  exact ⟨taken ++ taken', by simp [text, text'], by simp [offset, offset', Nat.add_assoc]⟩

/-- A cursor keeps its distance to the end of the text. -/
theorem Reaches.total (reaches : cursor.Reaches after) :
    after.offset + Text.byteLength after.rest = cursor.offset + Text.byteLength cursor.rest := by
  obtain ⟨taken, text, offset⟩ := reaches
  rw [text, offset, Text.byteLength_append]
  omega

theorem Reaches.length_le (reaches : cursor.Reaches after) :
    after.rest.length ≤ cursor.rest.length := by
  obtain ⟨taken, text, -⟩ := reaches
  simp [text]

theorem reaches_cons (offset : Nat) (c : Char) (rest : List Char) :
    Reaches ⟨offset, c :: rest⟩ ⟨offset + c.utf8Size, rest⟩ :=
  ⟨[c], by simp [Text.byteLength]⟩

theorem reaches_dropWhile (p : Char → Bool) (cursor : Cursor) :
    cursor.Reaches (cursor.dropWhile p) :=
  ⟨cursor.rest.takeWhile p, by simp [dropWhile, List.takeWhile_append_dropWhile], rfl⟩

end Cursor

/-! ### Layout -/

theorem skipLayout_eq (cursor : Cursor) :
    skipLayout cursor =
      let here := cursor.dropWhile isBlank
      if here.rest.head? = some '#' then here.dropWhile (· != '\n') else here := by
  simp only [skipLayout]
  split
  next comment => simp [comment]
  next other =>
    have noComment : (cursor.dropWhile isBlank).rest.head? ≠ some '#' := by
      intro first
      obtain ⟨tail, text⟩ := List.head?_eq_some_iff.mp first
      exact other tail text
    rw [if_neg noComment]

theorem reaches_skipLayout (cursor : Cursor) : cursor.Reaches (skipLayout cursor) := by
  have blanks := Cursor.reaches_dropWhile isBlank cursor
  rw [skipLayout_eq]
  dsimp only
  split
  · exact blanks.trans (Cursor.reaches_dropWhile _ _)
  · exact blanks

theorem not_of_head?_dropWhile {p : Char → Bool} {text : List Char} {c : Char}
    (first : c ∈ (text.dropWhile p).head?) : p c = false := by
  have stops := List.head?_dropWhile_not p text
  simp_all

/-- What stands behind layout is neither a blank nor a comment. -/
theorem skipLayout_stops (cursor : Cursor) :
    ∀ c ∈ (skipLayout cursor).rest.head?, isBlank c = false ∧ c ≠ '#' := by
  intro c first
  simp only [skipLayout_eq] at first
  split at first
  next =>
    -- A comment ends before a line feed.
    have line : (c != '\n') = false := not_of_head?_dropWhile (p := (· != '\n')) first
    obtain rfl : c = '\n' := by simpa using line
    decide
  next noComment =>
    refine ⟨not_of_head?_dropWhile first, ?_⟩
    rintro rfl
    exact noComment first

theorem skipLayout_of_stops {cursor : Cursor}
    (stops : ∀ c ∈ cursor.rest.head?, isBlank c = false ∧ c ≠ '#') : skipLayout cursor = cursor := by
  obtain ⟨offset, text⟩ := cursor
  cases text with
  | nil => rfl
  | cons c rest =>
    obtain ⟨noBlank, noComment⟩ := stops c rfl
    simp [skipLayout_eq, Cursor.dropWhile, noBlank, noComment, Text.byteLength]

/-- Layout that was skipped is not there to be skipped again. -/
theorem skipLayout_skipLayout (cursor : Cursor) :
    skipLayout (skipLayout cursor) = skipLayout cursor :=
  skipLayout_of_stops (skipLayout_stops cursor)

theorem scan_skipLayout (cursor : Cursor) : scan (skipLayout cursor) = scan cursor := by
  rw [scan, skipLayout_skipLayout, scan]

/-! ### Tokens -/

/-- The characters that stand between tokens. No token goes on with one of them. -/
def gaps : List Char :=
  [' ', '\t', '\x0c', '\r', '\n', ';', '#']

/-- Behind a token, the first text is as good as the second: it starts with the same character, or it
does not go on with any token. -/
def StandsFor (more rest : List Char) : Prop :=
  more.head? = rest.head? ∨ ∀ c ∈ more.head?, c ∈ gaps

theorem StandsFor.refl (rest : List Char) : StandsFor rest rest :=
  .inl rfl

theorem StandsFor.trans {first second third : List Char} (stands : StandsFor first second)
    (stands' : StandsFor second third) : StandsFor first third := by
  rcases stands with same | gap
  · rcases stands' with same' | gap'
    · exact .inl (same.trans same')
    · right
      rw [same]
      exact gap'
  · exact .inr gap

theorem StandsFor.stops {more rest : List Char} (stands : StandsFor more rest) {p : Char → Bool}
    (none : gaps.all (fun d => !p d) = true) (stops : ∀ c ∈ rest.head?, p c = false) :
    ∀ c ∈ more.head?, p c = false := by
  intro c first
  rcases stands with same | gap
  · exact stops c (same ▸ first)
  · simpa using List.all_eq_true.mp none c (gap c first)

theorem StandsFor.head?_ne {more rest : List Char} (stands : StandsFor more rest) {c : Char}
    (visible : c ∉ gaps) (other : rest.head? ≠ some c) : more.head? ≠ some c := by
  intro first
  rcases stands with same | gap
  · exact other (same ▸ first)
  · exact visible (gap c first)

/-- In front of any text that is as good as `rest`, the characters are read as the token. -/
def Scans (taken rest : List Char) (token : Token) : Prop :=
  ∀ offset more, StandsFor more rest →
    scan ⟨offset, taken ++ more⟩
      = (.ok ⟨token, ⟨offset, offset + Text.byteLength taken⟩⟩,
        ⟨offset + Text.byteLength taken, more⟩)

theorem Scans.before {taken rest more : List Char} {token : Token} (scans : Scans taken rest token)
    (stands : StandsFor more rest) : Scans taken more token :=
  fun offset text stands' => scans offset text (stands'.trans stands)

/-- A token with a text of its own. -/
def Token.Proper (token : Token) : Prop :=
  token ≠ .newline ∧ token ≠ .endOfInput

instance (token : Token) : Decidable token.Proper :=
  inferInstanceAs (Decidable (_ ∧ _))

/-- A token is taken off the front of the text. -/
def Takes (text : List Char) (lexeme : Lexeme) (after : Cursor) : Prop :=
  lexeme.token.Proper ∧
    ∃ taken, taken ≠ [] ∧ text = taken ++ after.rest ∧ Scans taken after.rest lexeme.token

section Kinds

variable {offset : Nat} {c : Char} {rest : List Char} {token : Token} {lexeme : Lexeme}
  {after : Cursor}

private theorem takes_single (proper : token.Proper)
    (read : single ⟨offset, c :: rest⟩ token = (.ok lexeme, after))
    (scans : ∀ offset more, scan ⟨offset, c :: more⟩ = single ⟨offset, c :: more⟩ token) :
    Takes (c :: rest) lexeme after := by
  cases read
  refine ⟨proper, [c], by simp, rfl, fun offset more _ => ?_⟩
  rw [List.singleton_append, scans]
  rfl

private theorem takes_pair {second : Char} {double : Token} (visible : second ∉ gaps)
    (proper : token.Proper) (proper' : double.Proper)
    (read : pair ⟨offset, c :: rest⟩ second double token = (.ok lexeme, after))
    (scans : ∀ offset more,
      scan ⟨offset, c :: more⟩ = pair ⟨offset, c :: more⟩ second double token) :
    Takes (c :: rest) lexeme after := by
  by_cases follows : rest.head? = some second
  · obtain ⟨tail, rfl⟩ := List.head?_eq_some_iff.mp follows
    simp only [pair, Cursor.advance, if_true] at read
    cases read
    refine ⟨proper', [c, second], by simp, rfl, fun offset more _ => ?_⟩
    rw [List.cons_append, List.singleton_append, scans]
    simp [pair, Cursor.advance, Cursor.accept, Text.byteLength, Nat.add_assoc]
  · have alone (offset : Nat) (more : List Char) (stops : more.head? ≠ some second) :
        pair ⟨offset, c :: more⟩ second double token
          = (.ok ⟨token, ⟨offset, offset + c.utf8Size⟩⟩, ⟨offset + c.utf8Size, more⟩) := by
      cases more with
      | nil => rfl
      | cons d tail =>
        have other : d ≠ second := by simpa using stops
        simp [pair, Cursor.advance, Cursor.accept, other]
    rw [alone offset rest follows] at read
    cases read
    refine ⟨proper, [c], by simp, rfl, fun offset more stands => ?_⟩
    rw [List.singleton_append, scans, alone offset more (stands.head?_ne visible follows)]
    rfl

private theorem takes_inequality (read : inequality ⟨offset, '!' :: rest⟩ = (.ok lexeme, after)) :
    Takes ('!' :: rest) lexeme after := by
  simp only [inequality, Cursor.advance] at read
  split at read
  next tail =>
    cases read
    exact ⟨by simp [Token.Proper], ['!', '='], by simp, rfl, fun offset more _ => rfl⟩
  next => cases read

private theorem stringBody_taken {text value : List Char}
    (read : stringBody offset text = (some value, after)) :
    ∃ taken, text = taken ++ after.rest ∧ ∀ offset more,
      stringBody offset (taken ++ more) = (some value, ⟨offset + Text.byteLength taken, more⟩) := by
  fun_induction stringBody offset text generalizing value with
  | case1 => simp at read
  | case2 offset rest =>
    cases read
    exact ⟨['"'], rfl, fun _ _ => rfl⟩
  | case3 => simp at read
  | case4 offset c rest value? after' body ih =>
    simp only [Prod.mk.injEq, Option.map_eq_some_iff] at read
    obtain ⟨⟨inner, rfl, rfl⟩, rfl⟩ := read
    obtain ⟨taken, rfl, again⟩ := ih body
    have backslash : ('\\').utf8Size = 1 := rfl
    refine ⟨'\\' :: c :: taken, rfl, fun offset more => ?_⟩
    simp [stringBody, again, Text.byteLength, backslash, Nat.add_assoc]
  | case5 offset c rest noQuote noEnd noEscape value? after' body ih =>
    simp only [Prod.mk.injEq, Option.map_eq_some_iff] at read
    obtain ⟨⟨inner, rfl, rfl⟩, rfl⟩ := read
    obtain ⟨taken, rfl, again⟩ := ih body
    have noBackslash : c ≠ '\\' := by
      intro backslash
      cases split : taken ++ after'.rest with
      | nil => exact noEnd backslash split
      | cons d tail => exact noEscape d tail backslash split
    refine ⟨c :: taken, rfl, fun offset more => ?_⟩
    simp [stringBody, noBackslash, again, Text.byteLength, Nat.add_assoc]

private theorem takes_string (read : string ⟨offset, '"' :: rest⟩ = (.ok lexeme, after)) :
    Takes ('"' :: rest) lexeme after := by
  simp only [string, Cursor.advance] at read
  split at read
  next value behind body =>
    cases read
    obtain ⟨taken, rfl, again⟩ := stringBody_taken body
    refine ⟨by simp [Token.Proper], '"' :: taken, by simp, rfl, fun offset more _ => ?_⟩
    rw [List.cons_append, scan_eq_token (by decide) (by decide)]
    show string _ = _
    simp [string, Cursor.advance, again, Cursor.accept, Text.byteLength, Nat.add_assoc]
  next => cases read

private theorem takes_word (start : isWordStart c = true)
    (read : word ⟨offset, c :: rest⟩ = (.ok lexeme, after)) : Takes (c :: rest) lexeme after := by
  have part : isWordPart c = true := by
    simp only [isWordStart, isWordPart, Char.isAlphanum, Bool.or_eq_true] at start ⊢
    tauto
  have plain : c ∉ special := not_mem_of_all (by decide) start
  cases read
  have parts : ∀ d ∈ (c :: rest).takeWhile isWordPart, isWordPart d = true :=
    fun d member => List.mem_takeWhile_imp member
  refine ⟨?_, (c :: rest).takeWhile isWordPart, by simp [part], ?_, fun offset more stands => ?_⟩
  · simp only [Token.Proper]
    split <;> simp
  · exact List.takeWhile_append_dropWhile.symm
  · have stops := stands.stops (p := isWordPart) (by decide) fun d first => not_of_head?_dropWhile first
    obtain ⟨taken, dropped⟩ := dropWhile_append parts stops offset
    have scanned : scan ⟨offset, (c :: rest).takeWhile isWordPart ++ more⟩
        = word ⟨offset, (c :: rest).takeWhile isWordPart ++ more⟩ := by
      rw [List.takeWhile_cons_of_pos part, List.cons_append, scan_plain plain, if_pos start]
    rw [scanned, word]
    simp only [taken, dropped]
    rfl

/-- A number with a point, before a text that does not start with a digit. -/
private theorem number_point {whole fraction more : List Char}
    (digits : ∀ d ∈ whole, Decimal.isDigit d = true)
    (digits' : ∀ d ∈ fraction, Decimal.isDigit d = true)
    (stops : ∀ d ∈ more.head?, Decimal.isDigit d = false) (offset : Nat) :
    let here : Cursor := ⟨offset, whole ++ '.' :: (fraction ++ more)⟩
    let behind : Cursor := ⟨offset + Text.byteLength (whole ++ '.' :: fraction), more⟩
    number here =
      if more.head? = some '.' then here.reject behind.advance .secondPoint
      else if whole.isEmpty && fraction.isEmpty then here.reject behind (.unrecognized '.')
      else here.accept behind (.float (Decimal.nearest (whole ++ fraction) (-fraction.length))) := by
  have point : ∀ d ∈ ('.' :: (fraction ++ more)).head?, Decimal.isDigit d = false := by simp; decide
  obtain ⟨taken, dropped⟩ := dropWhile_append digits point offset
  obtain ⟨taken', dropped'⟩ := dropWhile_append digits' stops
    (offset + Text.byteLength whole + ('.').utf8Size)
  have total : offset + Text.byteLength (whole ++ '.' :: fraction)
      = offset + Text.byteLength whole + ('.').utf8Size + Text.byteLength fraction := by
    simp [Text.byteLength, Nat.add_assoc]
  intro here behind
  simp only [here, behind, number, taken, dropped, Cursor.advance, taken', dropped', total]
  split
  next => simp
  next other =>
    have noPoint : more.head? ≠ some '.' := by
      intro first
      obtain ⟨tail, rfl⟩ := List.head?_eq_some_iff.mp first
      exact other tail rfl
    simp [noPoint]

/-- A number without a point, before a text that starts neither with a digit nor with a point. -/
private theorem number_whole {whole more : List Char}
    (digits : ∀ d ∈ whole, Decimal.isDigit d = true)
    (stops : ∀ d ∈ more.head?, Decimal.isDigit d = false) (noPoint : more.head? ≠ some '.')
    (offset : Nat) :
    let here : Cursor := ⟨offset, whole ++ more⟩
    let behind : Cursor := ⟨offset + Text.byteLength whole, more⟩
    number here =
      match Decimal.int64? (Decimal.natural whole) with
      | some value => here.accept behind (.int value)
      | none => here.reject behind .tooLarge := by
  obtain ⟨taken, dropped⟩ := dropWhile_append digits stops offset
  intro here behind
  simp only [here, behind, number, taken, dropped]
  split
  next => exact absurd rfl noPoint
  next => rfl

/-- A text is the digits at its front and what is behind them. -/
private theorem exists_digits (text : List Char) : ∃ whole behind, text = whole ++ behind ∧
    (∀ d ∈ whole, Decimal.isDigit d = true) ∧ ∀ d ∈ behind.head?, Decimal.isDigit d = false :=
  ⟨text.takeWhile Decimal.isDigit, text.dropWhile Decimal.isDigit,
    List.takeWhile_append_dropWhile.symm, fun _ => List.mem_takeWhile_imp,
    fun _ => not_of_head?_dropWhile⟩

private theorem takes_number (noWord : isWordStart c = false)
    (numeric : (Decimal.isDigit c || c == '.') = true)
    (read : number ⟨offset, c :: rest⟩ = (.ok lexeme, after)) : Takes (c :: rest) lexeme after := by
  have plain : c ∉ special :=
    not_mem_of_all (p := fun d => Decimal.isDigit d || d == '.') (by decide) numeric
  have scans {taken behind : List Char} (split : c :: rest = taken ++ behind) (some : taken ≠ [])
      (offset : Nat) (more : List Char) :
      scan ⟨offset, taken ++ more⟩ = number ⟨offset, taken ++ more⟩ := by
    obtain ⟨d, tail, rfl⟩ := List.exists_cons_of_ne_nil some
    obtain rfl : c = d := by simpa using congrArg List.head? split
    rw [List.cons_append, scan_plain plain, if_neg (by simp [noWord]), if_pos numeric]
  obtain ⟨whole, behind, text, digits, stops⟩ := exists_digits (c :: rest)
  by_cases point : behind.head? = some '.'
  · obtain ⟨tail, rfl⟩ := List.head?_eq_some_iff.mp point
    obtain ⟨fraction, behind, rfl, digits', stops'⟩ := exists_digits tail
    rw [text, number_point digits digits' stops'] at read
    split at read
    next => cases read
    next noPoint =>
      split at read
      next => cases read
      next some =>
        cases read
        have split : c :: rest = (whole ++ '.' :: fraction) ++ behind := by simp [text]
        refine ⟨by simp [Token.Proper], whole ++ '.' :: fraction, by simp, split,
          fun offset more stands => ?_⟩
        have noPoint' := stands.head?_ne (c := '.') (by decide) noPoint
        rw [scans split (by simp), List.append_assoc, List.cons_append,
          number_point digits digits' (stands.stops (by decide) stops'), if_neg noPoint', if_neg some]
        rfl
  · rw [text, number_whole digits stops point] at read
    split at read
    next value fits =>
      cases read
      -- The first character is a digit or a point, and it is no point.
      have some : whole ≠ [] := by
        rintro rfl
        rw [List.nil_append] at text
        have noDigit := stops c (by rw [← text]; rfl)
        rw [noDigit] at numeric
        exact point (by rw [← text]; simpa using numeric)
      refine ⟨by simp [Token.Proper], whole, some, text, fun offset more stands => ?_⟩
      have noPoint' := stands.head?_ne (c := '.') (by decide) point
      rw [scans text some, number_whole digits (stands.stops (by decide) stops) noPoint', fits]
      rfl
    next => cases read

/-- Where no separator stands, a token is taken off the front of the text. -/
theorem takes_of_token (visible : isSeparator c = false)
    (read : Lexer.token ⟨offset, c :: rest⟩ = (.ok lexeme, after)) :
    Takes (c :: rest) lexeme after := by
  simp only [Lexer.token] at read
  split at read
  case h_10 | h_11 | h_12 | h_13 =>
    exact takes_pair (by decide) (by decide) (by decide) read fun _ _ => rfl
  case h_14 => exact takes_inequality read
  case h_15 => exact takes_string read
  case h_16 =>
    rw [visible, if_neg Bool.false_ne_true] at read
    split at read
    next start => exact takes_word start read
    next noWord =>
      split at read
      next numeric => exact takes_number (by simpa using noWord) numeric read
      next => cases read
  all_goals exact takes_single (by decide) read fun _ _ => rfl

end Kinds

/-! ### One scan -/

/-- Over a character a run of separators goes on, behind a separator or not, or it ends there. -/
theorem separatorRun_cons (c : Char) (commented : Bool) :
    (∃ separates commented' : Bool, ∀ stop offset rest,
      separatorRun stop offset commented (c :: rest)
        = separatorRun (bif separates then offset + c.utf8Size else stop) (offset + c.utf8Size)
          commented' rest) ∨
    ∀ stop offset rest,
      separatorRun stop offset commented (c :: rest) = (stop, ⟨offset, c :: rest⟩) := by
  by_cases separator : (c == '\n' || (c == ';' && !commented)) = true
  · left
    exact ⟨true, false, fun stop offset rest => by simp [separatorRun, separator]⟩
  · by_cases comment : (commented || c == '#') = true
    · left
      exact ⟨false, true, fun stop offset rest => by simp [separatorRun, separator, comment]⟩
    · by_cases blank : isBlank c = true
      · left
        exact ⟨false, false, fun stop offset rest => by
          simp [separatorRun, separator, comment, blank]⟩
      · right
        intro stop offset rest
        simp [separatorRun, separator, comment, blank]

theorem reaches_separatorRun {stop stop' offset : Nat} {commented : Bool} {text : List Char}
    {after : Cursor} (run : separatorRun stop offset commented text = (stop', after)) :
    Cursor.Reaches ⟨offset, text⟩ after := by
  induction text generalizing stop offset commented with
  | nil =>
    cases run
    exact .refl _
  | cons c rest ih =>
    rcases separatorRun_cons c commented with ⟨separates, commented', goesOn⟩ | ends
    · rw [goesOn] at run
      exact (Cursor.reaches_cons offset c rest).trans (ih run)
    · rw [ends] at run
      cases run
      exact .refl _

theorem separatorRun_separator {c : Char} (separator : isSeparator c = true) (stop offset : Nat)
    (rest : List Char) : separatorRun stop offset false (c :: rest)
      = separatorRun (offset + c.utf8Size) (offset + c.utf8Size) false rest := by
  have stays : (c == '\n' || (c == ';' && !false)) = true := by simpa [isSeparator] using separator
  simp only [separatorRun, stays, if_true]

/-- What a scan that succeeds reads: behind the layout the text is at its end, or it starts with a
separator, or a token is taken off. -/
inductive ScanStep (cursor : Cursor) : Lexeme → Cursor → Prop
  | last (text : (skipLayout cursor).rest = []) :
      ScanStep cursor ⟨.endOfInput, .emptyAt (skipLayout cursor).offset⟩ (skipLayout cursor)
  | newline {stop : Nat} {after : Cursor}
      (separator : ∃ c ∈ (skipLayout cursor).rest.head?, isSeparator c = true)
      (run : separatorRun (skipLayout cursor).offset (skipLayout cursor).offset false
        (skipLayout cursor).rest = (stop, after)) :
      ScanStep cursor ⟨.newline, ⟨(skipLayout cursor).offset, stop⟩⟩ after
  | token {taken rest : List Char} {token : Token} (proper : token.Proper) (some : taken ≠ [])
      (text : (skipLayout cursor).rest = taken ++ rest) (scans : Scans taken rest token) :
      ScanStep cursor
        ⟨token, (skipLayout cursor).offset, (skipLayout cursor).offset + Text.byteLength taken⟩
        ⟨(skipLayout cursor).offset + Text.byteLength taken, rest⟩

private theorem token_separator {here : Cursor}
    (separator : ∃ c ∈ here.rest.head?, isSeparator c = true) :
    Lexer.token here = separators here := by
  obtain ⟨c, first, separator⟩ := separator
  obtain ⟨offset, text⟩ := here
  obtain ⟨rest, rfl⟩ := List.head?_eq_some_iff.mp first
  rcases isSeparator_iff.mp separator with rfl | rfl <;> rfl

section ScanStep

variable {cursor after : Cursor} {lexeme : Lexeme}

theorem scan_of_step (step : ScanStep cursor lexeme after) : scan cursor = (.ok lexeme, after) := by
  cases step with
  | last text =>
    rw [scan, Lexer.token, text]
    rfl
  | newline separator run =>
    rw [scan, token_separator separator, separators]
    simp only [run]
  | @token taken rest _ _ _ text scans =>
    have here : skipLayout cursor = ⟨(skipLayout cursor).offset, taken ++ rest⟩ := by rw [← text]
    rw [← scan_skipLayout, here, scans _ _ (.refl _)]

theorem step_of_scan (read : scan cursor = (.ok lexeme, after)) : ScanStep cursor lexeme after := by
  -- A scan has one result, so it is enough to give a step from the cursor.
  suffices step : ∃ lexeme after, ScanStep cursor lexeme after by
    obtain ⟨lexeme', after', step⟩ := step
    have same := (scan_of_step step).symm.trans read
    cases same
    exact step
  cases text : (skipLayout cursor).rest with
  | nil => exact ⟨_, _, .last text⟩
  | cons c rest =>
    by_cases separator : isSeparator c = true
    · exact ⟨_, _, .newline ⟨c, by simp [text], separator⟩ rfl⟩
    · have here : skipLayout cursor = ⟨(skipLayout cursor).offset, c :: rest⟩ := by rw [← text]
      rw [scan, here] at read
      obtain ⟨proper, taken, some, split, scans⟩ := takes_of_token (by simpa using separator) read
      exact ⟨_, _, .token proper some (text.trans split) scans⟩

theorem ScanStep.reaches (step : ScanStep cursor lexeme after) : cursor.Reaches after := by
  refine (reaches_skipLayout cursor).trans ?_
  cases step with
  | last => exact .refl _
  | newline _ run => exact reaches_separatorRun run
  | token _ _ text => exact ⟨_, text, rfl⟩

/-- What stands behind a token is shorter than what stands before it. -/
theorem ScanStep.length_lt (step : ScanStep cursor lexeme after)
    (more : lexeme.token ≠ .endOfInput) : after.rest.length < cursor.rest.length := by
  have skipped := (reaches_skipLayout cursor).length_le
  suffices after.rest.length < (skipLayout cursor).rest.length by omega
  cases step with
  | last => exact absurd rfl more
  | newline separator run =>
    obtain ⟨c, first, separator⟩ := separator
    obtain ⟨rest, text⟩ := List.head?_eq_some_iff.mp first
    rw [text, separatorRun_separator separator] at run
    have reached := (reaches_separatorRun run).length_le
    simpa [text] using Nat.lt_succ_of_le reached
  | token _ some text =>
    have positive := List.length_pos_of_ne_nil some
    simp only [text, List.length_append]
    omega

end ScanStep

/-! ### Reading to the end -/

/-- The tokens from a cursor to the end of the text. -/
inductive Lexed : Cursor → List Lexeme → Prop
  | last {cursor after : Cursor} {lexeme : Lexeme} (step : ScanStep cursor lexeme after)
      (ends : lexeme.token = .endOfInput) : Lexed cursor [lexeme]
  | next {cursor after : Cursor} {lexeme : Lexeme} {lexemes : List Lexeme}
      (step : ScanStep cursor lexeme after) (more : lexeme.token ≠ .endOfInput)
      (rest : Lexed after lexemes) : Lexed cursor (lexeme :: lexemes)

theorem lexFrom_eq_ok_iff {budget : Nat} {cursor : Cursor} {lexemes : List Lexeme}
    (enough : cursor.rest.length ≤ budget) :
    lexFrom budget cursor = .ok lexemes ↔ Lexed cursor lexemes := by
  constructor
  · intro read
    induction budget generalizing cursor lexemes with
    | zero =>
      obtain ⟨offset, text⟩ := cursor
      obtain rfl := List.length_eq_zero_iff.mp (Nat.le_zero.mp enough)
      cases read
      exact .last (.last rfl) rfl
    | succ budget ih =>
      simp only [lexFrom] at read
      split at read
      next => cases read
      next lexeme after scanned =>
        have step := step_of_scan scanned
        split at read
        next ends =>
          cases read
          exact .last step ends
        next more =>
          have shorter := step.length_lt more
          cases others : lexFrom budget after with
          | error => simp [others, Except.map] at read
          | ok =>
            rw [others] at read
            cases read
            exact .next step more (ih (by omega) others)
  · intro lexed
    induction lexed generalizing budget with
    | @last cursor _ _ step ends =>
      have scanned := scan_of_step step
      cases budget with
      | zero =>
        obtain ⟨offset, text⟩ := cursor
        obtain rfl := List.length_eq_zero_iff.mp (Nat.le_zero.mp enough)
        cases scanned
        rfl
      | succ budget => simp only [lexFrom, scanned, ends, if_true]
    | next step more _ ih =>
      have shorter := step.length_lt more
      obtain ⟨budget, rfl⟩ := Nat.exists_eq_add_of_le' (Nat.one_le_of_lt (shorter.trans_le enough))
      have others := @ih budget (by omega)
      simp only [lexFrom, scan_of_step step, more, if_false, others]
      rfl

theorem lex_eq_ok_iff {source : String} {lexemes : List Lexeme} :
    lex source = .ok lexemes ↔ Lexed (.start source) lexemes :=
  lexFrom_eq_ok_iff (Nat.le_of_eq String.length_toList)

end Primer
