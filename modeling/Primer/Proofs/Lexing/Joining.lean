import Primer.Proofs.Lexing.Scanning
import Primer.Proofs.Program.Shift

/-!
# Reading one source behind another

Tokens do not depend on where a text stands, except for their spans. And a line feed ends every token
and every comment, so a text that is read to its end is read in the same way with a line feed and
another text behind it. What is read at the seam is one newline: separators on both sides of the line
feed belong to the same run.
-/

namespace Primer

open Lexer

/-! ### Further down -/

namespace Cursor

/-- The cursor before the same text further down. -/
def shift (offset : Nat) (cursor : Cursor) : Cursor :=
  ⟨cursor.offset + offset, cursor.rest⟩

variable (offset : Nat)

theorem dropWhile_shift (p : Char → Bool) (cursor : Cursor) :
    (cursor.shift offset).dropWhile p = (cursor.dropWhile p).shift offset := by
  simp [dropWhile, shift, Nat.add_right_comm]

end Cursor

theorem skipLayout_shift (offset : Nat) (cursor : Cursor) :
    skipLayout (cursor.shift offset) = (skipLayout cursor).shift offset := by
  simp only [skipLayout_eq, Cursor.dropWhile_shift]
  -- Whether a comment follows depends on the text alone.
  rw [apply_ite (Cursor.shift offset)]
  rfl

theorem separatorRun_shift (offset : Nat) {stop stop' start : Nat} {commented : Bool}
    {text : List Char} {after : Cursor}
    (run : separatorRun stop start commented text = (stop', after)) :
    separatorRun (stop + offset) (start + offset) commented text
      = (stop' + offset, after.shift offset) := by
  induction text generalizing stop start commented with
  | nil =>
    cases run
    rfl
  | cons c rest ih =>
    rcases separatorRun_cons c commented with ⟨separates, commented', goesOn⟩ | ends
    · rw [goesOn] at run ⊢
      have next : start + offset + c.utf8Size = start + c.utf8Size + offset := by omega
      rw [← ih run, next]
      cases separates <;> rfl
    · rw [ends] at run ⊢
      cases run
      rfl

theorem ScanStep.shift (offset : Nat) {cursor after : Cursor} {lexeme : Lexeme}
    (step : ScanStep cursor lexeme after) :
    ScanStep (cursor.shift offset) (lexeme.shift offset) (after.shift offset) := by
  have layout := skipLayout_shift offset cursor
  cases step with
  | last text =>
    have moved := @ScanStep.last (cursor.shift offset) (by rw [layout]; exact text)
    rw [layout] at moved
    exact moved
  | @newline stop _ separator run =>
    have moved := @ScanStep.newline (cursor.shift offset) (stop + offset) (after.shift offset)
      (by rw [layout]; exact separator) (by rw [layout]; exact separatorRun_shift offset run)
    rw [layout] at moved
    exact moved
  | token proper some text scans =>
    have moved := @ScanStep.token (cursor.shift offset) _ _ _ proper some
      (by rw [layout]; exact text) scans
    rw [layout] at moved
    simpa [Cursor.shift, Lexeme.shift, Span.shift, Nat.add_right_comm] using moved

theorem Lexed.shift (offset : Nat) {cursor : Cursor} {lexemes : List Lexeme}
    (lexed : Lexed cursor lexemes) :
    Lexed (cursor.shift offset) (lexemes.map (Lexeme.shift offset)) := by
  induction lexed with
  | last step ends => exact .last (step.shift offset) ends
  | next step more _ ih => exact .next (step.shift offset) more ih

/-! ### Past the newlines at the front -/

/-- The cursor behind separators and the layout around them. -/
def gap (cursor : Cursor) : Cursor :=
  (separatorRun cursor.offset cursor.offset false cursor.rest).2

section Gap

/-- Where a run ends does not depend on the last separator before it. -/
theorem separatorRun_cursor (stop stop' offset : Nat) (commented : Bool) (text : List Char) :
    (separatorRun stop offset commented text).2 = (separatorRun stop' offset commented text).2 := by
  induction text generalizing stop stop' offset commented with
  | nil => rfl
  | cons c rest ih =>
    rcases separatorRun_cons c commented with ⟨separates, commented', goesOn⟩ | ends
    · rw [goesOn, goesOn]
      exact ih _ _ _ _
    · rw [ends, ends]

theorem separatorRun_blanks {blanks : List Char} (all : ∀ c ∈ blanks, isBlank c = true)
    (stop offset : Nat) (rest : List Char) :
    separatorRun stop offset false (blanks ++ rest)
      = separatorRun stop (offset + Text.byteLength blanks) false rest := by
  induction blanks generalizing offset with
  | nil => rfl
  | cons c blanks ih =>
    obtain ⟨blank, others⟩ := List.forall_mem_cons.mp all
    have passed : separatorRun stop offset false (c :: (blanks ++ rest))
        = separatorRun stop (offset + c.utf8Size) false (blanks ++ rest) := by
      rcases isBlank_iff.mp blank with rfl | rfl | rfl | rfl <;> rfl
    rw [List.cons_append, passed, ih others, Text.byteLength, Nat.add_assoc]

theorem separatorRun_comment {line rest : List Char} (all : ∀ c ∈ line, (c != '\n') = true)
    (ends : ∀ c ∈ rest.head?, (c != '\n') = false) (stop offset : Nat) :
    separatorRun stop offset true (line ++ rest)
      = separatorRun stop (offset + Text.byteLength line) false rest := by
  induction line generalizing offset with
  | nil =>
    cases rest with
    | nil => rfl
    | cons c rest =>
      obtain rfl : c = '\n' := by simpa using ends c rfl
      rfl
  | cons c line ih =>
    obtain ⟨inside, others⟩ := List.forall_mem_cons.mp all
    have noFeed : c ≠ '\n' := by simpa using inside
    have passed : separatorRun stop offset true (c :: (line ++ rest))
        = separatorRun stop (offset + c.utf8Size) true (line ++ rest) := by
      simp [separatorRun, noFeed]
    rw [List.cons_append, passed, ih others, Text.byteLength, Nat.add_assoc]

private theorem gap_of_run {offset offset' : Nat} {text rest : List Char}
    (run : ∀ stop, separatorRun stop offset false text = separatorRun stop offset' false rest) :
    gap ⟨offset, text⟩ = gap ⟨offset', rest⟩ := by
  rw [gap, gap, run]
  exact separatorRun_cursor _ _ _ _ _

/-- Layout belongs to the run of separators behind it. -/
theorem gap_skipLayout (cursor : Cursor) : gap (skipLayout cursor) = gap cursor := by
  have blanks : gap cursor = gap (cursor.dropWhile isBlank) := by
    obtain ⟨offset, text⟩ := cursor
    refine gap_of_run fun stop => ?_
    conv_lhs => rw [← List.takeWhile_append_dropWhile (p := isBlank) (l := text)]
    exact separatorRun_blanks (fun _ => List.mem_takeWhile_imp) stop offset _
  rw [blanks, skipLayout_eq]
  generalize cursor.dropWhile isBlank = here
  dsimp only
  split
  next comment =>
    obtain ⟨offset, text⟩ := here
    obtain ⟨tail, rfl⟩ := List.head?_eq_some_iff.mp comment
    refine (gap_of_run fun stop => ?_).symm
    show separatorRun stop (offset + 1) true tail = _
    conv_lhs => rw [← List.takeWhile_append_dropWhile (p := (· != '\n')) (l := tail)]
    rw [separatorRun_comment (fun _ => List.mem_takeWhile_imp) (fun _ => not_of_head?_dropWhile)]
    have sharp : ('#').utf8Size = 1 := rfl
    simp [Text.byteLength, sharp, Nat.add_assoc]
  next => rfl

/-- A run of separators is read as one newline. -/
theorem exists_newline {cursor : Cursor}
    (separator : ∃ c ∈ (skipLayout cursor).rest.head?, isSeparator c = true) :
    ∃ newline : Lexeme, newline.token = .newline ∧ ScanStep cursor newline (gap cursor) := by
  rw [← gap_skipLayout]
  exact ⟨_, rfl, .newline separator rfl⟩

/-- Without a separator there is nothing but layout to go over. -/
theorem gap_of_visible {cursor : Cursor}
    (visible : ¬ ∃ c ∈ (skipLayout cursor).rest.head?, isSeparator c = true) :
    gap cursor = skipLayout cursor := by
  have stops := skipLayout_stops cursor
  rw [← gap_skipLayout]
  generalize skipLayout cursor = here at visible stops ⊢
  obtain ⟨offset, text⟩ := here
  cases text with
  | nil => rfl
  | cons c rest =>
    obtain ⟨noBlank, noComment⟩ := stops c rfl
    have noSeparator : c ≠ '\n' ∧ c ≠ ';' := by simpa [isSeparator] using visible
    simp [gap, separatorRun, noSeparator, noBlank, noComment]

/-- Behind the layout at the front of a text the same tokens are read. -/
theorem Lexed.skipped {cursor : Cursor} {lexemes : List Lexeme} (lexed : Lexed cursor lexemes) :
    Lexed (skipLayout cursor) lexemes := by
  have skips {lexeme after} (step : ScanStep cursor lexeme after) :
      ScanStep (skipLayout cursor) lexeme after :=
    step_of_scan ((scan_skipLayout cursor).trans (scan_of_step step))
  cases lexed with
  | last step ends => exact .last (skips step) ends
  | next step more rest => exact .next (skips step) more rest

/-- Behind the separators at the front of a text the same tokens are read, but for the newline. -/
theorem Lexed.behind_gap {cursor : Cursor} {lexemes : List Lexeme} (lexed : Lexed cursor lexemes) :
    ∃ newlines others, lexemes = newlines ++ others ∧
      (∀ lexeme ∈ newlines, lexeme.token = .newline) ∧ Lexed (gap cursor) others := by
  by_cases separator : ∃ c ∈ (skipLayout cursor).rest.head?, isSeparator c = true
  · obtain ⟨newline, isNewline, first⟩ := exists_newline separator
    cases lexed with
    | last step ends =>
      have same := (scan_of_step first).symm.trans (scan_of_step step)
      cases same
      rw [isNewline] at ends
      cases ends
    | next step more rest =>
      have same := (scan_of_step first).symm.trans (scan_of_step step)
      cases same
      exact ⟨[newline], _, rfl, by simpa using isNewline, rest⟩
  · rw [gap_of_visible separator]
    exact ⟨[], lexemes, rfl, nofun, lexed.skipped⟩

end Gap

/-! ### In front of a line feed -/

namespace Cursor

/-- The cursor before the text with more text behind it. -/
def append (cursor : Cursor) (more : List Char) : Cursor :=
  ⟨cursor.offset, cursor.rest ++ more⟩

theorem dropWhile_append {p : Char → Bool} {c : Char} (stops : p c = false) (cursor : Cursor)
    (more : List Char) :
    (cursor.append (c :: more)).dropWhile p = (cursor.dropWhile p).append (c :: more) := by
  obtain ⟨offset, text⟩ := cursor
  have taken : (text ++ c :: more).takeWhile p = text.takeWhile p := by
    induction text with
    | nil => simp [stops]
    | cons d text ih => cases holds : p d <;> simp [holds, ih]
  have dropped : (text ++ c :: more).dropWhile p = text.dropWhile p ++ c :: more := by
    induction text with
    | nil => simp [stops]
    | cons d text ih => cases holds : p d <;> simp_all
  simp only [dropWhile, append, taken, dropped]

end Cursor

theorem skipLayout_append (cursor : Cursor) (more : List Char) :
    skipLayout (cursor.append ('\n' :: more)) = (skipLayout cursor).append ('\n' :: more) := by
  rw [skipLayout_eq, skipLayout_eq, Cursor.dropWhile_append (by decide : isBlank '\n' = false)]
  generalize cursor.dropWhile isBlank = here
  -- A line feed neither starts a comment nor belongs to one.
  have comment : (here.append ('\n' :: more)).rest.head? = some '#' ↔ here.rest.head? = some '#' := by
    obtain ⟨offset, text⟩ := here
    cases text <;> simp [Cursor.append]
  have line : ('\n' != '\n') = false := by decide
  simp only [comment, Cursor.dropWhile_append (p := (· != '\n')) line]
  rw [← apply_ite (Cursor.append · ('\n' :: more))]

section Append

variable {stop stop' offset : Nat} {commented : Bool} {text : List Char} {after : Cursor}

/-- A run that ends in the text is the same with more text behind it. -/
theorem separatorRun_append_of_ne_nil
    (run : separatorRun stop offset commented text = (stop', after)) (inside : after.rest ≠ [])
    (more : List Char) :
    separatorRun stop offset commented (text ++ more) = (stop', after.append more) := by
  induction text generalizing stop offset commented with
  | nil =>
    cases run
    exact absurd rfl inside
  | cons c rest ih =>
    rcases separatorRun_cons c commented with ⟨separates, commented', goesOn⟩ | ends
    · rw [goesOn] at run
      rw [List.cons_append, goesOn, ih run]
    · rw [ends] at run
      rw [List.cons_append, ends]
      cases run
      rfl

/-- A run that takes up all the text goes on over a line feed. -/
theorem separatorRun_append_newline
    (run : separatorRun stop offset commented text = (stop', after)) (outside : after.rest = [])
    (more : List Char) :
    separatorRun stop offset commented (text ++ '\n' :: more)
      = separatorRun (after.offset + 1) (after.offset + 1) false more := by
  induction text generalizing stop offset commented with
  | nil =>
    cases run
    rfl
  | cons c rest ih =>
    rcases separatorRun_cons c commented with ⟨separates, commented', goesOn⟩ | ends
    · rw [goesOn] at run
      rw [List.cons_append, goesOn, ih run]
    · rw [ends] at run
      cases run
      exact absurd outside (List.cons_ne_nil _ _)

/-- Where the separators before a line feed take up all the text, those behind it follow. -/
theorem gap_append {cursor : Cursor} (outside : (gap cursor).rest = []) (more : List Char) :
    gap (cursor.append ('\n' :: more))
      = gap ⟨cursor.offset + Text.byteLength cursor.rest + 1, more⟩ := by
  rcases run : separatorRun cursor.offset cursor.offset false cursor.rest with ⟨stop, after⟩
  simp only [gap, run] at outside
  have total := (reaches_separatorRun run).total
  simp only [outside, Text.byteLength, Nat.add_zero] at total
  rw [gap, Cursor.append, separatorRun_append_newline run outside, total]
  rfl

end Append

/-- The tokens at the end of a source: the end of input, and a newline before it if there is one. -/
def Closing (tail : List Lexeme) : Prop :=
  ∃ last, last.token = .endOfInput ∧
    (tail = [last] ∨ ∃ newline, newline.token = .newline ∧ tail = [newline, last])

theorem Scans.newline {taken rest : List Char} {token : Token} (scans : Scans taken rest token)
    (more : List Char) : Scans taken (rest ++ '\n' :: more) token := by
  apply scans.before
  cases rest with
  | nil =>
    -- A line feed does not go on with the token either.
    right
    rintro c ⟨⟩
    decide
  | cons d rest => exact .inl rfl

private theorem separator_append {cursor : Cursor}
    (separator : ∃ c ∈ (skipLayout cursor).rest.head?, isSeparator c = true) (more : List Char) :
    ∃ c ∈ (skipLayout (cursor.append ('\n' :: more))).rest.head?, isSeparator c = true := by
  obtain ⟨c, first, separator⟩ := separator
  refine ⟨c, ?_, separator⟩
  rw [skipLayout_append, Cursor.append, List.head?_append, Option.mem_def.mp first]
  rfl

theorem ScanStep.separator {cursor after : Cursor} {lexeme : Lexeme}
    (step : ScanStep cursor lexeme after) (isNewline : lexeme.token = .newline) :
    (∃ c ∈ (skipLayout cursor).rest.head?, isSeparator c = true) ∧ after = gap cursor := by
  cases step with
  | last => cases isNewline
  | newline separator run => exact ⟨separator, by rw [← gap_skipLayout, gap, run]⟩
  | token proper => exact absurd isNewline proper.1

/-- A step that does not end at the seam is taken with more text behind it as well. -/
theorem ScanStep.append {cursor after : Cursor} {lexeme : Lexeme}
    (step : ScanStep cursor lexeme after) (proper : lexeme.token ≠ .endOfInput)
    (inside : lexeme.token = .newline → after.rest ≠ []) (more : List Char) :
    ScanStep (cursor.append ('\n' :: more)) lexeme (after.append ('\n' :: more)) := by
  have layout := skipLayout_append cursor more
  cases step with
  | last => exact absurd rfl proper
  | newline separator run =>
    have longer := @ScanStep.newline (cursor.append ('\n' :: more)) _ (after.append ('\n' :: more))
      (separator_append separator more)
      (by rw [layout]; exact separatorRun_append_of_ne_nil run (inside rfl) _)
    rwa [layout] at longer
  | @token taken rest _ visible some text scans =>
    have longer := @ScanStep.token (cursor.append ('\n' :: more)) taken (rest ++ '\n' :: more) _
      visible some (by rw [layout, Cursor.append, text, List.append_assoc]) (scans.newline more)
    rwa [layout] at longer

theorem Lexed.of_nil {cursor : Cursor} {lexemes : List Lexeme} (lexed : Lexed cursor lexemes)
    (text : cursor.rest = []) : ∃ last, last.token = .endOfInput ∧ lexemes = [last] := by
  cases lexed with
  | last step ends => exact ⟨_, ends, rfl⟩
  | next step more _ =>
    have shorter := step.length_lt more
    simp [text] at shorter

/-- A text that is read to its end, with a line feed and another text behind it: at the seam stands
one newline, and then comes what is read behind the separators at the front of the other text. -/
theorem Lexed.join {cursor : Cursor} {lexemes : List Lexeme} (lexed : Lexed cursor lexemes) :
    ∃ front tail, lexemes = front ++ tail ∧ (∀ lexeme ∈ front, lexeme.token ≠ .endOfInput) ∧
      Closing tail ∧ ∀ more behind,
        Lexed (gap ⟨cursor.offset + Text.byteLength cursor.rest + 1, more⟩) behind →
        ∃ newline, newline.token = .newline ∧
          Lexed (cursor.append ('\n' :: more)) (front ++ newline :: behind) := by
  induction lexed with
  | @last cursor after lexeme step ends =>
    refine ⟨[], [lexeme], rfl, nofun, ⟨lexeme, ends, .inl rfl⟩, fun more behind read => ?_⟩
    have text : (skipLayout cursor).rest = [] := by
      cases step with
      | last text => exact text
      | newline => cases ends
      | token proper => exact absurd ends proper.2
    have outside : (gap cursor).rest = [] := by
      rw [gap_of_visible (by simp [text])]
      exact text
    obtain ⟨newline, isNewline, first⟩ := @exists_newline (cursor.append ('\n' :: more))
      ⟨'\n', by rw [skipLayout_append, Cursor.append, text]; rfl, rfl⟩
    rw [gap_append outside] at first
    exact ⟨newline, isNewline, .next first (by simp [isNewline]) read⟩
  | @next cursor after lexeme lexemes step more rest ih =>
    by_cases outside : lexeme.token = .newline ∧ after.rest = []
    · -- The separators at the end of the text and those behind the line feed are one run.
      obtain ⟨isNewline, outside⟩ := outside
      obtain ⟨last, ends, rfl⟩ := rest.of_nil outside
      refine ⟨[], [lexeme, last], rfl, nofun, ⟨last, ends, .inr ⟨lexeme, isNewline, rfl⟩⟩,
        fun text behind read => ?_⟩
      obtain ⟨separator, rfl⟩ := step.separator isNewline
      obtain ⟨newline, isNewline, first⟩ := exists_newline (separator_append separator text)
      rw [gap_append outside] at first
      exact ⟨newline, isNewline, .next first (by simp [isNewline]) read⟩
    · obtain ⟨front, tail, rfl, proper, closing, joins⟩ := ih
      refine ⟨lexeme :: front, tail, rfl, List.forall_mem_cons.mpr ⟨more, proper⟩, closing,
        fun text behind read => ?_⟩
      rw [← step.reaches.total] at read
      obtain ⟨newline, isNewline, others⟩ := joins text behind read
      have first := step.append more (fun isNewline none => outside ⟨isNewline, none⟩) text
      exact ⟨newline, isNewline, .next first more others⟩

/-- The tokens of a source behind another and a line feed: those of the first, one newline, and those of
the second, moved behind, from the first that is no newline. -/
theorem lex_join {first second : String} {lexemes lexemes' : List Lexeme}
    (read : lex first = .ok lexemes) (read' : lex second = .ok lexemes') :
    ∃ front tail newline newlines others, lexemes = front ++ tail ∧
      (∀ lexeme ∈ front, lexeme.token ≠ .endOfInput) ∧ Closing tail ∧
      newline.token = .newline ∧
      lexemes'.map (Lexeme.shift (Text.byteLength first.toList + 1)) = newlines ++ others ∧
      (∀ lexeme ∈ newlines, lexeme.token = .newline) ∧
      lex (first ++ "\n" ++ second) = .ok (front ++ newline :: others) := by
  rw [lex_eq_ok_iff] at read read'
  have moved := read'.shift (Text.byteLength first.toList + 1)
  obtain ⟨newlines, others, split, isNewline, behind⟩ := moved.behind_gap
  obtain ⟨front, tail, rfl, proper, closing, joins⟩ := read.join
  obtain ⟨newline, atSeam, joined⟩ := joins second.toList others behind
  refine ⟨front, tail, newline, newlines, others, rfl, proper, closing, atSeam, split, isNewline, ?_⟩
  rw [lex_eq_ok_iff]
  simpa [Cursor.start, Cursor.append] using joined

end Primer
