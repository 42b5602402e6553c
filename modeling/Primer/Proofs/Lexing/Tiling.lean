import Primer.Proofs.Lexing.Scanning

/-!
# Reading on behind errors

A scan that gives an error leaves a cursor from which reading goes on, so the scans from the start of
a source never end: they give tokens and errors, and then the end of input for ever after.

## Main result

`scans_tile_source`: what is read before the end of input tiles the source. The spans are non-empty,
lie one behind the other and end on character boundaries, and between them stands nothing but layout.

## Proof strategy

Each routine of the lexer reads from where it starts to a cursor further on, whether it gives a token
or an error (`covers_token`). Only a run of separators leaves a cursor behind the end of its span, and
what lies between is layout (`separatorRun_layout`). So a scan keeps the invariant `Resumes`: between
the end of the last span and the cursor stands layout. The rest is an induction over the scans.
-/

namespace Primer

open Lexer

/-! ### Results and layout -/

namespace Scanned

/-- Where something was read, be it a token or an error. -/
def span : Scanned → Span
  | .ok lexeme => lexeme.span
  | .error error => error.span

def IsNewline (scanned : Scanned) : Prop :=
  ∃ span, scanned = .ok ⟨.newline, span⟩

end Scanned

/-- The text, with the other text behind it, is made of blanks and at most one comment, which goes up
to a line feed or to the end. -/
inductive Layout : (text behind : List Char) → Prop
  | none (behind : List Char) : Layout [] behind
  | blank {c : Char} {text behind : List Char} (blank : isBlank c = true)
      (rest : Layout text behind) : Layout (c :: text) behind
  | comment {line behind : List Char} (inside : '\n' ∉ line)
      (ends : ∀ c ∈ behind.head?, c = '\n') : Layout ('#' :: line) behind

namespace Layout

variable {first second behind : List Char}

theorem blanks (all : ∀ c ∈ first, isBlank c = true) (rest : Layout second behind) :
    Layout (first ++ second) behind := by
  induction first with
  | nil => exact rest
  | cons c first ih =>
    obtain ⟨blank, others⟩ := List.forall_mem_cons.mp all
    exact .blank blank (ih others)

/-- Layout behind layout is layout: behind a comment there is no more of it. -/
theorem append (before : Layout first (second ++ behind)) (after : Layout second behind) :
    Layout (first ++ second) behind := by
  induction first with
  | nil => exact after
  | cons c first ih =>
    cases before with
    | blank blank rest => exact .blank blank (ih rest)
    | comment inside ends =>
      cases after with
      | none =>
        rw [List.append_nil]
        exact .comment inside ends
      | @blank d _ _ isBlank rest =>
        obtain rfl : d = '\n' := ends d rfl
        exact absurd isBlank (by decide)
      | comment => exact absurd (ends '#' rfl) (by decide)

end Layout

namespace Cursor

/-- Nothing but layout stands between two cursors. -/
def Skips (cursor after : Cursor) : Prop :=
  ∃ skipped, cursor.rest = skipped ++ after.rest ∧
    after.offset = cursor.offset + Text.byteLength skipped ∧ Layout skipped after.rest

/-- Some text stands between two cursors. -/
def Passes (cursor after : Cursor) : Prop :=
  cursor.Reaches after ∧ cursor.offset < after.offset

variable {cursor between after : Cursor}

theorem Skips.refl (cursor : Cursor) : cursor.Skips cursor :=
  ⟨[], by simp [Text.byteLength, Layout.none]⟩

theorem Skips.trans (first : cursor.Skips between) (second : between.Skips after) :
    cursor.Skips after := by
  obtain ⟨skipped, text, offset, layout⟩ := first
  obtain ⟨skipped', text', offset', layout'⟩ := second
  refine ⟨skipped ++ skipped', by simp [text, text'], ?_, (text' ▸ layout).append layout'⟩
  simp [offset, offset', Nat.add_assoc]

theorem Skips.reaches (skips : cursor.Skips after) : cursor.Reaches after := by
  obtain ⟨skipped, text, offset, -⟩ := skips
  exact ⟨skipped, text, offset⟩

theorem Reaches.offset_le (reaches : cursor.Reaches after) : cursor.offset ≤ after.offset := by
  obtain ⟨taken, -, offset⟩ := reaches
  omega

theorem Passes.trans (first : cursor.Passes between) (second : between.Reaches after) :
    cursor.Passes after :=
  ⟨first.1.trans second, first.2.trans_le second.offset_le⟩

theorem Reaches.passes (first : cursor.Reaches between) (second : between.Passes after) :
    cursor.Passes after :=
  ⟨first.trans second.1, first.offset_le.trans_lt second.2⟩

theorem Passes.length_lt (passes : cursor.Passes after) :
    after.rest.length < cursor.rest.length := by
  obtain ⟨⟨taken, text, offset⟩, further⟩ := passes
  cases taken with
  | nil => simp [offset, Text.byteLength] at further
  | cons c taken => simp [text]

theorem passes_advance {c : Char} {rest : List Char} (text : cursor.rest = c :: rest) :
    cursor.Passes cursor.advance := by
  have positive := c.utf8Size_pos
  obtain ⟨offset, _⟩ := cursor
  subst text
  exact ⟨reaches_cons offset c rest, by simp [advance, positive]⟩

theorem passes_dropWhile {p : Char → Bool} {c : Char} {rest : List Char}
    (text : cursor.rest = c :: rest) (holds : p c = true) : cursor.Passes (cursor.dropWhile p) := by
  have positive := c.utf8Size_pos
  refine ⟨reaches_dropWhile p cursor, ?_⟩
  simp only [dropWhile, text, List.takeWhile_cons, holds, if_true, Text.byteLength]
  omega

end Cursor

theorem skips_skipLayout (cursor : Cursor) : cursor.Skips (skipLayout cursor) := by
  have blanks : cursor.Skips (cursor.dropWhile isBlank) := by
    have all : ∀ c ∈ cursor.rest.takeWhile isBlank, isBlank c = true :=
      fun c member => List.mem_takeWhile_imp member
    refine ⟨cursor.rest.takeWhile isBlank, ?_, rfl, ?_⟩
    · exact List.takeWhile_append_dropWhile.symm
    · simpa using Layout.blanks all (.none (cursor.dropWhile isBlank).rest)
  rw [skipLayout_eq]
  dsimp only
  split
  · next comment =>
    refine blanks.trans ?_
    generalize cursor.dropWhile isBlank = here at comment ⊢
    obtain ⟨line, text⟩ := List.head?_eq_some_iff.mp comment
    have inside : '\n' ∉ line.takeWhile (· != '\n') :=
      fun member => by simpa using List.mem_takeWhile_imp member
    have taken : here.rest.takeWhile (· != '\n') = '#' :: line.takeWhile (· != '\n') := by
      rw [text]
      rfl
    refine ⟨here.rest.takeWhile (· != '\n'), ?_, rfl, ?_⟩
    · exact List.takeWhile_append_dropWhile.symm
    · rw [taken]
      refine .comment inside fun c first => ?_
      have stops := not_of_head?_dropWhile (p := (· != '\n')) first
      simpa using stops
  · exact blanks

/-! ### One scan, a token or an error -/

/-- What was read is the text between two cursors. -/
structure Cursor.Covers (here : Cursor) (read : Scanned × Cursor) : Prop where
  span : read.1.span = ⟨here.offset, read.2.offset⟩
  passes : here.Passes read.2

section Kinds

variable {here after : Cursor} {c : Char} {rest : List Char}

theorem covers_accept (passes : here.Passes after) (token : Token) :
    here.Covers (here.accept after token) :=
  ⟨rfl, passes⟩

theorem covers_reject (passes : here.Passes after) (fault : LexicalFault) :
    here.Covers (here.reject after fault) :=
  ⟨rfl, passes⟩

private theorem covers_single (text : here.rest = c :: rest) (token : Token) :
    here.Covers (single here token) :=
  covers_accept (Cursor.passes_advance text) token

private theorem covers_pair (text : here.rest = c :: rest) (second : Char) (double alone : Token) :
    here.Covers (pair here second double alone) := by
  have first := Cursor.passes_advance text
  simp only [pair]
  split
  next follows =>
    split
    · exact covers_accept (first.trans (Cursor.passes_advance follows).1) double
    · exact covers_accept first alone
  next => exact covers_accept first alone

private theorem covers_inequality (text : here.rest = c :: rest) : here.Covers (inequality here) := by
  have first := Cursor.passes_advance text
  simp only [inequality]
  split
  next follows => exact covers_accept (first.trans (Cursor.passes_advance follows).1) _
  next => exact covers_reject first _

private theorem reaches_stringBody (offset : Nat) (text : List Char) :
    Cursor.Reaches ⟨offset, text⟩ (stringBody offset text).2 := by
  fun_induction stringBody offset text with
  | case1 => exact .refl _
  | case2 offset rest => exact Cursor.reaches_cons offset _ rest
  | case3 offset => exact Cursor.reaches_cons offset _ []
  | case4 offset c rest value after body ih =>
    rw [body] at ih
    have backslash := Cursor.reaches_cons offset '\\' (c :: rest)
    exact (backslash.trans (Cursor.reaches_cons _ c rest)).trans ih
  | case5 offset c rest _ _ _ value after body ih =>
    rw [body] at ih
    exact (Cursor.reaches_cons offset c rest).trans ih

private theorem covers_string (text : here.rest = c :: rest) : here.Covers (string here) := by
  have quote := Cursor.passes_advance text
  have body := reaches_stringBody here.advance.offset here.advance.rest
  simp only [string]
  split
  next read =>
    rw [read] at body
    exact covers_accept (quote.trans body) _
  next read =>
    rw [read] at body
    exact covers_reject (quote.trans body) _

private theorem covers_word (text : here.rest = c :: rest) (start : isWordStart c = true) :
    here.Covers (word here) := by
  have part : isWordPart c = true := by
    simp only [isWordStart, isWordPart, Char.isAlphanum, Bool.or_eq_true] at start ⊢
    tauto
  exact covers_accept (Cursor.passes_dropWhile text part) _

private theorem covers_number (text : here.rest = c :: rest)
    (numeric : (Decimal.isDigit c || c == '.') = true) : here.Covers (number here) := by
  have whole := Cursor.reaches_dropWhile Decimal.isDigit here
  simp only [number]
  split
  next point =>
    -- The point is there to be passed, with or without digits before it.
    have after := (whole.passes (Cursor.passes_advance point)).trans
      (Cursor.reaches_dropWhile Decimal.isDigit _)
    split
    next second => exact covers_reject (after.trans (Cursor.passes_advance second).1) _
    next =>
      split
      · exact covers_reject after _
      · exact covers_accept after _
  next noPoint =>
    have digit : Decimal.isDigit c = true := by
      by_contra noDigit
      have stays : (here.dropWhile Decimal.isDigit).rest = c :: rest := by
        simp [Cursor.dropWhile, text, noDigit]
      have isPoint : c = '.' := by simpa [noDigit] using numeric
      exact noPoint rest (isPoint ▸ stays)
    have passes := Cursor.passes_dropWhile text digit
    split
    · exact covers_accept passes _
    · exact covers_reject passes _

/-- Where no separator stands, what is read ends where reading goes on. -/
theorem covers_token (text : here.rest = c :: rest) (visible : isSeparator c = false) :
    here.Covers (Lexer.token here) := by
  simp only [Lexer.token, text]
  split
  case h_10 | h_11 | h_12 | h_13 => exact covers_pair text _ _ _
  case h_14 => exact covers_inequality text
  case h_15 => exact covers_string text
  case h_16 =>
    rw [visible, if_neg Bool.false_ne_true]
    split
    next start => exact covers_word text start
    next =>
      split
      next numeric => exact covers_number text numeric
      next => exact covers_reject (Cursor.passes_advance text) _
  all_goals exact covers_single text _

end Kinds

/-! ### Behind separators -/

/-- The text goes on as layout, or as the comment that it starts in. -/
def Trails (commented : Bool) (text behind : List Char) : Prop :=
  if commented then '\n' ∉ text ∧ behind = [] else Layout text behind

theorem Trails.comment {commented : Bool} {c : Char} {text behind : List Char}
    (inside : Trails true text behind) (other : c ≠ '\n') (starts : (commented || c == '#') = true) :
    Trails commented (c :: text) behind := by
  obtain ⟨inside, ends⟩ : '\n' ∉ text ∧ behind = [] := inside
  cases commented with
  | true =>
    refine ⟨?_, ends⟩
    simp [inside, other.symm]
  | false =>
    obtain rfl : c = '#' := by simpa using starts
    exact Layout.comment inside (by simp [ends])

/-- A run goes over the text, whatever stands behind it, and the text ends in a separator. -/
def Separates (commented : Bool) (text : List Char) : Prop :=
  ∀ stop offset more, separatorRun stop offset commented (text ++ more)
    = separatorRun (offset + Text.byteLength text) (offset + Text.byteLength text) false more

/-- Some text that ends in a separator, with a run over it, and layout behind that. -/
def RunsTo (commented : Bool) (first place after : Cursor) : Prop :=
  (∃ taken, first.rest = taken ++ place.rest ∧
    place.offset = first.offset + Text.byteLength taken ∧ Separates commented taken) ∧
  place.Skips after

theorem RunsTo.reaches {commented : Bool} {first place after : Cursor}
    (runs : RunsTo commented first place after) : first.Reaches place := by
  obtain ⟨⟨taken, text, offset, -⟩, -⟩ := runs
  exact ⟨taken, text, offset⟩

/-- One more character at the front of a run. -/
theorem RunsTo.cons {commented commented' : Bool} {offset : Nat} {c : Char} {rest : List Char}
    {place after : Cursor}
    (goesOn : ∀ stop offset more, ∃ stop', separatorRun stop offset commented (c :: more)
      = separatorRun stop' (offset + c.utf8Size) commented' more)
    (runs : RunsTo commented' ⟨offset + c.utf8Size, rest⟩ place after) :
    RunsTo commented ⟨offset, c :: rest⟩ place after := by
  obtain ⟨⟨taken, text, offset', separates⟩, skips⟩ := runs
  refine ⟨⟨c :: taken, ?_, ?_, fun stop offset more => ?_⟩, skips⟩
  · simpa using text
  · simpa [Text.byteLength, Nat.add_assoc] using offset'
  · obtain ⟨stop', next⟩ := goesOn stop offset (taken ++ more)
    rw [List.cons_append, next, separates, Text.byteLength, Nat.add_assoc]

/-- A run of separators ends behind the last one, and what it goes over behind that is layout. Where it
meets no separator, this is all there is. -/
theorem separatorRun_layout {stop stop' offset : Nat} {commented : Bool} {text : List Char}
    {after : Cursor} (run : separatorRun stop offset commented text = (stop', after)) :
    (stop' = stop ∧ ∃ pending, text = pending ++ after.rest ∧
      after.offset = offset + Text.byteLength pending ∧ Trails commented pending after.rest) ∨
    ∃ place : Cursor, place.offset = stop' ∧ RunsTo commented ⟨offset, text⟩ place after := by
  fun_induction separatorRun stop offset commented text with
  | case1 stop offset commented =>
    cases run
    refine .inl ⟨rfl, [], rfl, rfl, ?_⟩
    cases commented with
    | true => exact ⟨List.not_mem_nil, rfl⟩
    | false => exact .none []
  | case2 stop offset commented c rest next separator ih =>
    have goesOn (stop offset more) : separatorRun stop offset commented (c :: more)
        = separatorRun (offset + c.utf8Size) (offset + c.utf8Size) false more := by
      simp only [separatorRun, separator, if_true]
    right
    rcases ih run with ⟨rfl, pending, text, offset', layout⟩ | ⟨place, stops, runs⟩
    · -- Behind the last separator.
      refine ⟨⟨next, rest⟩, rfl, ⟨[c], rfl, rfl, goesOn⟩, pending, text, offset', layout⟩
    · exact ⟨place, stops, runs.cons fun stop offset more => ⟨_, goesOn stop offset more⟩⟩
  | case3 stop offset commented c rest next separator comment ih =>
    rcases ih run with ⟨rfl, pending, text, offset', layout⟩ | ⟨place, stops, runs⟩
    · left
      refine ⟨rfl, c :: pending, by simp [text], ?_, layout.comment ?_ comment⟩
      · simp [offset', next, Text.byteLength, Nat.add_assoc]
      · rintro rfl
        simp at separator
    · refine .inr ⟨place, stops, runs.cons fun stop offset more => ⟨stop, ?_⟩⟩
      simp only [separatorRun, separator, comment, if_true]
      rfl
  | case4 stop offset commented c rest next separator comment blank ih =>
    obtain ⟨rfl, noComment⟩ : commented = false ∧ c ≠ '#' := by simpa using comment
    rcases ih run with ⟨rfl, pending, text, offset', layout⟩ | ⟨place, stops, runs⟩
    · left
      refine ⟨rfl, c :: pending, by simp [text], ?_, Layout.blank blank layout⟩
      simp [offset', next, Text.byteLength, Nat.add_assoc]
    · refine .inr ⟨place, stops, runs.cons fun stop offset more => ⟨stop, ?_⟩⟩
      simp only [separatorRun, separator, comment, blank, if_true]
      rfl
  | case5 stop offset commented c rest separator comment blank =>
    obtain ⟨rfl, noComment⟩ : commented = false ∧ c ≠ '#' := by simpa using comment
    cases run
    exact .inl ⟨rfl, [], rfl, rfl, .none _⟩

/-- A run that starts at a separator. -/
theorem exists_runsTo {here after : Cursor} {stop : Nat}
    (separator : ∃ c ∈ here.rest.head?, isSeparator c = true)
    (run : separatorRun here.offset here.offset false here.rest = (stop, after)) :
    ∃ place : Cursor, here.offset < stop ∧ place.offset = stop ∧ RunsTo false here place after := by
  obtain ⟨c, first, separator⟩ := separator
  obtain ⟨offset, text⟩ := here
  obtain ⟨rest, rfl⟩ := List.head?_eq_some_iff.mp first
  have positive := c.utf8Size_pos
  have goesOn := separatorRun_separator separator
  rw [goesOn] at run
  rcases separatorRun_layout run with ⟨rfl, pending, rest', offset', layout⟩ | ⟨place, rfl, runs⟩
  · refine ⟨⟨offset + c.utf8Size, rest⟩, by simpa using positive, rfl, ⟨[c], rfl, rfl, ?_⟩,
      pending, rest', offset', layout⟩
    exact fun stop offset more => goesOn stop offset more
  · have further := runs.reaches.offset_le
    refine ⟨place, ?_, rfl, runs.cons fun stop offset more => ⟨_, goesOn stop offset more⟩⟩
    dsimp only at further ⊢
    omega

/-- A run of separators stops where neither a separator nor layout stands. -/
theorem separatorRun_stops {stop stop' offset : Nat} {commented : Bool} {text : List Char}
    {after : Cursor} (run : separatorRun stop offset commented text = (stop', after)) :
    ∀ c ∈ after.rest.head?, isBlank c = false ∧ c ≠ '#' ∧ isSeparator c = false := by
  fun_induction separatorRun stop offset commented text with
  | case1 =>
    cases run
    simp
  | case2 stop offset commented c rest next separator ih => exact ih run
  | case3 stop offset commented c rest next separator comment ih => exact ih run
  | case4 stop offset commented c rest next separator comment blank ih => exact ih run
  | case5 stop offset commented c rest separator comment blank =>
    obtain ⟨rfl, noComment⟩ : commented = false ∧ c ≠ '#' := by simpa using comment
    have visible : isSeparator c = false := by simpa [isSeparator] using separator
    cases run
    simpa [noComment, visible] using blank

/-! ### From scan to scan -/

/-- What one scan gives: the end of input where only layout is left, or else a token or an error, and
then layout may be skipped behind it. -/
inductive Progress (cursor : Cursor) : Scanned → Cursor → Prop
  | finished (text : (skipLayout cursor).rest = []) :
      Progress cursor (.ok ⟨.endOfInput, .emptyAt (skipLayout cursor).offset⟩) (skipLayout cursor)
  | read {scanned : Scanned} {place after : Cursor} (passes : (skipLayout cursor).Passes place)
      (span : scanned.span = ⟨(skipLayout cursor).offset, place.offset⟩) (skips : place.Skips after) :
      Progress cursor scanned after

theorem progress_of_scan {cursor after : Cursor} {scanned : Scanned}
    (read : scan cursor = (scanned, after)) : Progress cursor scanned after := by
  cases text : (skipLayout cursor).rest with
  | nil =>
    rw [scan_of_step (.last text)] at read
    cases read
    exact .finished text
  | cons c rest =>
    by_cases separator : isSeparator c = true
    · rcases run : separatorRun (skipLayout cursor).offset (skipLayout cursor).offset false
        (skipLayout cursor).rest with ⟨stop, after'⟩
      rw [scan_of_step (.newline ⟨c, by simp [text], separator⟩ run)] at read
      cases read
      obtain ⟨place, further, rfl, runs⟩ := exists_runsTo ⟨c, by simp [text], separator⟩ run
      exact .read ⟨runs.reaches, further⟩ rfl runs.2
    · have covers := covers_token text (by simpa using separator)
      rw [show Lexer.token (skipLayout cursor) = (scanned, after) from read] at covers
      exact .read covers.passes covers.span (.refl after)

theorem ScanStep.newline_stops {cursor after : Cursor} {lexeme : Lexeme}
    (step : ScanStep cursor lexeme after) (isNewline : lexeme.token = .newline) :
    (∃ c ∈ (skipLayout cursor).rest.head?, isSeparator c = true) ∧
      ∀ c ∈ after.rest.head?, isBlank c = false ∧ c ≠ '#' ∧ isSeparator c = false := by
  cases step with
  | last => cases isNewline
  | newline separator run => exact ⟨separator, separatorRun_stops run⟩
  | token proper => exact absurd isNewline proper.1

/-- Behind a newline no other newline is read. -/
theorem not_isNewline_of_isNewline {cursor : Cursor} (newline : (scan cursor).1.IsNewline) :
    ¬ (scan (scan cursor).2).1.IsNewline := by
  have steps {cursor : Cursor} (newline : (scan cursor).1.IsNewline) :
      ∃ span, ScanStep cursor ⟨.newline, span⟩ (scan cursor).2 := by
    obtain ⟨span, newline⟩ := newline
    exact ⟨span, step_of_scan (by rw [← newline])⟩
  intro again
  obtain ⟨_, step⟩ := steps newline
  obtain ⟨_, step'⟩ := steps again
  have stops := (step.newline_stops rfl).2
  obtain ⟨c, first, separator⟩ := (step'.newline_stops rfl).1
  rw [skipLayout_of_stops fun d here => ⟨(stops d here).1, (stops d here).2.1⟩] at first
  rw [(stops c first).2.2] at separator
  cases separator

/-! ### All scans of a source -/

namespace Lexer

/-- The cursor from which a source is read for the time with this number, counted from zero. -/
def resumption (source : String) : Nat → Cursor
  | 0 => .start source
  | index + 1 => (scan (resumption source index)).2

/-- What is read from a source for the time with this number, be it a token or an error. -/
def result (source : String) (index : Nat) : Scanned :=
  (scan (resumption source index)).1

end Lexer

/-- Layout takes up this part of the source. -/
def LayoutAt (source : String) (span : Span) : Prop :=
  ∃ first last : Cursor, (Cursor.start source).Reaches first ∧ first.Skips last ∧
    span = ⟨first.offset, last.offset⟩

/-- The part of the source between a result and the one before it. -/
def gapBefore (results : Nat → Scanned) : Nat → Span
  | 0 => ⟨0, (results 0).span.start⟩
  | index + 1 => ⟨(results index).span.stop, (results (index + 1)).span.start⟩

/-- The first `count` results and the layout between them make up the source, and then the end of input
is read for ever. -/
structure Tiling (source : String) (results : Nat → Scanned) (count : Nat) : Prop where
  ends : ∀ index ≥ count, results index = .ok ⟨.endOfInput, .emptyAt source.utf8ByteSize⟩
  nonempty : ∀ index < count, (results index).span.start < (results index).span.stop
  boundaries : ∀ index < count,
    String.Pos.Raw.IsValid source ⟨(results index).span.start⟩ ∧
      String.Pos.Raw.IsValid source ⟨(results index).span.stop⟩
  ordered : ∀ index < count, (results index).span.stop ≤ (results (index + 1)).span.start
  covered : ∀ byte < source.utf8ByteSize,
    (∃ index < count, byte ∈ Set.Ico (results index).span.start (results index).span.stop) ∨
      ∃ index ≤ count, byte ∈ Set.Ico (gapBefore results index).start (gapBefore results index).stop
  gaps : ∀ index ≤ count, LayoutAt source (gapBefore results index)
  newlines : ∀ index, ¬ ((results index).IsNewline ∧ (results (index + 1)).IsNewline)

/-- All of the source up to an offset is read, and layout stands between there and the cursor. -/
def Resumes (source : String) (offset : Nat) (cursor : Cursor) : Prop :=
  ∃ place : Cursor, (Cursor.start source).Reaches place ∧ place.offset = offset ∧ place.Skips cursor

section Scans

variable {source : String} {offset : Nat} {cursor after : Cursor} {scanned : Scanned}

theorem Resumes.reaches (resumes : Resumes source offset cursor) :
    (Cursor.start source).Reaches cursor := by
  obtain ⟨place, reaches, -, skips⟩ := resumes
  exact reaches.trans skips.reaches

theorem isValid_of_reaches (reaches : (Cursor.start source).Reaches cursor) :
    String.Pos.Raw.IsValid source ⟨cursor.offset⟩ := by
  obtain ⟨taken, text, offset⟩ := reaches
  rw [String.Pos.Raw.isValid_iff_exists_append]
  refine ⟨String.ofList taken, String.ofList cursor.rest, ?_, ?_⟩
  · rw [← String.ofList_append, ← text]
    exact String.ofList_toList.symm
  · have size := Text.byteLength_toList (String.ofList taken)
    rw [String.toList_ofList] at size
    rw [offset, size, Cursor.start, Nat.zero_add]
    rfl

/-- One scan: layout stands before what is read, and behind it reading is resumed. -/
theorem Resumes.scan (resumes : Resumes source offset cursor)
    (read : scan cursor = (scanned, after)) :
    LayoutAt source ⟨offset, scanned.span.start⟩ ∧ Resumes source scanned.span.stop after := by
  have reaches := resumes.reaches.trans (reaches_skipLayout cursor)
  have layout : LayoutAt source ⟨offset, (skipLayout cursor).offset⟩ := by
    obtain ⟨place, reaches, rfl, skips⟩ := resumes
    exact ⟨place, skipLayout cursor, reaches, skips.trans (skips_skipLayout cursor), rfl⟩
  cases progress_of_scan read with
  | finished => exact ⟨layout, skipLayout cursor, reaches, rfl, .refl _⟩
  | @read _ place _ passes span skips =>
    rw [span]
    exact ⟨layout, place, reaches.trans passes.1, rfl, skips⟩

end Scans

section Sequence

variable (source : String)

/-- By induction on the scans: reading is resumed behind the result before. -/
theorem resumes_resumption (index : Nat) :
    Resumes source (gapBefore (result source) index).start (resumption source index) := by
  induction index with
  | zero => exact ⟨.start source, .refl _, rfl, .refl _⟩
  | succ index ih => exact (ih.scan rfl).2

theorem layoutAt_gapBefore (index : Nat) : LayoutAt source (gapBefore (result source) index) := by
  have layout := ((resumes_resumption source index).scan rfl).1
  cases index <;> exact layout

/-- Where more than layout is left, a stretch of text is read. -/
theorem result_of_unfinished {index : Nat}
    (more : (skipLayout (resumption source index)).rest ≠ []) :
    (result source index).span.start < (result source index).span.stop ∧
      String.Pos.Raw.IsValid source ⟨(result source index).span.start⟩ ∧
      String.Pos.Raw.IsValid source ⟨(result source index).span.stop⟩ ∧
      (resumption source (index + 1)).rest.length < (resumption source index).rest.length := by
  have reaches := (resumes_resumption source index).reaches.trans (reaches_skipLayout _)
  have shorter := (reaches_skipLayout (resumption source index)).length_le
  rcases read : scan (resumption source index) with ⟨scanned, after⟩
  simp only [result, resumption, read]
  cases progress_of_scan read with
  | finished text => exact absurd text more
  | read passes span skips =>
    rw [span]
    refine ⟨passes.2, isValid_of_reaches reaches, isValid_of_reaches (reaches.trans passes.1), ?_⟩
    have := passes.length_lt
    have := skips.reaches.length_le
    omega

/-- Where only layout is left, the end of input is read, and no more than that from there on. -/
theorem result_of_finished {index : Nat} (text : (skipLayout (resumption source index)).rest = []) :
    result source index = .ok ⟨.endOfInput, .emptyAt source.utf8ByteSize⟩ ∧
      (skipLayout (resumption source (index + 1))).rest = [] := by
  have total := ((resumes_resumption source index).reaches.trans (reaches_skipLayout _)).total
  simp only [text, Text.byteLength, Cursor.start, Nat.add_zero, Nat.zero_add,
    Text.byteLength_toList] at total
  have read := scan_of_step (.last text)
  simp only [result, resumption, read, total, skipLayout_skipLayout, text, and_self]

/-- Every scan before the end of input takes a character at least, so it is reached. -/
theorem exists_finished : ∃ count ≤ source.length,
    (skipLayout (resumption source count)).rest = [] ∧
      ∀ index < count, (skipLayout (resumption source index)).rest ≠ [] := by
  have shrinks (count : Nat)
      (more : ∀ index < count, (skipLayout (resumption source index)).rest ≠ []) :
      (resumption source count).rest.length + count ≤ source.length := by
    induction count with
    | zero => exact Nat.le_of_eq String.length_toList
    | succ count ih =>
      have before := ih fun index less => more index (by omega)
      have shorter := (result_of_unfinished source (more count (by omega))).2.2.2
      omega
  have finishes : ∃ count, (skipLayout (resumption source count)).rest = [] := by
    by_contra never
    have spent := shrinks (source.length + 1) fun index _ text => never ⟨index, text⟩
    omega
  classical
  have first := shrinks (Nat.find finishes) fun index less => Nat.find_min finishes less
  exact ⟨Nat.find finishes, by omega, Nat.find_spec finishes,
    fun index less => Nat.find_min finishes less⟩

theorem ends_of_finished {count : Nat} (text : (skipLayout (resumption source count)).rest = [])
    {index : Nat} (late : count ≤ index) :
    result source index = .ok ⟨.endOfInput, .emptyAt source.utf8ByteSize⟩ := by
  have stays : (skipLayout (resumption source index)).rest = [] := by
    induction index, late using Nat.le_induction with
    | base => exact text
    | succ index _ ih => exact (result_of_finished source ih).2
  exact (result_of_finished source stays).1

/-- Every byte before a result is in an earlier one or in a gap. -/
theorem covered_before (index : Nat) :
    ∀ byte < (result source index).span.start,
      (∃ earlier < index,
        byte ∈ Set.Ico (result source earlier).span.start (result source earlier).span.stop) ∨
      ∃ earlier ≤ index, byte ∈ Set.Ico (gapBefore (result source) earlier).start
        (gapBefore (result source) earlier).stop := by
  induction index with
  | zero =>
    intro byte before
    exact .inr ⟨0, Nat.le_refl 0, Nat.zero_le byte, before⟩
  | succ index ih =>
    intro byte before
    by_cases inGap : (result source index).span.stop ≤ byte
    · exact .inr ⟨index + 1, Nat.le_refl _, inGap, before⟩
    · by_cases inResult : (result source index).span.start ≤ byte
      · exact .inl ⟨index, by omega, inResult, by omega⟩
      · rcases ih byte (by omega) with ⟨earlier, less, inside⟩ | ⟨earlier, less, inside⟩
        · exact .inl ⟨earlier, by omega, inside⟩
        · exact .inr ⟨earlier, by omega, inside⟩

/-- What is read from a source, going on behind errors, tiles it. -/
theorem scans_tile_source : ∃ count ≤ source.length, Tiling source (result source) count := by
  obtain ⟨count, bound, finished, unfinished⟩ := exists_finished source
  refine ⟨count, bound, ?_⟩
  constructor
  case ends => exact fun index late => ends_of_finished source finished late
  case nonempty => exact fun index less => (result_of_unfinished source (unfinished index less)).1
  case boundaries =>
    intro index less
    obtain ⟨-, first, last, -⟩ := result_of_unfinished source (unfinished index less)
    exact ⟨first, last⟩
  case ordered =>
    intro index _
    obtain ⟨first, last, -, skips, span⟩ := layoutAt_gapBefore source (index + 1)
    have between := skips.reaches.offset_le
    simp only [gapBefore, Span.mk.injEq] at span
    omega
  case covered =>
    intro byte inside
    have last : (result source count).span = .emptyAt source.utf8ByteSize := by
      rw [ends_of_finished source finished (Nat.le_refl count)]
      rfl
    exact covered_before source count byte (by rw [last]; exact inside)
  case gaps => exact fun index _ => layoutAt_gapBefore source index
  case newlines =>
    rintro index ⟨newline, again⟩
    exact not_isNewline_of_isNewline newline again

end Sequence

end Primer
