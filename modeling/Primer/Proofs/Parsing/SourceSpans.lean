import Primer.Proofs.Lexing.Tiling
import Primer.Proofs.Parsing.Completion
import Primer.Proofs.Parsing.Nesting
import Primer.Source.Position

/-!
# Spans inside the source

The tokens of a source stand one behind the other and end on character boundaries, so the nodes of
its program do, and the place of a syntax error is that of a token. Positions are looked up by going
back to a boundary first; a span inside the source is not changed by that.
-/

namespace Primer

open Lexer

/-- The offset is a boundary between characters of the source. -/
def Boundary (source : String) (offset : Nat) : Prop :=
  String.Pos.Raw.IsValid source ⟨offset⟩

/-- Both ends of the span are boundaries of the source, in order. -/
structure Span.Inside (source : String) (span : Span) : Prop where
  ordered : span.start ≤ span.stop
  bounded : span.stop ≤ source.utf8ByteSize
  starts : Boundary source span.start
  stops : Boundary source span.stop

/-- The span that reports show: its ends are brought back to boundaries and into order. -/
def Span.shown (source : String) (span : Span) : Span :=
  ⟨(Position.resolve source span.start).offset,
    (Position.resolve source (max span.start span.stop)).offset⟩

/-! ### Positions of boundaries -/

namespace Source

/-- A text can be divided behind each of its parts and nowhere else. -/
theorem isBoundary_iff {text : List Char} {offset : Nat} : isBoundary offset text = true ↔
    ∃ taken rest, text = taken ++ rest ∧ offset = Text.byteLength taken := by
  induction text generalizing offset with
  | nil => simp [isBoundary, Text.byteLength]
  | cons c text ih =>
    simp only [isBoundary, Bool.or_eq_true, beq_iff_eq, Bool.and_eq_true, decide_eq_true_eq, ih]
    constructor
    · rintro (rfl | ⟨fits, taken, rest, rfl, behind⟩)
      · exact ⟨[], c :: text, rfl, rfl⟩
      · refine ⟨c :: taken, rest, rfl, ?_⟩
        rw [Text.byteLength]
        omega
    · rintro ⟨taken, rest, parts, rfl⟩
      cases taken with
      | nil => exact .inl rfl
      | cons d taken =>
        obtain ⟨rfl, rfl⟩ := List.cons.inj parts
        rw [Text.byteLength]
        exact .inr ⟨by omega, taken, rest, rfl, by omega⟩

theorem floorBoundary_of_isBoundary {text : List Char} {offset : Nat}
    (boundary : isBoundary offset text = true) : floorBoundary text offset = offset := by
  cases offset with
  | zero => rfl
  | succ offset => rw [floorBoundary, if_pos boundary]

end Source

namespace Boundary

variable {source : String} {offset : Nat}

/-- A boundary stands between two parts of the source. -/
theorem exists_parts (boundary : Boundary source offset) : ∃ taken rest : List Char,
    source.toList = taken ++ rest ∧ offset = Text.byteLength taken := by
  obtain ⟨first, second, rfl, place⟩ := String.Pos.Raw.isValid_iff_exists_append.mp boundary
  refine ⟨first.toList, second.toList, String.toList_append, ?_⟩
  rw [Text.byteLength_toList]
  exact congrArg String.Pos.Raw.byteIdx place

theorem le (boundary : Boundary source offset) : offset ≤ source.utf8ByteSize := by
  obtain ⟨taken, rest, parts, rfl⟩ := boundary.exists_parts
  rw [← Text.byteLength_toList, parts, Text.byteLength_append]
  exact Nat.le_add_right _ _

/-- A boundary is its own position. -/
theorem offset_resolve (boundary : Boundary source offset) :
    (Position.resolve source offset).offset = offset := by
  have inside := boundary.le
  have divides := Source.isBoundary_iff.mpr boundary.exists_parts
  rw [Position.resolve, Position.locate, Nat.min_eq_left inside]
  exact Source.floorBoundary_of_isBoundary divides

end Boundary

namespace Span

variable {source : String} {span : Span}

theorem Inside.of_ends (ordered : span.start ≤ span.stop) (starts : Boundary source span.start)
    (stops : Boundary source span.stop) : span.Inside source :=
  ⟨ordered, stops.le, starts, stops⟩

/-- Reports show a span inside the source as it is. -/
theorem Inside.shown (inside : span.Inside source) : span.shown source = span := by
  rw [Span.shown, Nat.max_eq_right inside.ordered, inside.starts.offset_resolve,
    inside.stops.offset_resolve]

end Span

/-! ### Tokens -/

section Tokens

variable {source : String} {cursor after : Cursor}

/-- What is read next, be it a token or an error, stands behind the cursor and before the next one.
-/
theorem follows_of_scan (reaches : (Cursor.start source).Reaches cursor) {scanned : Scanned}
    (read : scan cursor = (scanned, after)) :
    scanned.span.Follows (Boundary source) cursor.offset ∧ scanned.span.stop ≤ after.offset ∧
      (Cursor.start source).Reaches after := by
  have behind := reaches_skipLayout cursor
  have first := isValid_of_reaches (reaches.trans behind)
  cases progress_of_scan read with
  | finished =>
    exact ⟨⟨behind.offset_le, Nat.le_refl _, first, first⟩, Nat.le_refl _, reaches.trans behind⟩
  | read passes span skips =>
    have reached := (reaches.trans behind).trans passes.1
    rw [span]
    exact ⟨⟨behind.offset_le, passes.2.le, first, isValid_of_reaches reached⟩,
      skips.reaches.offset_le, reached.trans skips.reaches⟩

theorem offset_le_size (reaches : (Cursor.start source).Reaches cursor) :
    cursor.offset ≤ source.utf8ByteSize :=
  Boundary.le (isValid_of_reaches reaches)

/-- The tokens of a source stand one behind the other. -/
theorem Lexed.laid {lexemes : List Lexeme} (lexed : Lexed cursor lexemes)
    (reaches : (Cursor.start source).Reaches cursor) :
    Laid (Boundary source) cursor.offset source.utf8ByteSize (lexemes.map Lexeme.span) := by
  induction lexed with
  | last step _ =>
    obtain ⟨follows, before, reached⟩ := follows_of_scan reaches (scan_of_step step)
    exact ⟨follows, Nat.le_trans before (offset_le_size reached)⟩
  | next step _ _ ih =>
    obtain ⟨follows, before, reached⟩ := follows_of_scan reaches (scan_of_step step)
    exact ⟨follows, (ih reached).after before⟩

theorem laid_of_lex {tokens : Tokens} (lexed : lex source = .ok tokens) :
    Laid (Boundary source) 0 source.utf8ByteSize (tokens.map Lexeme.span) :=
  (lex_eq_ok_iff.mp lexed).laid (.refl _)

theorem Lexed.ends {lexemes : List Lexeme} (lexed : Lexed cursor lexemes) :
    ∃ lexeme ∈ lexemes, lexeme.token = .endOfInput := by
  induction lexed with
  | last _ ends => exact ⟨_, List.mem_singleton_self _, ends⟩
  | next _ _ _ ih =>
    obtain ⟨lexeme, member, ends⟩ := ih
    exact ⟨lexeme, List.mem_cons_of_mem _ member, ends⟩

/-- So does what is no token. -/
theorem inside_of_lexFrom {budget : Nat} {error : LexicalError}
    (reaches : (Cursor.start source).Reaches cursor)
    (failed : lexFrom budget cursor = .error error) : error.span.Inside source := by
  induction budget generalizing cursor with
  | zero => cases failed
  | succ budget ih =>
    rw [lexFrom] at failed
    split at failed
    next fault after read =>
      cases failed
      obtain ⟨follows, -⟩ := follows_of_scan reaches read
      exact .of_ends follows.ordered follows.starts follows.stops
    next lexeme after read =>
      obtain ⟨-, -, reached⟩ := follows_of_scan reaches read
      split at failed
      next => cases failed
      next =>
        cases others : lexFrom budget after with
        | ok => simp [others, Except.map] at failed
        | error fault =>
          rw [others] at failed
          cases failed
          exact ih reached others

theorem inside_of_lex {error : LexicalError} (failed : lex source = .error error) :
    error.span.Inside source :=
  inside_of_lexFrom (.refl _) failed

end Tokens

/-! ### Nodes and syntax errors -/

section Program

variable {source : String}

/-- The statements of a parsed program are nested, one behind the other. -/
theorem arranged_of_parse {program : Block} (parsed : parse source = .ok program) :
    Arranged (Boundary source) 0 source.utf8ByteSize (program.statements.map Node.span)
      program.statements [] := by
  obtain ⟨tokens, lexed, parsed⟩ := parse_eq_ok_iff.mp parsed
  obtain ⟨left, ran⟩ := parseTokens_eq_ok_iff.mp parsed
  obtain ⟨newlines, w, rfl, -, -, written, -⟩ := Grammar.written_of_program ran
  have laid := laid_of_lex lexed
  simp only [List.map_append, Laid.append_iff] at laid
  obtain ⟨first, before, last, inside, behind⟩ := laid
  exact ((written.arranged inside).after before.le).before behind.le

theorem Block.Contains.inside {program : Block} {node : Node} (contains : program.Contains node)
    (parsed : parse source = .ok program) : node.span.Inside source := by
  obtain ⟨statement, member, part⟩ := contains
  have nested := (arranged_of_parse parsed).settled statement member node part
  exact .of_ends nested.places.le nested.starts nested.stops

/-- What a failed run of the grammar has passed holds no end of input. -/
theorem Grammar.exists_passed {tokens left : Tokens} {error : ParseError}
    (failed : program tokens = .error error left) :
    ∃ passed : Tokens, tokens = passed ++ left ∧ passed.Proper := by
  obtain ⟨passed, rest, outcome, rfl, run⟩ :=
    (startable_program tokens.length).viable tokens (Nat.le_refl _)
  have same : leaving rest outcome = .error error left := (run.looks rest rfl).symm.trans failed
  cases outcome with
  | ok => cases same
  | error =>
    cases same
    exact ⟨passed, rfl, run.proper⟩

/-- A syntax error is reported at a token, if only at the end of input. -/
theorem inside_of_parse {error : ParseError} (failed : parse source = .error error) :
    error.span.Inside source := by
  cases lexed : lex source with
  | error fault =>
    rw [parse, lexed] at failed
    cases failed
    exact inside_of_lex lexed
  | ok tokens =>
    rw [parse_of_lex lexed, parseTokens, EStateM.run] at failed
    cases ran : Grammar.program tokens with
    | ok block left => simp [ran] at failed
    | error fault left =>
      rw [ran] at failed
      cases failed
      obtain ⟨passed, rfl, proper⟩ := Grammar.exists_passed ran
      have laid := laid_of_lex lexed
      rw [List.map_append, Laid.append_iff] at laid
      obtain ⟨mid, -, laid⟩ := laid
      rw [Grammar.span_of_program_error ran]
      cases left with
      | nil =>
        -- The end of input is among the tokens and was not passed.
        obtain ⟨lexeme, member, ends⟩ := (lex_eq_ok_iff.mp lexed).ends
        rw [List.append_nil] at member
        exact absurd ends (proper lexeme member)
      | cons lexeme left =>
        exact .of_ends laid.1.ordered laid.1.starts laid.1.stops

end Program

end Primer
