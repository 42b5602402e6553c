import Primer.Proofs.Parsing.Carrying

/-!
# One source behind another

Sources that make up programs, one behind the other with a line feed between them, make up one program:
the statements of the first, and then those of the second, with all their spans moved behind the first
source and the line feed.
-/

namespace Primer

/-- The tokens make up the statements of a program. -/
def MakeUp (tokens : Tokens) (nodes : List Node) : Prop :=
  ∃ left, Grammar.allStatements tokens.skipNewlines = .ok nodes left ∧ left.current = .endOfInput

theorem makeUp_iff {tokens : Tokens} {nodes : List Node} : MakeUp tokens nodes ↔
    ∃ program, parseTokens tokens = .ok program ∧ program.statements = nodes := by
  constructor
  · rintro ⟨left, parsed, ends⟩
    refine ⟨⟨nodes, Grammar.blockSpan tokens.span.start nodes⟩,
      parseTokens_eq_ok_iff.mpr ⟨left, ?_⟩, rfl⟩
    rw [Grammar.program, Grammar.complete_block_eq, Parser.run_bind_ok (Grammar.run_block parsed),
      Parser.run_current, if_pos ends]
    rfl
  · rintro ⟨program, parsed, rfl⟩
    obtain ⟨left, ran⟩ := parseTokens_eq_ok_iff.mp parsed
    rw [Grammar.program, Grammar.complete_block_eq] at ran
    obtain ⟨block, next, first, ran⟩ := Parser.run_bind_eq_ok.mp ran
    have first : (Grammar.allStatements >>= fun nodes =>
        pure ⟨nodes, Grammar.blockSpan tokens.span.start nodes⟩) tokens.skipNewlines
          = .ok block next := first
    obtain ⟨nodes, _, statements, result⟩ := Parser.run_bind_eq_ok.mp first
    cases result
    rw [Parser.run_current] at ran
    split at ran
    next ends =>
      cases ran
      exact ⟨_, statements, ends⟩
    next => cases ran

theorem makeUp_nil {tokens : Tokens} (ends : tokens.skipNewlines.current = .endOfInput) :
    MakeUp tokens [] := by
  refine ⟨_, Grammar.allStatements_end ?_, ends⟩
  rw [ends]
  rfl

/-- Newlines at the front do not count. -/
theorem makeUp_append {newlines rest : Tokens} {nodes : List Node}
    (all : ∀ lexeme ∈ newlines, lexeme.token = .newline) :
    MakeUp (newlines ++ rest) nodes ↔ MakeUp rest nodes := by
  have skipped : Tokens.skipNewlines (newlines ++ rest) = rest.skipNewlines := by
    induction newlines with
    | nil => rfl
    | cons lexeme newlines ih =>
      obtain ⟨newline, others⟩ := List.forall_mem_cons.mp all
      rw [List.cons_append, Tokens.skipNewlines, if_pos newline, ih others]
  rw [MakeUp, MakeUp, skipped]

namespace Seam

theorem matches_append (S : Seam) {front : Tokens}
    (proper : ∀ lexeme ∈ front, lexeme.token ≠ .endOfInput) :
    S.Matches (front ++ S.before) (front.map (Lexeme.shift S.offset) ++ S.after) := by
  induction front with
  | nil => exact .seam
  | cons lexeme front ih =>
    obtain ⟨more, others⟩ := List.forall_mem_cons.mp proper
    exact .cons more (ih others)

/-- The statements of the first list, and then those behind the seam. -/
theorem makeUp (S : Seam) {front : Tokens} {nodes nodes' : List Node}
    (proper : ∀ lexeme ∈ front, lexeme.token ≠ .endOfInput)
    (first : MakeUp (front ++ S.before) nodes) (second : MakeUp S.after nodes') :
    MakeUp (front.map (Lexeme.shift S.offset) ++ S.after)
      (nodes.map (Node.shift S.offset) ++ nodes') := by
  obtain ⟨left, parsed, ends⟩ := first
  obtain ⟨left', parsed', ends'⟩ := second
  cases (S.inners _).allStatements (S.matches_append proper) (Nat.lt_succ_self _) parsed with
  | inside _ more => exact absurd ends more
  | beyond _ goesOn => exact ⟨left', goesOn nodes' left' parsed', ends'⟩

end Seam

section Closing

variable {tail : Tokens} (closing : Closing tail)
include closing

theorem Closing.stops : tail.current.Stops := by
  obtain ⟨last, ends, rfl | ⟨newline, isNewline, rfl⟩⟩ := closing
  · exact .inr ends
  · exact .inl isNewline

theorem Closing.ends : tail.skipNewlines.current = .endOfInput := by
  obtain ⟨last, ends, rfl | ⟨newline, isNewline, rfl⟩⟩ := closing
  · simp [Tokens.skipNewlines, Tokens.current, ends]
  · simp [Tokens.skipNewlines, Tokens.current, ends, isNewline]

theorem Closing.shift (offset : Nat) : Closing (tail.map (Lexeme.shift offset)) := by
  obtain ⟨last, ends, rfl | ⟨newline, isNewline, rfl⟩⟩ := closing
  · exact ⟨last.shift offset, ends, .inl rfl⟩
  · exact ⟨last.shift offset, ends, .inr ⟨newline.shift offset, isNewline, rfl⟩⟩

end Closing

/-- The tokens of a source further down make up the same program further down. -/
theorem MakeUp.shift {source : String} {tokens : Tokens} {nodes : List Node}
    (lexed : lex source = .ok tokens) (makeUp : MakeUp tokens nodes) (offset : Nat) :
    MakeUp (tokens.map (Lexeme.shift offset)) (nodes.map (Node.shift offset)) := by
  obtain ⟨front, tail, rfl, proper, closing, -⟩ := (lex_eq_ok_iff.mp lexed).join
  let S : Seam := ⟨offset, tail, tail.map (Lexeme.shift offset), closing.stops,
    (closing.shift offset).stops, closing.ends⟩
  have moved := S.makeUp proper makeUp (makeUp_nil (closing.shift offset).ends)
  rwa [← List.map_append, List.append_nil] at moved

/-- Parsing is compositional. Sources that are parsed, one behind the other with a line feed between
them, are parsed to the statements of the first followed by those of the second, which are the same but
for their spans: all of these are moved by the bytes of the first source and the line feed. -/
theorem parse_concatenation {first second : String} {program program' : Block}
    (parsed : parse first = .ok program) (parsed' : parse second = .ok program') :
    ∃ whole, parse (first ++ "\n" ++ second) = .ok whole ∧
      whole.statements = program.statements ++
        program'.statements.map (Node.shift (first.utf8ByteSize + 1)) := by
  obtain ⟨tokens, lexed, parsed⟩ := parse_eq_ok_iff.mp parsed
  obtain ⟨tokens', lexed', parsed'⟩ := parse_eq_ok_iff.mp parsed'
  obtain ⟨front, tail, newline, newlines, others, rfl, proper, closing, atSeam, split, isNewline,
    joined⟩ := lex_join lexed lexed'
  rw [Text.byteLength_toList] at split
  -- The second source further down, from the newline at the seam on.
  have second := (makeUp_iff.mpr ⟨_, parsed', rfl⟩).shift lexed' (first.utf8ByteSize + 1)
  rw [split, makeUp_append isNewline] at second
  have behind : MakeUp (newline :: others) _ :=
    (makeUp_append (List.forall_mem_singleton.mpr atSeam)).mpr second
  let S : Seam := ⟨0, tail, newline :: others, closing.stops, .inl atSeam, closing.ends⟩
  have whole := S.makeUp proper (makeUp_iff.mpr ⟨_, parsed, rfl⟩) behind
  simp only [S, Lexeme.shift_zero, Node.shift_zero_eq_id, List.map_id] at whole
  rw [parse_of_lex joined]
  exact makeUp_iff.mp whole

/-- The first source ends in a comment, the second starts with a separator. -/
theorem parse_concatenation_comment :
    let first := "x = 1 # é"
    let second := "; if x then\n y end"
    let program : Block := ⟨[.assign ⟨"x", ⟨0, 1⟩⟩ (.number (.int 1) ⟨4, 5⟩) ⟨0, 5⟩], ⟨0, 5⟩⟩
    let program' : Block := ⟨[.conditional (.variable ⟨"x", ⟨5, 6⟩⟩)
      (.block [.variable ⟨"y", ⟨13, 14⟩⟩] ⟨13, 14⟩) .none ⟨5, 14⟩], ⟨5, 14⟩⟩
    parse first = .ok program ∧ parse second = .ok program' ∧
      ∃ whole, parse (first ++ "\n" ++ second) = .ok whole ∧
        whole.statements = [.assign ⟨"x", ⟨0, 1⟩⟩ (.number (.int 1) ⟨4, 5⟩) ⟨0, 5⟩,
          .conditional (.variable ⟨"x", ⟨16, 17⟩⟩)
            (.block [.variable ⟨"y", ⟨24, 25⟩⟩] ⟨24, 25⟩) .none ⟨16, 25⟩] := by
  intro first second program program'
  have lexed : lex first = .ok [⟨.ident "x", ⟨0, 1⟩⟩, ⟨.assign, ⟨2, 3⟩⟩, ⟨.int 1, ⟨4, 5⟩⟩,
      ⟨.endOfInput, ⟨10, 10⟩⟩] := by
    decide +kernel
  have lexed' : lex second = .ok [⟨.newline, ⟨0, 1⟩⟩, ⟨.keyword .ifWord, ⟨2, 4⟩⟩,
      ⟨.ident "x", ⟨5, 6⟩⟩, ⟨.keyword .thenWord, ⟨7, 11⟩⟩, ⟨.newline, ⟨11, 12⟩⟩,
      ⟨.ident "y", ⟨13, 14⟩⟩, ⟨.keyword .endWord, ⟨15, 18⟩⟩, ⟨.endOfInput, ⟨18, 18⟩⟩] := by
    decide +kernel
  have parsed : parse first = .ok program := by
    rw [parse_of_lex lexed]
    rfl
  have parsed' : parse second = .ok program' := by
    rw [parse_of_lex lexed']
    rfl
  have size : first.utf8ByteSize = 10 := by decide +kernel
  obtain ⟨whole, joined, statements⟩ := parse_concatenation parsed parsed'
  rw [size] at statements
  exact ⟨parsed, parsed', whole, joined, statements⟩

end Primer
