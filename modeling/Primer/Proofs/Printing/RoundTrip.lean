import Primer.Proofs.Parsing.SpanBlind
import Primer.Proofs.Printing.Lexing
import Primer.Proofs.Printing.Parsing

/-!
# Printed programs are read back

The text of a readable program is read as the tokens of the program, and these make the program up
again, with the spans of its text in place of its own. Printable programs are readable.
-/

namespace Primer

/-- Programs all of whose nodes are made by the grammar and shown by their text. -/
def Block.Readable (program : Block) : Prop :=
  ∀ statement ∈ program.statements, statement.Readable

namespace Block.Readable

variable {program : Block} (readable : program.Readable)
include readable

/-- The tokens of a readable program make up its bare form. -/
theorem program_eq :
    Grammar.program (lay (Node.joinedTokens program.statements ++ [.endOfInput]))
      = .ok program.bare [Grammar.bare .endOfInput] := by
  have parsed := Grammar.allStatements_joined fun statement member =>
    (readable statement member).parses.1
  have skipped := Tokens.skipNewlines_of_ne parsed.2
  have span : Tokens.span (lay (Node.joinedTokens program.statements) ++ [Grammar.bare .endOfInput])
      = nowhere := by
    cases Node.joinedTokens program.statements <;> rfl
  have block := Grammar.run_block ((congrArg Grammar.allStatements skipped).trans parsed.1)
  rw [span, Grammar.blockSpan_bare] at block
  rw [Grammar.program, Grammar.complete_block_eq, lay_append, lay_cons, lay_nil,
    Parser.run_bind_ok block]
  rfl

/-- The text of a readable program is lexed as the tokens of the program. -/
theorem lex_text :
    ∃ lexemes, lex program.text = .ok lexemes ∧
      lexemes.map Lexeme.token = Node.joinedTokens program.statements ++ [.endOfInput] := by
  have reads := reads_program fun statement member => (readable statement member).legible
  exact reads.exists_lex

/-- The text of a readable program is parsed as that program, up to spans. -/
theorem parse_text : ∃ parsed, parse program.text = .ok parsed ∧ parsed.bare = program.bare := by
  -- The lexemes of the text have their own spans, and parsing does not look at them.
  obtain ⟨lexemes, lexed, tokens⟩ := readable.lex_text
  have same : lexemes.map Lexeme.token
      = (lay (Node.joinedTokens program.statements ++ [.endOfInput])).map Lexeme.token := by
    rw [tokens, lay, List.map_map]
    exact (List.map_id _).symm
  obtain ⟨parsed, accepted, bare⟩ := parseTokens_of_same_tokens same readable.program_eq
  refine ⟨parsed, by rw [parse, lexed]; exact accepted, ?_⟩
  rw [bare, Block.bare_bare]

end Block.Readable

theorem Block.Printable.readable {program : Block} (printable : program.Printable) :
    program.Readable :=
  fun statement member => (printable statement member).readable

/-- The text of a printable program is parsed as that program, up to spans. -/
theorem parse_text_of_printable {program : Block} (printable : program.Printable) :
    ∃ parsed, parse program.text = .ok parsed ∧ parsed.bare = program.bare :=
  printable.readable.parse_text

/-- A function with a conditional inside, and a statement behind it. -/
theorem parse_text_of_printable_doubling :
    let ident (name : String) : Ident := ⟨name, ⟨7, 8⟩⟩
    let number (value : Int64) : Node := .number (.int value) ⟨1, 2⟩
    let program : Block :=
      ⟨[.function (some (ident "double")) [ident "x"]
          (.block
            [.conditional (.binary (.variable (ident "x")) .less (number 10) ⟨3, 4⟩)
              (.block
                [.returning (some (.binary (.variable (ident "x")) .times (number 2) ⟨5, 6⟩)) ⟨5, 6⟩]
                ⟨5, 6⟩)
              (.otherwise
                (.block [.call (.variable (ident "say")) [.string "too\n\"big\"" ⟨1, 2⟩] ⟨0, 9⟩] ⟨0, 9⟩))
              ⟨0, 9⟩]
            ⟨0, 9⟩)
          ⟨0, 9⟩,
        .assign (ident "y") (.unary .minus (number 3) ⟨0, 9⟩) ⟨0, 9⟩], ⟨0, 9⟩⟩
    program.Printable ∧ ∃ parsed, parse program.text = .ok parsed ∧ parsed.bare = program.bare := by
  intro ident number program
  have x : (Node.variable (ident "x")).PrintableExpression := .access (by decide)
  have digit (value : Int64) (positive : 0 ≤ value.toInt) : (number value).PrintableExpression :=
    .number positive
  have printable : program.Printable := by
    refine List.forall_mem_cons.mpr ⟨.functionBlock (by decide) (by decide) ?_,
      List.forall_mem_singleton.mpr (.assign (by decide) (.unary (by decide) (digit 3 (by decide))))⟩
    refine List.forall_mem_singleton.mpr (.conditional (.binary (by decide) x (digit 10 (by decide)))
      (List.forall_mem_singleton.mpr
        (.returnValue (.binary (by decide) x (digit 2 (by decide))))) nofun ?_ ?_)
    · exact List.forall_mem_singleton.mpr rfl
    · refine List.forall_mem_singleton.mpr (List.forall_mem_singleton.mpr ?_)
      exact .expression (.call (.access (by decide))
        (List.forall_mem_singleton.mpr (.string (List.all_eq_true.mp (by decide)))))
  exact ⟨printable, parse_text_of_printable printable⟩

end Primer
