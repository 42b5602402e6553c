import Primer.Proofs.Parsing.Grammatical
import Primer.Proofs.Printing.RoundTrip

/-!
# Normalized sources

Printing a parsed program gives a source in one fixed style. It is a source of the same program if all
nodes of the program are faithful, and the parser sees to the rest: names, operators and the places of
statements are in order in any program that it makes.

Without this condition the text need not be read back. `unfaithful_texts` has a source for each way in
which a node can fail to show where its parts end.
-/

namespace Primer

/-- All nodes of the program are faithful. -/
def Block.Faithful (program : Block) : Prop :=
  ∀ node, program.Contains node → node.Faithful

/-- The text of a parsed program whose nodes are faithful is a source of that program, up to spans. -/
theorem parse_text_of_parsed {source : String} {program : Block}
    (parsed : parse source = .ok program) (faithful : program.Faithful) :
    ∃ reread, parse program.text = .ok reread ∧ reread.bare = program.bare := by
  -- The parser answers for the grammar, and the hypothesis for the text.
  have readable : program.Readable := fun statement member inner inside =>
    ⟨formed_of_parse parsed statement member inner inside,
      faithful inner ⟨statement, member, inside⟩⟩
  exact readable.parse_text

section OpenLoop

private def access (name : String) (start : Nat) : Node :=
  .variable ⟨name, ⟨start, start + 1⟩⟩

private def calling : Node :=
  .call (access "f" 23) [access "a" 25] ⟨23, 26⟩

private def assigning : Node :=
  .assign ⟨"x", ⟨33, 34⟩⟩ (.unary .minus (access "a" 38) ⟨37, 39⟩) ⟨33, 39⟩

private def choosing : Node :=
  .conditional (access "b" 16) (.inline calling) (.otherwise (.inline assigning)) ⟨16, 39⟩

/-- A loop on one line around a conditional that ends in an assignment, so that nothing closes it. -/
def openLoop : Block :=
  ⟨[.whileLoop (access "a" 6) (.inline choosing) ⟨6, 39⟩], ⟨6, 39⟩⟩

private theorem parse_openLoop : parse "while a then if b then f(a) else x = -a" = .ok openLoop := by
  have lexed : lex "while a then if b then f(a) else x = -a" = .ok
      [⟨.keyword .whileWord, ⟨0, 5⟩⟩, ⟨.ident "a", ⟨6, 7⟩⟩, ⟨.keyword .thenWord, ⟨8, 12⟩⟩,
        ⟨.keyword .ifWord, ⟨13, 15⟩⟩, ⟨.ident "b", ⟨16, 17⟩⟩, ⟨.keyword .thenWord, ⟨18, 22⟩⟩,
        ⟨.ident "f", ⟨23, 24⟩⟩, ⟨.leftParen, ⟨24, 25⟩⟩, ⟨.ident "a", ⟨25, 26⟩⟩,
        ⟨.rightParen, ⟨26, 27⟩⟩, ⟨.keyword .elseWord, ⟨28, 32⟩⟩, ⟨.ident "x", ⟨33, 34⟩⟩,
        ⟨.assign, ⟨35, 36⟩⟩, ⟨.minus, ⟨37, 38⟩⟩, ⟨.ident "a", ⟨38, 39⟩⟩,
        ⟨.endOfInput, ⟨39, 39⟩⟩] := by
    decide +kernel
  rw [parse, lexed]
  rfl

private theorem faithful_openLoop : openLoop.Faithful := by
  have closed (name : String) (start : Nat) : (access name start).Closed :=
    Node.closed_of_tail rfl rfl
  have leaf (name : String) (start : Nat) :
      ∀ inner : Node, inner.PartOf (access name start) → inner.Faithful :=
    Node.forall_partOf_iff.mpr ⟨trivial, nofun⟩
  have call : ∀ inner : Node, inner.PartOf calling → inner.Faithful := by
    refine Node.forall_partOf_iff.mpr ⟨⟨rfl, List.forall_mem_singleton.mpr (closed _ _).whole⟩, ?_⟩
    exact List.forall_mem_cons.mpr ⟨leaf _ _, List.forall_mem_singleton.mpr (leaf _ _)⟩
  have assign : ∀ inner : Node, inner.PartOf assigning → inner.Faithful := by
    refine Node.forall_partOf_iff.mpr ⟨trivial, List.forall_mem_singleton.mpr ?_⟩
    exact Node.forall_partOf_iff.mpr
      ⟨⟨rfl, (closed _ _).whole⟩, List.forall_mem_singleton.mpr (leaf _ _)⟩
  have noElse : ¬calling.Dangles := by
    rintro ⟨inner, ends, awaits⟩
    obtain rfl := ends.eq_of_tail rfl
    cases awaits
  have choose : ∀ inner : Node, inner.PartOf choosing → inner.Faithful := by
    refine Node.forall_partOf_iff.mpr ⟨⟨List.forall_mem_singleton.mpr (closed _ _).whole, ?_⟩, ?_⟩
    · rintro _ ⟨⟩
      exact noElse
    · exact List.forall_mem_cons.mpr
        ⟨leaf _ _, List.forall_mem_cons.mpr ⟨call, List.forall_mem_singleton.mpr assign⟩⟩
  rintro node ⟨statement, member, inside⟩
  obtain rfl := List.mem_singleton.mp member
  refine Node.forall_partOf_iff.mpr ⟨(closed _ _).whole, ?_⟩ node inside
  exact List.forall_mem_cons.mpr ⟨leaf _ _, List.forall_mem_singleton.mpr choose⟩

theorem parse_text_of_parsed_loop :
    parse "while a then if b then f(a) else x = -a" = .ok openLoop ∧ openLoop.Faithful ∧
      ∃ reread, parse openLoop.text = .ok reread ∧ reread.bare = openLoop.bare :=
  ⟨parse_openLoop, faithful_openLoop, parse_text_of_parsed parse_openLoop faithful_openLoop⟩

end OpenLoop

/-- The program of the source has a text that is a source of another program, or of none. -/
def Misread (source : String) : Prop :=
  ∃ program, parse source = .ok program ∧
    ¬∃ reread, parse program.text = .ok reread ∧ reread.bare = program.bare

/-- The texts of the statements of a program and of their parts. -/
def Block.partTexts (program : Block) : List (String × List String) :=
  program.statements.map fun statement => (statement.text, statement.parts.map Node.text)

/-- Whether the text of the program of a source is a source of a program with the same parts. -/
def rereads (source : String) : Bool :=
  match parse source with
  | .error _ => true
  | .ok program =>
    match parse program.text with
    | .error _ => false
    | .ok reread => reread.bare.partTexts == program.bare.partTexts

theorem misread_of_rereads {source : String} (fails : rereads source = false) : Misread source := by
  rw [rereads] at fails
  split at fails
  next => cases fails
  next program parsed =>
    refine ⟨program, parsed, ?_⟩
    rintro ⟨reread, again, same⟩
    simp [again, same] at fails

/-- A function that is called where it is written, an assignment on either side of an operator, a
`return` before a bracket, a conditional on one line before an `else`, branches of both kinds, and a
carriage return in a text: none of the conditions that exclude these can be left out. -/
theorem unfaithful_texts :
    Misread "(fun(x) -> x)(1)" ∧ Misread "(x = 1) + 2" ∧ Misread "1 + (x = 2)" ∧
      Misread "[if a then return end]" ∧ Misread "if a then if b then c end else d" ∧
      Misread "if a then\nb\nelif c then d" ∧ Misread "\"\r\"" := by
  refine ⟨?_, ?_, ?_, ?_, ?_, ?_, ?_⟩
  all_goals exact misread_of_rereads (by decide +kernel)

end Primer
