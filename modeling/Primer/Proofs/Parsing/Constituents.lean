import Primer.Proofs.Parsing.SourceSpans

/-!
# Trees of spans

A program is a tree of constituents: nodes, the blocks that serve as bodies, and the names that
stand in nodes. Each has a span, and the spans form a tree too. A constituent lies inside the one
it stands in, and before those that follow it there.

## Main result

`spans_nested`: this holds everywhere in a parsed program, and all spans lie inside the source.

The spans of nodes and bodies are known to be nested from the way they are written; here they are
put together with those of names and of the program itself.
-/

namespace Primer

/-- Both ends of the span lie between those of the other. -/
structure Span.Within (inner outer : Span) : Prop where
  starts : outer.start ≤ inner.start
  stops : inner.stop ≤ outer.stop

/-- What a syntax tree is made of. -/
inductive Constituent where
  | node (tree : Node)
  | block (lines : Block)
  | name (ident : Ident)

/-- A body on the same line is its statement. -/
def Body.constituent : Body → Constituent
  | .inline statement => .node statement
  | .block statements span => .block ⟨statements, span⟩

def Branches.constituents : Branches → List Constituent
  | .none => []
  | .otherwise body => [body.constituent]
  | .elif condition body others => .node condition :: body.constituent :: others.constituents

/-- What stands directly in a node, in the order of the source. -/
def Node.constituents : Node → List Constituent
  | .number _ _ | .string _ _ | .continuing _ | .breaking _ => []
  | .list elements _ => elements.map .node
  | .variable ident => [.name ident]
  | .assign target value _ => [.name target, .node value]
  | .binary left _ right _ => [.node left, .node right]
  | .unary _ operand _ => [.node operand]
  | .conditional condition body others _ =>
    .node condition :: body.constituent :: others.constituents
  | .forLoop counter first limit step body _ =>
    .name counter :: .node first :: .node limit :: step.toList.map .node ++ [body.constituent]
  | .whileLoop condition body _ => [.node condition, body.constituent]
  | .repeatLoop count body _ => [.node count, body.constituent]
  | .function name params body _ =>
    name.toList.map .name ++ (params.map .name ++ [body.constituent])
  | .call callee arguments _ => .node callee :: arguments.map .node
  | .returning value _ => value.toList.map .node

namespace Constituent

def span : Constituent → Span
  | .node tree => tree.span
  | .block lines => lines.span
  | .name ident => ident.span

/-- What stands directly in a constituent, in the order of the source. -/
def parts : Constituent → List Constituent
  | .node tree => tree.constituents
  | .block lines => lines.statements.map .node
  | .name _ => []

/-- `part` stands somewhere in `whole`. -/
def StandsIn (part whole : Constituent) : Prop :=
  Relation.ReflTransGen (fun part whole => part ∈ whole.parts) part whole

end Constituent

/-! ### The spans of the parts -/

namespace Constituent

variable (node : Node) (block : Block) (ident : Ident)

@[simp] theorem span_node : (Constituent.node node).span = node.span := rfl

@[simp] theorem span_block : (Constituent.block block).span = block.span := rfl

@[simp] theorem span_name : (Constituent.name ident).span = ident.span := rfl

end Constituent

@[simp] theorem Body.span_constituent (body : Body) : body.constituent.span = body.span := by
  cases body <;> rfl

theorem Branches.map_span_constituents (others : Branches) :
    others.constituents.map Constituent.span = others.places := by
  cases others with
  | none => rfl
  | otherwise body => simp [constituents, places]
  | elif condition body others => simp [constituents, places, others.map_span_constituents]

theorem Node.map_span_constituents (node : Node) :
    node.constituents.map Constituent.span = node.places := by
  cases node <;> simp [constituents, places, Branches.map_span_constituents, Function.comp_def]

namespace Laid

variable {boundary : Nat → Prop} {lo hi : Nat} {span : Span} {spans : List Span}

/-- Each of the spans lies between the two offsets. -/
theorem mem (laid : Laid boundary lo hi spans) (member : span ∈ spans) :
    span.Follows boundary lo ∧ span.stop ≤ hi := by
  induction spans generalizing lo with
  | nil => cases member
  | cons first spans ih =>
    obtain ⟨follows, others⟩ := laid
    rcases List.mem_cons.mp member with rfl | member
    · exact ⟨follows, others.le⟩
    · obtain ⟨later, before⟩ := ih others member
      exact ⟨⟨follows.le.trans later.after, later.ordered, later.starts, later.stops⟩, before⟩

/-- Each ends before those behind it. -/
theorem pairwise (laid : Laid boundary lo hi spans) :
    spans.Pairwise fun earlier later => earlier.stop ≤ later.start := by
  induction spans generalizing lo with
  | nil => exact .nil
  | cons first spans ih =>
    obtain ⟨-, others⟩ := laid
    exact .cons (fun later member => (others.mem member).1.after) (ih others)

end Laid

/-! ### From a constituent to its parts -/

section Settled

variable (boundary : Nat → Prop)

/-- What stands in the constituent is nested, at whatever depth. -/
def Constituent.Settled : Constituent → Prop
  | .node tree => tree.Settled boundary
  | .block lines => lines.toBody.Nested boundary ∧
      ∀ statement ∈ lines.statements, statement.Settled boundary
  | .name ident => ident.span.start ≤ ident.span.stop

end Settled

variable {boundary : Nat → Prop}

/-- Bodies are settled if they are nested and their statements settled. -/
theorem Body.settled_constituent {body : Body} (nested : body.Nested boundary)
    (statements : ∀ statement ∈ body.statements, statement.Settled boundary) :
    body.constituent.Settled boundary := by
  cases body with
  | inline statement => exact statements statement (List.mem_singleton_self _)
  | block => exact ⟨nested, statements⟩

/-- A part of branches is a condition or a body. -/
theorem Branches.cases_constituent {others : Branches} {part : Constituent}
    (member : part ∈ others.constituents) :
    (∃ node ∈ others.nodes, part = .node node) ∨
      ∃ body ∈ others.bodies, part = body.constituent ∧ body.statements ⊆ others.nodes := by
  cases others with
  | none => cases member
  | otherwise body =>
    exact .inr ⟨body, List.mem_singleton_self _, List.mem_singleton.mp member, fun _ => id⟩
  | elif condition body others =>
    rcases List.mem_cons.mp member with rfl | member
    · exact .inl ⟨condition, by simp [nodes], rfl⟩
    rcases List.mem_cons.mp member with rfl | member
    · exact .inr ⟨body, by simp [bodies], rfl, by simp [nodes]⟩
    rcases cases_constituent member with ⟨node, inside, rfl⟩ | ⟨body, inside, rfl, statements⟩
    · exact .inl ⟨node, by simp [nodes, inside], rfl⟩
    · refine .inr ⟨body, by simp [bodies, inside], rfl, fun _ statement => ?_⟩
      simp [nodes, statements statement]

/-- A part of a node is a node, a body or a name. -/
theorem Node.cases_constituent {node : Node} {part : Constituent}
    (member : part ∈ node.constituents) :
    (∃ child ∈ node.parts, part = .node child) ∨
      (∃ body ∈ node.bodies, part = body.constituent ∧ body.statements ⊆ node.parts) ∨
      ∃ ident, part = .name ident := by
  cases node with
  | conditional condition body others =>
    have branches : part ∈ (Branches.elif condition body others).constituents := member
    exact (Branches.cases_constituent branches).imp_right .inl
  | _ =>
    simp only [constituents, parts, children, bodies] at member ⊢
    grind

namespace Constituent

variable {whole part : Constituent}

/-- The parts of a settled constituent lie inside it, one behind the other. -/
theorem Settled.laid (settled : whole.Settled boundary) :
    Laid boundary whole.span.start whole.span.stop (whole.parts.map span) := by
  cases whole with
  | node tree =>
    have nested := settled tree .refl
    exact tree.map_span_constituents ▸ nested.places
  | block lines =>
    have nested : Laid boundary lines.span.start lines.span.stop _ := settled.1
    rw [parts, List.map_map]
    exact nested
  | name ident => exact settled

/-- So the parts of a settled constituent are settled. -/
theorem Settled.below (settled : whole.Settled boundary) (member : part ∈ whole.parts) :
    part.Settled boundary := by
  cases whole with
  | node tree =>
    rcases tree.cases_constituent member with
      ⟨child, inside, rfl⟩ | ⟨body, inside, rfl, statements⟩ | ⟨ident, rfl⟩
    · exact fun inner below => settled inner (below.tail inside)
    · refine Body.settled_constituent ((settled tree .refl).bodies body inside) ?_
      exact fun statement member inner below => settled inner (below.tail (statements member))
    · exact (settled.laid.mem (List.mem_map_of_mem member)).1.ordered
  | block lines =>
    obtain ⟨statement, inside, rfl⟩ := List.mem_map.mp member
    exact settled.2 statement inside
  | name => cases member

end Constituent

/-! ### The whole program -/

section Program

variable {source : String} {program : Block}

/-- The block of a program is nested like any other, and lies inside the source. -/
theorem settled_of_parse (parsed : parse source = .ok program) :
    (Constituent.block program).Settled (Boundary source) ∧ program.span.Inside source := by
  have statements := arranged_of_parse parsed
  obtain ⟨tokens, lexed, parsed⟩ := parse_eq_ok_iff.mp parsed
  obtain ⟨left, ran⟩ := parseTokens_eq_ok_iff.mp parsed
  obtain ⟨lexeme, member, -⟩ := (lex_eq_ok_iff.mp lexed).ends
  obtain ⟨after, before, here⟩ :=
    Tokens.span_bounds (laid_of_lex lexed) (List.ne_nil_of_mem member)
  have block := statements.block after before here
  rw [← Grammar.span_of_program ran] at block
  obtain ⟨⟨follows, -⟩, settled, nested⟩ := block
  exact ⟨⟨nested _ (List.mem_singleton_self _), settled⟩,
    .of_ends follows.ordered follows.starts follows.stops⟩

/-- In a parsed program every span lies inside the source, inside the span of what it stands in, and
before the spans of what follows there. -/
theorem spans_nested (parsed : parse source = .ok program) {whole : Constituent}
    (stands : whole.StandsIn (.block program)) :
    whole.span.Inside source ∧ (∀ part ∈ whole.parts, part.span.Within whole.span) ∧
      whole.parts.Pairwise fun earlier later => earlier.span.stop ≤ later.span.start := by
  -- From the program down to the constituent, both what is below it and its own place are known.
  have known : whole.Settled (Boundary source) ∧ whole.span.Inside source := by
    induction stands using Relation.ReflTransGen.head_induction_on with
    | refl => exact settled_of_parse parsed
    | head member _ ih =>
      obtain ⟨settled, inside⟩ := ih
      obtain ⟨follows, -⟩ := settled.laid.mem (List.mem_map_of_mem member)
      exact ⟨settled.below member, .of_ends follows.ordered follows.starts follows.stops⟩
  have laid := known.1.laid
  refine ⟨known.2, fun part member => ?_, List.pairwise_map.mp laid.pairwise⟩
  obtain ⟨follows, stops⟩ := laid.mem (List.mem_map_of_mem member)
  exact ⟨follows.after, stops⟩

end Program

/-- The empty body stands at the end of the line, and the sum starts behind the bracket around its
first operand. -/
theorem spans_nested_empty_body :
    let source := "while (a) + 1 then\nend"
    let sum : Node := .binary (.variable ⟨"a", ⟨7, 8⟩⟩) .plus (.number (.int 1) ⟨12, 13⟩) ⟨7, 13⟩
    let loop : Node := .whileLoop sum (.block [] ⟨18, 18⟩) ⟨7, 18⟩
    let program : Block := ⟨[loop], ⟨7, 18⟩⟩
    parse source = .ok program ∧ (Constituent.node loop).StandsIn (.block program) ∧
      Span.Inside source ⟨7, 18⟩ ∧
      ∀ part ∈ [Constituent.node sum, .block ⟨[], ⟨18, 18⟩⟩], part.span.Within ⟨7, 18⟩ := by
  intro source sum loop program
  have lexed : lex source = .ok [⟨.keyword .whileWord, ⟨0, 5⟩⟩, ⟨.leftParen, ⟨6, 7⟩⟩,
      ⟨.ident "a", ⟨7, 8⟩⟩, ⟨.rightParen, ⟨8, 9⟩⟩, ⟨.plus, ⟨10, 11⟩⟩, ⟨.int 1, ⟨12, 13⟩⟩,
      ⟨.keyword .thenWord, ⟨14, 18⟩⟩, ⟨.newline, ⟨18, 19⟩⟩, ⟨.keyword .endWord, ⟨19, 22⟩⟩,
      ⟨.endOfInput, ⟨22, 22⟩⟩] := by
    decide +kernel
  have parsed : parse source = .ok program := by
    rw [parse, lexed]
    rfl
  have stands : (Constituent.node loop).StandsIn (.block program) :=
    .single (List.mem_singleton_self _)
  obtain ⟨inside, within, -⟩ := spans_nested parsed stands
  exact ⟨parsed, stands, inside, within⟩

end Primer
