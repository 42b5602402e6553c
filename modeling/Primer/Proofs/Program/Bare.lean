import Primer.Program.Node

/-!
# Programs without places

The bare form of a program has every span at the start of the source. Two programs are equal up to
spans when their bare forms are equal.
-/

namespace Primer

/-- The span of what stands at no place in particular. -/
abbrev nowhere : Span :=
  ⟨0, 0⟩

def Ident.bare (ident : Ident) : Ident :=
  ⟨ident.name, nowhere⟩

mutual

/-- The node without its spans. -/
def Node.bare : Node → Node
  | .number value _ => .number value nowhere
  | .string value _ => .string value nowhere
  | .list elements _ => .list (Node.bareAll elements) nowhere
  | .variable ident => .variable ident.bare
  | .assign target value _ => .assign target.bare value.bare nowhere
  | .binary left operator right _ => .binary left.bare operator right.bare nowhere
  | .unary operator operand _ => .unary operator operand.bare nowhere
  | .conditional condition body others _ =>
    .conditional condition.bare body.bare others.bare nowhere
  | .forLoop counter first limit step body _ =>
    .forLoop counter.bare first.bare limit.bare (Node.bareOption step) body.bare nowhere
  | .whileLoop condition body _ => .whileLoop condition.bare body.bare nowhere
  | .repeatLoop count body _ => .repeatLoop count.bare body.bare nowhere
  | .function name params body _ =>
    .function (name.map Ident.bare) (params.map Ident.bare) body.bare nowhere
  | .call callee arguments _ => .call callee.bare (Node.bareAll arguments) nowhere
  | .returning value _ => .returning (Node.bareOption value) nowhere
  | .continuing _ => .continuing nowhere
  | .breaking _ => .breaking nowhere

def Node.bareAll : List Node → List Node
  | [] => []
  | node :: rest => node.bare :: Node.bareAll rest

def Node.bareOption : Option Node → Option Node
  | none => none
  | some node => some node.bare

def Body.bare : Body → Body
  | .inline statement => .inline statement.bare
  | .block statements _ => .block (Node.bareAll statements) nowhere

def Branches.bare : Branches → Branches
  | .none => .none
  | .otherwise body => .otherwise body.bare
  | .elif condition body others => .elif condition.bare body.bare others.bare

end

mutual

/-- There is nothing to take off a bare node. -/
theorem Node.bare_bare : (node : Node) → node.bare.bare = node.bare
  | .number .. | .string .. | .variable _ | .continuing _ | .breaking _ => rfl
  | .list elements _ => by rw [Node.bare, Node.bare, Node.bareAll_bareAll elements]
  | .assign _ value _ => by rw [Node.bare, Node.bare, value.bare_bare]; rfl
  | .binary left _ right _ => by rw [Node.bare, Node.bare, left.bare_bare, right.bare_bare]
  | .unary _ operand _ => by rw [Node.bare, Node.bare, operand.bare_bare]
  | .conditional condition body others _ => by
    rw [Node.bare, Node.bare, condition.bare_bare, body.bare_bare, others.bare_bare]
  | .forLoop _ first limit step body _ => by
    rw [Node.bare, Node.bare, first.bare_bare, limit.bare_bare, Node.bareOption_bareOption step,
      body.bare_bare]
    rfl
  | .whileLoop condition body _ => by
    rw [Node.bare, Node.bare, condition.bare_bare, body.bare_bare]
  | .repeatLoop count body _ => by rw [Node.bare, Node.bare, count.bare_bare, body.bare_bare]
  | .function _ _ body _ => by
    rw [Node.bare, Node.bare, body.bare_bare, Option.map_map, List.map_map]
    rfl
  | .call callee arguments _ => by
    rw [Node.bare, Node.bare, callee.bare_bare, Node.bareAll_bareAll arguments]
  | .returning value _ => by rw [Node.bare, Node.bare, Node.bareOption_bareOption value]

theorem Node.bareAll_bareAll : (nodes : List Node) →
    Node.bareAll (Node.bareAll nodes) = Node.bareAll nodes
  | [] => rfl
  | node :: rest => by
    rw [Node.bareAll, Node.bareAll, node.bare_bare, Node.bareAll_bareAll rest]

theorem Node.bareOption_bareOption : (node : Option Node) →
    Node.bareOption (Node.bareOption node) = Node.bareOption node
  | none => rfl
  | some node => by rw [Node.bareOption, Node.bareOption, node.bare_bare]

theorem Body.bare_bare : (body : Body) → body.bare.bare = body.bare
  | .inline statement => by rw [Body.bare, Body.bare, statement.bare_bare]
  | .block statements _ => by rw [Body.bare, Body.bare, Node.bareAll_bareAll statements]

theorem Branches.bare_bare : (others : Branches) → others.bare.bare = others.bare
  | .none => rfl
  | .otherwise body => by rw [Branches.bare, Branches.bare, body.bare_bare]
  | .elif condition body others => by
    rw [Branches.bare, Branches.bare, condition.bare_bare, body.bare_bare, others.bare_bare]

end

theorem Node.bareAll_eq_map (nodes : List Node) : Node.bareAll nodes = nodes.map Node.bare := by
  induction nodes with
  | nil => rfl
  | cons node rest ih => rw [Node.bareAll, ih, List.map_cons]

theorem Node.span_bare (node : Node) : node.bare.span = nowhere := by
  cases node <;> rfl

theorem Body.span_bare (body : Body) : body.bare.span = nowhere := by
  cases body with
  | inline statement => exact statement.span_bare
  | block => rfl

def Block.bare (block : Block) : Block :=
  ⟨block.statements.map Node.bare, nowhere⟩

theorem Block.bare_bare (block : Block) : block.bare.bare = block.bare := by
  rw [Block.bare, Block.bare, ← Node.bareAll_eq_map, ← Node.bareAll_eq_map,
    Node.bareAll_bareAll]

end Primer
