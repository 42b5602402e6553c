import Primer.Proofs.Program.Occurrence

/-!
# Where `break` and `continue` stand

A `break` or `continue` is in place when it stands in the body of a loop of the same call. The header
of a loop (its condition, its count, its limits) belongs to what is around the loop, and the body of a
function starts anew: there is no loop around it, wherever the function is written.
-/

namespace Primer

mutual

/-- Every `break` and `continue` of the node is in place, where `inLoop` tells whether the node itself
stands in the body of a loop. -/
def Node.placed (inLoop : Bool) : Node → Bool
  | .number _ _ => true
  | .string _ _ => true
  | .list elements _ => Node.placedAll inLoop elements
  | .variable _ => true
  | .assign _ value _ => value.placed inLoop
  | .binary left _ right _ => left.placed inLoop && right.placed inLoop
  | .unary _ operand _ => operand.placed inLoop
  | .conditional condition body others _ =>
    condition.placed inLoop && body.placed inLoop && others.placed inLoop
  | .forLoop _ first limit step body _ =>
    first.placed inLoop && limit.placed inLoop && Node.placedOption inLoop step && body.placed true
  | .whileLoop condition body _ => condition.placed inLoop && body.placed true
  | .repeatLoop count body _ => count.placed inLoop && body.placed true
  | .function _ _ body _ => body.placed false
  | .call callee arguments _ => callee.placed inLoop && Node.placedAll inLoop arguments
  | .returning value _ => Node.placedOption inLoop value
  | .continuing _ => inLoop
  | .breaking _ => inLoop

def Node.placedAll (inLoop : Bool) : List Node → Bool
  | [] => true
  | node :: rest => node.placed inLoop && Node.placedAll inLoop rest

def Node.placedOption (inLoop : Bool) : Option Node → Bool
  | none => true
  | some node => node.placed inLoop

def Body.placed (inLoop : Bool) : Body → Bool
  | .inline statement => statement.placed inLoop
  | .block statements _ => Node.placedAll inLoop statements

def Branches.placed (inLoop : Bool) : Branches → Bool
  | .none => true
  | .otherwise body => body.placed inLoop
  | .elif condition body others =>
    condition.placed inLoop && body.placed inLoop && others.placed inLoop

end

/-- At the top of a program there is no loop. -/
def Block.placed (program : Block) : Bool :=
  program.statements.all (Node.placed false)

variable {inLoop : Bool}

@[simp] theorem Node.placedAll_iff {nodes : List Node} :
    Node.placedAll inLoop nodes = true ↔ ∀ node ∈ nodes, node.placed inLoop = true := by
  induction nodes with
  | nil => simp [placedAll]
  | cons node rest ih => simp [placedAll, ih]

@[simp] theorem Node.placedOption_iff {node : Option Node} :
    Node.placedOption inLoop node = true ↔ ∀ inner ∈ node.toList, inner.placed inLoop = true := by
  cases node <;> simp [placedOption]

@[simp] theorem Body.placed_iff {body : Body} :
    body.placed inLoop = true ↔ ∀ node ∈ body.statements, node.placed inLoop = true := by
  cases body <;> simp [placed, statements]

@[simp] theorem Branches.placed_iff {others : Branches} :
    others.placed inLoop = true ↔ ∀ node ∈ others.nodes, node.placed inLoop = true := by
  cases others with
  | none => simp [placed, nodes]
  | otherwise body => simp [placed, nodes]
  | elif condition body others =>
    have rest : others.placed inLoop = true ↔ ∀ node ∈ others.nodes, node.placed inLoop = true :=
      Branches.placed_iff
    simp [placed, nodes, rest, or_imp, forall_and, and_assoc]

@[simp] theorem Block.placed_iff {program : Block} :
    program.placed = true ↔ ∀ node ∈ program.statements, node.placed false = true := by
  simp [placed]

/-- What is evaluated with a node is in place too, though a loop may lie in between. -/
theorem Node.exists_placed_of_child {node child : Node} (placed : node.placed inLoop = true)
    (member : child ∈ node.children) : ∃ inner, child.placed inner = true := by
  cases node <;> simp [Node.placed, children] at placed member <;> grind

end Primer
