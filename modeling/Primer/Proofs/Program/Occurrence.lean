import Mathlib
import Primer.Program.Node

/-!
# Where nodes occur

The children of a node are the nodes that are evaluated with it, in the same call. The body of a
function is left out, because it is evaluated in calls of its own; `Node.parts` has it as well. A node
occurs in code when it is reached from one of the statements through children, and in a program when
it is reached through parts.
-/

namespace Primer

/-- The statements that a body runs. -/
def Body.statements : Body → List Node
  | .inline statement => [statement]
  | .block statements _ => statements

/-- The conditions and the statements of branches. -/
def Branches.nodes : Branches → List Node
  | .none => []
  | .otherwise body => body.statements
  | .elif condition body others => condition :: body.statements ++ others.nodes

namespace Node

/-- The nodes evaluated with a node, in the same call. -/
def children : Node → List Node
  | .list elements _ => elements
  | .assign _ value _ => [value]
  | .binary left _ right _ => [left, right]
  | .unary _ operand _ => [operand]
  | .conditional condition body others _ => condition :: body.statements ++ others.nodes
  | .forLoop _ first limit step body _ => first :: limit :: step.toList ++ body.statements
  | .whileLoop condition body _ => condition :: body.statements
  | .repeatLoop count body _ => count :: body.statements
  | .call callee arguments _ => callee :: arguments
  | .returning value _ => value.toList
  | _ => []

/-- The nodes directly below a node in the syntax tree. -/
def parts : Node → List Node
  | .function _ _ body _ => body.statements
  | node => node.children

/-- `inner` is evaluated in the course of evaluating `outer`, in the same call. -/
def OccursIn (inner outer : Node) : Prop :=
  Relation.ReflTransGen (fun child parent => child ∈ parent.children) inner outer

/-- `inner` stands somewhere in the syntax tree of `outer`. -/
def PartOf (inner outer : Node) : Prop :=
  Relation.ReflTransGen (fun part whole => part ∈ whole.parts) inner outer

/-- The name a node binds in the scope it is evaluated in. -/
def bound? : Node → Option String
  | .assign target _ _ => some target.name
  | .forLoop counter _ _ _ _ _ => some counter.name
  | .function name _ _ _ => name.map Ident.name
  | _ => none

theorem mem_parts_of_mem_children {child node : Node} (member : child ∈ node.children) :
    child ∈ node.parts := by
  cases node with
  | function => simp [children] at member
  | _ => exact member

theorem OccursIn.partOf {inner outer : Node} (occurs : inner.OccursIn outer) :
    inner.PartOf outer :=
  Relation.ReflTransGen.mono (fun _ _ => mem_parts_of_mem_children) _ _ occurs

end Node

theorem Body.sizeOf_lt {body : Body} {node : Node} (member : node ∈ body.statements) :
    sizeOf node < sizeOf body := by
  cases body with
  | inline statement => simp_all [statements]
  | block statements span =>
    have smaller := List.sizeOf_lt_of_mem (show node ∈ statements from member)
    simp only [block.sizeOf_spec]
    omega

theorem Branches.sizeOf_lt {others : Branches} {node : Node} (member : node ∈ others.nodes) :
    sizeOf node < sizeOf others := by
  match others with
  | .none => simp [nodes] at member
  | .otherwise body =>
    have smaller := Body.sizeOf_lt (show node ∈ body.statements from member)
    simp only [otherwise.sizeOf_spec]
    omega
  | .elif condition body rest =>
    simp only [nodes, List.cons_append, List.mem_cons, List.mem_append] at member
    simp only [elif.sizeOf_spec]
    rcases member with rfl | member | member
    · omega
    · have smaller := Body.sizeOf_lt member
      omega
    · have smaller := Branches.sizeOf_lt member
      omega

namespace Node

theorem sizeOf_lt {node part : Node} (member : part ∈ node.parts) :
    sizeOf part < sizeOf node := by
  have inList {nodes : List Node} (member : part ∈ nodes) := List.sizeOf_lt_of_mem member
  have inBody {body : Body} (member : part ∈ body.statements) := Body.sizeOf_lt member
  have inBranches {others : Branches} (member : part ∈ others.nodes) := Branches.sizeOf_lt member
  cases node <;> simp [parts, children] at member ⊢ <;> grind

/-- Induction over syntax trees: from the parts of a node to the node. -/
@[elab_as_elim]
theorem parts_induction {motive : Node → Prop}
    (step : ∀ node, (∀ part ∈ node.parts, motive part) → motive node) (node : Node) :
    motive node :=
  (measure (sizeOf : Node → Nat)).wf.induction node fun node ih =>
    step node fun part member => ih part (sizeOf_lt member)

/-- What holds everywhere in a node holds of it and everywhere in its parts. -/
theorem forall_partOf_iff {node : Node} {holds : Node → Prop} :
    (∀ inner, inner.PartOf node → holds inner) ↔
      holds node ∧ ∀ part ∈ node.parts, ∀ inner, inner.PartOf part → holds inner := by
  constructor
  · intro everywhere
    exact ⟨everywhere node .refl, fun part member inner inside =>
      everywhere inner (inside.tail member)⟩
  · rintro ⟨here, below⟩ inner inside
    obtain rfl | ⟨part, inside, member⟩ := inside.cases_tail
    · exact here
    · exact below part member inner inside

end Node

/-- The node occurs in the code of one call: the statements of a program or of a function body. -/
def OccursInCode (node : Node) (code : List Node) : Prop :=
  ∃ statement ∈ code, node.OccursIn statement

/-- The node stands somewhere in a program, in the bodies of its functions too. -/
def Block.Contains (program : Block) (node : Node) : Prop :=
  ∃ statement ∈ program.statements, node.PartOf statement

end Primer
