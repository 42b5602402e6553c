import Primer.Proofs.Parsing.InStep
import Primer.Proofs.Program.Occurrence

/-!
# What holds of whatever is parsed

A property of nodes that the grammar preserves holds of every node of a parsed program: a parser in step
with itself keeps the property on both sides. The same simulation says where a parser stops: an error
is reported at the current token.
-/

namespace Primer

/-- The span of an operation reaches from its left operand to its right one. -/
def Node.Joined : Node → Prop
  | .binary left _ right span => span = left.span.through right.span
  | _ => True

/-- A property of nodes that passes from the parts of a node to the node. -/
def Hereditary (good : Node → Prop) : Prop :=
  ∀ node : Node, node.Joined → (∀ part ∈ node.parts, good part) → good node

/-- A node without parts has what is inherited. -/
theorem Hereditary.leaf {good : Node → Prop} (hereditary : Hereditary good) {node : Node}
    (joined : node.Joined) (alone : node.parts = []) : good node :=
  hereditary node joined (alone ▸ List.forall_mem_nil good)

namespace Simulation

/-- A parser beside itself, with a property of the nodes it builds. -/
def diagonal (good : Node → Prop) : Simulation where
  lexemes lexeme lexeme' := lexeme = lexeme'
  errors error error' left _ := error = error' ∧ error.span = left.span
  spans span span' := span = span'
  idents ident ident' := ident = ident'
  nodes node node' := node = node' ∧ good node
  bodies body body' := body = body' ∧ ∀ statement ∈ body.statements, good statement
  branches others others' := others = others' ∧ ∀ node ∈ others.nodes, good node

variable {good : Node → Prop}

theorem diagonal_tokens {tokens tokens' : Tokens} (same : (diagonal good).tokens tokens tokens') :
    tokens = tokens' :=
  List.forall₂_eq_eq_eq ▸ same

theorem diagonal_nodes {nodes nodes' : List Node}
    (same : List.Forall₂ (diagonal good).nodes nodes nodes') :
    nodes = nodes' ∧ ∀ node ∈ nodes, good node := by
  induction same with
  | nil => exact ⟨rfl, nofun⟩
  | cons first _ ih =>
    obtain ⟨rfl, holds⟩ := first
    exact ⟨congrArg _ ih.1, List.forall_mem_cons.mpr ⟨holds, ih.2⟩⟩

theorem diagonal_option {node node' : Option Node}
    (same : Option.Rel (diagonal good).nodes node node') :
    node = node' ∧ ∀ part ∈ node.toList, good part := by
  cases same with
  | none => exact ⟨rfl, nofun⟩
  | some nodes =>
    obtain ⟨rfl, holds⟩ := nodes
    exact ⟨rfl, by simpa using holds⟩

theorem diagonal_lawful (hereditary : Hereditary good) : (diagonal good).Lawful where
  token same := congrArg _ same
  span same := congrArg _ same
  noSpan := rfl
  unexpected _ same := by cases diagonal_tokens same; exact ⟨rfl, rfl⟩
  expectedIdent same := by cases diagonal_tokens same; exact ⟨rfl, rfl⟩
  expectedExpression same := by cases diagonal_tokens same; exact ⟨rfl, rfl⟩
  ident _ same := by cases same; rfl
  number value same := by cases same; exact ⟨rfl, hereditary.leaf trivial rfl⟩
  string value same := by cases same; exact ⟨rfl, hereditary.leaf trivial rfl⟩
  list first last elements := by
    cases first; cases last
    obtain ⟨rfl, holds⟩ := diagonal_nodes elements
    exact ⟨rfl, hereditary _ trivial holds⟩
  access same := by cases same; exact ⟨rfl, hereditary.leaf trivial rfl⟩
  assign target value := by
    cases target
    obtain ⟨rfl, holds⟩ := value
    exact ⟨rfl, hereditary _ trivial (List.forall_mem_singleton.mpr holds)⟩
  binary operator left right := by
    obtain ⟨rfl, first⟩ := left
    obtain ⟨rfl, second⟩ := right
    exact ⟨rfl, hereditary _ rfl (by simp [Node.parts, Node.children, first, second])⟩
  unary operator here operand := by
    cases here
    obtain ⟨rfl, holds⟩ := operand
    exact ⟨rfl, hereditary _ trivial (List.forall_mem_singleton.mpr holds)⟩
  conditional condition body others := by
    obtain ⟨rfl, first⟩ := condition
    obtain ⟨rfl, second⟩ := body
    obtain ⟨rfl, third⟩ := others
    exact ⟨rfl, hereditary _ trivial
      (List.forall_mem_cons.mpr ⟨first, List.forall_mem_append.mpr ⟨second, third⟩⟩)⟩
  forLoop counter first limit step body := by
    cases counter
    obtain ⟨rfl, first⟩ := first
    obtain ⟨rfl, second⟩ := limit
    obtain ⟨rfl, third⟩ := diagonal_option step
    obtain ⟨rfl, fourth⟩ := body
    exact ⟨rfl, hereditary _ trivial (List.forall_mem_cons.mpr ⟨first,
      List.forall_mem_cons.mpr ⟨second, List.forall_mem_append.mpr ⟨third, fourth⟩⟩⟩)⟩
  whileLoop condition body := by
    obtain ⟨rfl, first⟩ := condition
    obtain ⟨rfl, second⟩ := body
    exact ⟨rfl, hereditary _ trivial (List.forall_mem_cons.mpr ⟨first, second⟩)⟩
  repeatLoop count body := by
    obtain ⟨rfl, first⟩ := count
    obtain ⟨rfl, second⟩ := body
    exact ⟨rfl, hereditary _ trivial (List.forall_mem_cons.mpr ⟨first, second⟩)⟩
  function := by
    intro name name' params params' body body' names idents bodies
    have sameName : name = name' := by
      cases names with
      | none => rfl
      | some same => exact congrArg some same
    have sameParams : params = params' := List.forall₂_eq_eq_eq ▸ idents
    obtain ⟨rfl, holds⟩ := bodies
    cases sameName; cases sameParams
    exact ⟨rfl, hereditary _ trivial holds⟩
  call callee arguments := by
    obtain ⟨rfl, first⟩ := callee
    obtain ⟨rfl, rest⟩ := diagonal_nodes arguments
    exact ⟨rfl, hereditary _ trivial (List.forall_mem_cons.mpr ⟨first, rest⟩)⟩
  returnNothing here := by cases here; exact ⟨rfl, hereditary.leaf trivial rfl⟩
  returnValue here value := by
    cases here
    obtain ⟨rfl, holds⟩ := value
    exact ⟨rfl, hereditary _ trivial (List.forall_mem_singleton.mpr holds)⟩
  continuing here := by cases here; exact ⟨rfl, hereditary.leaf trivial rfl⟩
  breaking here := by cases here; exact ⟨rfl, hereditary.leaf trivial rfl⟩
  inline statement := by
    obtain ⟨rfl, holds⟩ := statement
    exact ⟨rfl, List.forall_mem_singleton.mpr holds⟩
  block here statements := by
    cases here
    obtain ⟨rfl, holds⟩ := diagonal_nodes statements
    exact ⟨rfl, holds⟩
  noBranch := ⟨rfl, nofun⟩
  otherwise body := by
    obtain ⟨rfl, holds⟩ := body
    exact ⟨rfl, holds⟩
  elif condition body others := by
    obtain ⟨rfl, first⟩ := condition
    obtain ⟨rfl, second⟩ := body
    obtain ⟨rfl, third⟩ := others
    exact ⟨rfl, List.forall_mem_cons.mpr ⟨first, List.forall_mem_append.mpr ⟨second, third⟩⟩⟩

end Simulation

namespace Grammar

open Simulation

/-- A parser beside itself. -/
abbrev reflexive : Simulation :=
  diagonal fun _ => True

theorem reflexive_lawful : reflexive.Lawful :=
  diagonal_lawful fun _ _ _ => trivial

theorem reflexive_tokens {good : Node → Prop} (tokens : Tokens) :
    (diagonal good).tokens tokens tokens :=
  List.forall₂_same.mpr fun _ _ => rfl

/-- Parsers in step on one list of tokens give the same. -/
theorem eq_of_outcomes {α : Type} {post : α → α → Prop} {length d : Nat}
    {result result' : EStateM.Result ParseError Tokens α} (equal : ∀ a a', post a a' → a = a')
    (outcomes : reflexive.Outcomes length d post result result') : result = result' := by
  cases outcomes with
  | ok tokens _ results => rw [diagonal_tokens tokens, equal _ _ results]
  | error tokens _ errors => rw [diagonal_tokens tokens, errors.1]

private theorem program_outcomes {good : Node → Prop} (hereditary : Hereditary good)
    (tokens : Tokens) :
    (diagonal good).Outcomes tokens.length 0 (diagonal good).blocks (program tokens)
      (program tokens) :=
  (diagonal_lawful hereditary).program tokens tokens (reflexive_tokens tokens) (Nat.le_refl _)

/-- What the grammar preserves holds of every statement of a parsed program. -/
theorem good_of_program {good : Node → Prop} (hereditary : Hereditary good) {tokens left : Tokens}
    {block : Block} (parsed : program tokens = .ok block left) :
    ∀ statement ∈ block.statements, good statement := by
  have outcomes := program_outcomes hereditary tokens
  rw [parsed] at outcomes
  cases outcomes with
  | ok _ _ blocks => exact (diagonal_nodes blocks.1).2

/-- A program that cannot be parsed fails at the token that is current then. -/
theorem span_of_program_error {tokens left : Tokens} {error : ParseError}
    (failed : program tokens = .error error left) : error.span = left.span := by
  have anything : Hereditary fun _ => True := fun _ _ _ => trivial
  have outcomes := program_outcomes anything tokens
  rw [failed] at outcomes
  cases outcomes with
  | error _ _ errors => exact errors.2

end Grammar

end Primer
