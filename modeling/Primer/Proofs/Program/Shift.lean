import Mathlib
import Primer.Program.Grammar

/-!
# Programs further down

What stands further down in a source has all its spans moved by the same number of bytes. Joining
spans, and with it everything the grammar says about the span of a construct, goes along with that.
-/

namespace Primer

def Span.shift (offset : Nat) (span : Span) : Span :=
  ⟨span.start + offset, span.stop + offset⟩

def Ident.shift (offset : Nat) (ident : Ident) : Ident :=
  ⟨ident.name, ident.span.shift offset⟩

def Lexeme.shift (offset : Nat) (lexeme : Lexeme) : Lexeme :=
  ⟨lexeme.token, lexeme.span.shift offset⟩

mutual

/-- The node with all its spans moved. -/
def Node.shift (offset : Nat) : Node → Node
  | .number value span => .number value (span.shift offset)
  | .string value span => .string value (span.shift offset)
  | .list elements span => .list (Node.shiftAll offset elements) (span.shift offset)
  | .variable ident => .variable (ident.shift offset)
  | .assign target value span =>
    .assign (target.shift offset) (value.shift offset) (span.shift offset)
  | .binary left operator right span =>
    .binary (left.shift offset) operator (right.shift offset) (span.shift offset)
  | .unary operator operand span => .unary operator (operand.shift offset) (span.shift offset)
  | .conditional condition body others span =>
    .conditional (condition.shift offset) (body.shift offset) (others.shift offset)
      (span.shift offset)
  | .forLoop counter first limit step body span =>
    .forLoop (counter.shift offset) (first.shift offset) (limit.shift offset)
      (Node.shiftOption offset step) (body.shift offset) (span.shift offset)
  | .whileLoop condition body span =>
    .whileLoop (condition.shift offset) (body.shift offset) (span.shift offset)
  | .repeatLoop count body span =>
    .repeatLoop (count.shift offset) (body.shift offset) (span.shift offset)
  | .function name params body span =>
    .function (name.map (Ident.shift offset)) (params.map (Ident.shift offset))
      (body.shift offset) (span.shift offset)
  | .call callee arguments span =>
    .call (callee.shift offset) (Node.shiftAll offset arguments) (span.shift offset)
  | .returning value span => .returning (Node.shiftOption offset value) (span.shift offset)
  | .continuing span => .continuing (span.shift offset)
  | .breaking span => .breaking (span.shift offset)

def Node.shiftAll (offset : Nat) : List Node → List Node
  | [] => []
  | node :: rest => node.shift offset :: Node.shiftAll offset rest

def Node.shiftOption (offset : Nat) : Option Node → Option Node
  | none => none
  | some node => some (node.shift offset)

def Body.shift (offset : Nat) : Body → Body
  | .inline statement => .inline (statement.shift offset)
  | .block statements span => .block (Node.shiftAll offset statements) (span.shift offset)

def Branches.shift (offset : Nat) : Branches → Branches
  | .none => .none
  | .otherwise body => .otherwise (body.shift offset)
  | .elif condition body others =>
    .elif (condition.shift offset) (body.shift offset) (others.shift offset)

end

def Block.shift (offset : Nat) (block : Block) : Block :=
  ⟨block.statements.map (Node.shift offset), block.span.shift offset⟩

section Zero

@[simp] theorem Span.shift_zero (span : Span) : span.shift 0 = span := rfl

@[simp] theorem Ident.shift_zero : Ident.shift 0 = id := rfl

@[simp] theorem Lexeme.shift_zero : Lexeme.shift 0 = id := rfl

mutual

theorem Node.shift_zero : (node : Node) → node.shift 0 = node
  | .number .. | .string .. | .variable _ | .continuing _ | .breaking _ => rfl
  | .list elements _ => by simp [Node.shift, Node.shiftAll_zero elements]
  | .assign _ value _ => by simp [Node.shift, value.shift_zero]
  | .binary left _ right _ => by simp [Node.shift, left.shift_zero, right.shift_zero]
  | .unary _ operand _ => by simp [Node.shift, operand.shift_zero]
  | .conditional condition body others _ => by
    simp [Node.shift, condition.shift_zero, body.shift_zero, others.shift_zero]
  | .forLoop _ first limit step body _ => by
    simp [Node.shift, first.shift_zero, limit.shift_zero, Node.shiftOption_zero step,
      body.shift_zero]
  | .whileLoop condition body _ => by simp [Node.shift, condition.shift_zero, body.shift_zero]
  | .repeatLoop count body _ => by simp [Node.shift, count.shift_zero, body.shift_zero]
  | .function _ _ body _ => by simp [Node.shift, body.shift_zero]
  | .call callee arguments _ => by
    simp [Node.shift, callee.shift_zero, Node.shiftAll_zero arguments]
  | .returning value _ => by simp [Node.shift, Node.shiftOption_zero value]

theorem Node.shiftAll_zero : (nodes : List Node) → Node.shiftAll 0 nodes = nodes
  | [] => rfl
  | node :: rest => by simp [Node.shiftAll, node.shift_zero, Node.shiftAll_zero rest]

theorem Node.shiftOption_zero : (node : Option Node) → Node.shiftOption 0 node = node
  | none => rfl
  | some node => by simp [Node.shiftOption, node.shift_zero]

theorem Body.shift_zero : (body : Body) → body.shift 0 = body
  | .inline statement => by simp [Body.shift, statement.shift_zero]
  | .block statements _ => by simp [Body.shift, Node.shiftAll_zero statements]

theorem Branches.shift_zero : (others : Branches) → others.shift 0 = others
  | .none => rfl
  | .otherwise body => by simp [Branches.shift, body.shift_zero]
  | .elif condition body others => by
    simp [Branches.shift, condition.shift_zero, body.shift_zero, others.shift_zero]

end

@[simp] theorem Node.shift_zero_eq_id : Node.shift 0 = id :=
  funext Node.shift_zero

end Zero

section Spans

variable (offset : Nat)

theorem Span.shift_through (first last : Span) :
    (first.through last).shift offset = (first.shift offset).through (last.shift offset) := rfl

@[simp] theorem Node.shiftAll_eq_map (nodes : List Node) :
    Node.shiftAll offset nodes = nodes.map (Node.shift offset) := by
  induction nodes with
  | nil => rfl
  | cons node rest ih => rw [Node.shiftAll, ih, List.map_cons]

@[simp] theorem Node.shiftOption_eq_map (node : Option Node) :
    Node.shiftOption offset node = node.map (Node.shift offset) := by
  cases node <;> rfl

@[simp] theorem Node.span_shift (node : Node) :
    (node.shift offset).span = node.span.shift offset := by
  cases node <;> rfl

@[simp] theorem Body.span_shift (body : Body) :
    (body.shift offset).span = body.span.shift offset := by
  cases body with
  | inline statement => exact statement.span_shift offset
  | block => rfl

@[simp] theorem Block.toBody_shift (block : Block) :
    (block.shift offset).toBody = block.toBody.shift offset := by
  simp [Block.shift, Block.toBody, Body.shift]

@[simp] theorem Branches.lastBody_shift : (others : Branches) → (body : Body) →
    (others.shift offset).lastBody (body.shift offset) = (others.lastBody body).shift offset
  | .none, _ | .otherwise _, _ => rfl
  | .elif _ body others, _ => others.lastBody_shift body

namespace Grammar

@[simp] theorem blockSpan_shift (start : Nat) (nodes : List Node) :
    blockSpan (start + offset) (nodes.map (Node.shift offset))
      = (blockSpan start nodes).shift offset := by
  simp only [blockSpan, List.head?_map, List.getLast?_map]
  cases nodes.head? with
  | none => rfl
  | some first =>
    cases nodes.getLast? with
    | none => rfl
    | some last => simp [Span.shift_through]

@[simp] theorem functionStart_shift (name : Option Ident) (params : List Ident) (body : Body) :
    functionStart (name.map (Ident.shift offset)) (params.map (Ident.shift offset))
        (body.shift offset)
      = (functionStart name params body).shift offset := by
  cases name with
  | some => rfl
  | none =>
    cases params with
    | nil => exact body.span_shift offset
    | cons => rfl

end Grammar

end Spans

end Primer
