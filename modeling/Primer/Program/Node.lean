import Primer.Number
import Primer.Token.Basic

/-!
# Programs

The syntax tree. The body of a loop, a branch or a function is either one statement on the same line,
whose value counts, or a block of statements, whose value is null. `Branches` is what follows the
first branch of a conditional, so that a conditional always has one.
-/

namespace Primer

structure Ident where
  name : String
  span : Span
  deriving DecidableEq, Inhabited

mutual

/-- An expression or a statement. -/
inductive Node where
  | number (value : Number) (span : Span)
  | string (value : String) (span : Span)
  | list (elements : List Node) (span : Span)
  | variable (ident : Ident)
  | assign (target : Ident) (value : Node) (span : Span)
  | binary (left : Node) (operator : Token) (right : Node) (span : Span)
  | unary (operator : Token) (operand : Node) (span : Span)
  | conditional (condition : Node) (body : Body) (others : Branches) (span : Span)
  | forLoop (counter : Ident) (first limit : Node) (step : Option Node) (body : Body) (span : Span)
  | whileLoop (condition : Node) (body : Body) (span : Span)
  | repeatLoop (count : Node) (body : Body) (span : Span)
  | function (name : Option Ident) (params : List Ident) (body : Body) (span : Span)
  | call (callee : Node) (arguments : List Node) (span : Span)
  | returning (value : Option Node) (span : Span)
  | continuing (span : Span)
  | breaking (span : Span)

/-- What a loop, a branch or a function runs. -/
inductive Body where
  | inline (statement : Node)
  | block (statements : List Node) (span : Span)

/-- The branches of a conditional after its first. -/
inductive Branches where
  | none
  | otherwise (body : Body)
  | elif (condition : Node) (body : Body) (others : Branches)

end

instance : Inhabited Node := ⟨.breaking default⟩

namespace Node

def span : Node → Span
  | .number _ span => span
  | .string _ span => span
  | .list _ span => span
  | .variable ident => ident.span
  | .assign _ _ span => span
  | .binary _ _ _ span => span
  | .unary _ _ span => span
  | .conditional _ _ _ span => span
  | .forLoop _ _ _ _ _ span => span
  | .whileLoop _ _ span => span
  | .repeatLoop _ _ span => span
  | .function _ _ _ span => span
  | .call _ _ span => span
  | .returning _ span => span
  | .continuing span => span
  | .breaking span => span

end Node

namespace Body

def span : Body → Span
  | .inline statement => statement.span
  | .block _ span => span

def isBlock : Body → Bool
  | .inline _ => false
  | .block _ _ => true

end Body

namespace Branches

/-- The last body of a conditional whose earlier ones end in `body`. -/
def lastBody (body : Body) : Branches → Body
  | .none => body
  | .otherwise last => last
  | .elif _ body others => others.lastBody body

end Branches

/-- A sequence of statements: the whole of a program, or the block of a body. -/
structure Block where
  statements : List Node
  span : Span

def Block.toBody (block : Block) : Body :=
  .block block.statements block.span

end Primer
