import Primer.Token.Basic

/-!
# Binding strength

How tightly a token binds the expression before it to the one after it. Tokens that are no operators
bind least of all, which is what ends an expression.
-/

namespace Primer

/-- Binding strengths, loosest first. -/
inductive Precedence where
  | lowest | logical | comparison | sum | product | unary | power | call
  deriving DecidableEq, Repr

namespace Precedence

def all : List Precedence :=
  [lowest, logical, comparison, sum, product, unary, power, call]

def rank : Precedence → Nat
  | lowest => 0
  | logical => 1
  | comparison => 2
  | sum => 3
  | product => 4
  | unary => 5
  | power => 6
  | call => 7

def label : Precedence → String
  | lowest => "Lowest"
  | logical => "Logical"
  | comparison => "Comparison"
  | sum => "Sum"
  | product => "Product"
  | unary => "Unary"
  | power => "Power"
  | call => "Call"

def ofLabel? (name : String) : Option Precedence :=
  all.find? fun precedence => precedence.label == name

/-- Binds more loosely. -/
def looser (p q : Precedence) : Bool :=
  p.rank < q.rank

end Precedence

/-- How tightly a token binds as an infix operator. -/
def Token.precedence (token : Token) : Precedence :=
  match token with
  | .keyword .andWord | .keyword .orWord => .logical
  | .plus | .minus => .sum
  | .times | .divide => .product
  | .power => .power
  | .leftParen => .call
  | _ => if token.isComparison then .comparison else .lowest

end Primer
