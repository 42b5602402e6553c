import Primer.Proofs.Parsing.Run

/-!
# One turn of a loop

The loops of the grammar count down a budget that bounds the tokens left. Here each is one turn on top
of a parser for the turns to come, as an expression is on top of a parser for the ones inside it.
-/

namespace Primer

namespace Grammar

/-- What follows a statement of a block. -/
def statementEnd (others : Parser (List Node)) (first : Node) : Parser (List Node) := do
  match ← Parser.current with
  | .newline =>
    Parser.skipNewlines
    return first :: (← others)
  | token =>
    if token.isBlockEnd then return [first]
    else Parser.unexpected ["a newline or `;`", "an operator"]

/-- The end of a block, or a statement and what follows it. -/
def statementsOver (inner : Inner) (others : Parser (List Node)) : Parser (List Node) := do
  if (← Parser.current).isBlockEnd then return []
  else statement inner >>= statementEnd others

/-- What follows an expression of a list. -/
def elementEnd (closing : Token) (others : Parser (List Node × Span)) (first : Node) :
    Parser (List Node × Span) := do
  let token ← Parser.current
  if token = .comma then
    Parser.step
    let (others, stop) ← others
    return (first :: others, stop)
  else if token = closing then
    let stop ← Parser.span
    Parser.step
    return ([first], stop)
  else Parser.unexpected ["`,`", "`" ++ closing.literal ++ "`"]

/-- An expression and what follows it, up to a closing token. -/
def expressionsOver (inner : Inner) (closing : Token) (others : Parser (List Node × Span)) :
    Parser (List Node × Span) :=
  inner none >>= elementEnd closing others

/-- What follows the body of a branch. -/
def branchEnd (inner : Inner) (others : Parser (Node × Body × Branches)) (condition : Node)
    (isBlock : Bool) (first : Body) : Parser (Node × Body × Branches) := do
  match ← Parser.current with
  | .keyword .endWord =>
    Parser.step
    return (condition, first, .none)
  | .keyword .elifWord =>
    Parser.step
    let (next, second, others) ← others
    return (condition, first, .elif next second others)
  | .keyword .elseWord =>
    Parser.step
    return (condition, first, .otherwise (← body inner))
  | _ =>
    if isBlock then Parser.unexpected ["`end`", "`elif`", "`else`"]
    else return (condition, first, .none)

/-- A condition, its body, and the branches after it. -/
def branchesOver (inner : Inner) (others : Parser (Node × Body × Branches)) :
    Parser (Node × Body × Branches) := do
  let condition ← inner none
  discard (Parser.expect (.keyword .thenWord))
  let isBlock ← Parser.atBlockStart
  let first ← branchBody inner isBlock
  branchEnd inner others condition isBlock first

/-- What follows a parameter. -/
def paramEnd (others : Parser (List Ident)) (first : Ident) : Parser (List Ident) := do
  match ← Parser.current with
  | .comma =>
    Parser.step
    return first :: (← others)
  | .rightParen => return [first]
  | _ => Parser.unexpected ["`,`", "`)`"]

/-- A parameter and the ones after it. -/
def paramsOver (others : Parser (List Ident)) : Parser (List Ident) :=
  Parser.ident >>= paramEnd others

/-- An operator or a call after an operand, and what follows it. -/
def continuationOver (inner : Inner) (precedence : Precedence) (others : Node → Parser Node)
    (left : Node) : Parser Node := do
  let token ← Parser.current
  if precedence.looser token.precedence then
    (if token = .leftParen then call inner left else binary inner left) >>= others
  else return left

variable (inner : Inner) (budget : Nat)

theorem statements_succ :
    statements inner (budget + 1) = statementsOver inner (statements inner budget) := rfl

theorem expressions_succ (closing : Token) :
    expressions inner closing (budget + 1)
      = expressionsOver inner closing (expressions inner closing budget) := rfl

theorem branches_succ :
    branches inner (budget + 1) = branchesOver inner (branches inner budget) := rfl

theorem params_succ : params (budget + 1) = paramsOver (params budget) := rfl

theorem continuation_succ (precedence : Precedence) (left : Node) :
    continuation inner precedence (budget + 1) left
      = continuationOver inner precedence (continuation inner precedence budget) left := by
  funext tokens
  simp only [continuation, continuationOver, Parser.run_current]
  split
  · split <;> rfl
  · rfl

end Grammar

end Primer
