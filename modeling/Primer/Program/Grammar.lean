import Primer.Program.Parser
import Primer.Token.Lexer

/-!
# The grammar

One parser per construct. Each takes the parser for the expressions inside it as an argument, so the
only recursion is in `expressionWithin`, on a budget that bounds the tokens left. Every construct
passes a token before it asks for an inner expression, so a budget of as many tokens as there are
is never felt: when it is spent no token is left, and then the answer given here is the one that any
greater budget would give. The loops below count down in the same way.
-/

namespace Primer

namespace Grammar

/-- A parser for the expressions inside a construct, by the precedence of the operator before it. -/
abbrev Inner := Option Precedence → Parser Node

/-- `return` with or without a value, `continue`, `break`, or an expression. -/
def statement (inner : Inner) : Parser Node := do
  let here ← Parser.span
  match ← Parser.current with
  | .keyword .returnWord =>
    Parser.step
    let token ← Parser.current
    if token = .newline || token.isBlockEnd then return .returning none here
    else
      let value ← inner none
      return .returning (some value) (here.through value.span)
  | .keyword .continueWord =>
    Parser.step
    return .continuing here
  | .keyword .breakWord =>
    Parser.step
    return .breaking here
  | _ => inner none

/-- Statements up to the end of a block. -/
def statements (inner : Inner) : Nat → Parser (List Node)
  | 0 => return []
  | budget + 1 => do
    if (← Parser.current).isBlockEnd then return []
    else
      let first ← statement inner
      match ← Parser.current with
      | .newline =>
        Parser.skipNewlines
        return first :: (← statements inner budget)
      | token =>
        if token.isBlockEnd then return [first]
        else Parser.unexpected ["a newline or `;`", "an operator"]

/-- From the first statement to the last, or nothing at the given offset. -/
def blockSpan (offset : Nat) (statements : List Node) : Span :=
  match statements.head?, statements.getLast? with
  | some first, some last => first.span.through last.span
  | _, _ => .emptyAt offset

/-- The statements of a block, which newlines separate. -/
def block (inner : Inner) : Parser Block := do
  let start := (← Parser.span).start
  Parser.skipNewlines
  let nodes ← statements inner (← get).length
  return ⟨nodes, blockSpan start nodes⟩

/-- A block closed by `end`. -/
def closedBlock (inner : Inner) : Parser Body := do
  let block ← block inner
  discard (Parser.expect (.keyword .endWord))
  return block.toBody

/-- What follows `then`: a block closed by `end`, or a statement, after which an `end` may stand. -/
def body (inner : Inner) : Parser Body := do
  if ← Parser.atBlockStart then closedBlock inner
  else
    let statement ← statement inner
    Parser.skip (.keyword .endWord)
    return .inline statement

/-- Expressions separated by commas up to a closing token, whose span is returned with them. -/
def expressions (inner : Inner) (closing : Token) : Nat → Parser (List Node × Span)
  | 0 => do throw ⟨.expectedExpression, ← Parser.span⟩
  | budget + 1 => do
    let first ← inner none
    let token ← Parser.current
    if token = .comma then
      Parser.step
      let (others, stop) ← expressions inner closing budget
      return (first :: others, stop)
    else if token = closing then
      let stop ← Parser.span
      Parser.step
      return ([first], stop)
    else Parser.unexpected ["`,`", "`" ++ closing.literal ++ "`"]

/-- No expression or several up to a closing token. -/
def expressionList (inner : Inner) (closing : Token) : Parser (List Node × Span) := do
  if (← Parser.current) = closing then
    let stop ← Parser.span
    Parser.step
    return ([], stop)
  else expressions inner closing (← get).length

/-- A list between brackets. -/
def list (inner : Inner) : Parser Node := do
  let first ← Parser.expect .leftBracket
  let (elements, last) ← expressionList inner .rightBracket
  return .list elements (first.through last)

/-- A variable, the sign of assignment and a value. -/
def assignment (inner : Inner) : Parser Node := do
  let target ← Parser.ident
  discard (Parser.expect .assign)
  let value ← inner none
  return .assign target value (target.span.through value.span)

/-- An operator before its operand. `not` reaches over comparisons, a sign only over powers. -/
def unary (inner : Inner) : Parser Node := do
  let here ← Parser.span
  let operator ← Parser.current
  Parser.step
  let operand ←
    inner (some (if operator = .keyword .notWord then .logical else .unary))
  return .unary operator operand (here.through operand.span)

/-- An operator between the operand already read and the next. Powers group to the right, and their
exponent may have a sign. -/
def binary (inner : Inner) (left : Node) : Parser Node := do
  let operator ← Parser.current
  Parser.step
  let right ← inner (some (if operator = .power then .unary else operator.precedence))
  return .binary left operator right (left.span.through right.span)

/-- Arguments after the function already read. -/
def call (inner : Inner) (callee : Node) : Parser Node := do
  discard (Parser.expect .leftParen)
  let (arguments, _) ← expressionList inner .rightParen
  let last := (arguments.getLast?).getD callee
  return .call callee arguments (callee.span.through last.span)

/-- What follows the `then` of a condition: a block, which other branches may follow, or a
statement. -/
def branchBody (inner : Inner) (isBlock : Bool) : Parser Body :=
  if isBlock then Block.toBody <$> block inner else Body.inline <$> statement inner

/-- A condition, its body, and the branches after it. -/
def branches (inner : Inner) : Nat → Parser (Node × Body × Branches)
  | 0 => do throw ⟨.expectedExpression, ← Parser.span⟩
  | budget + 1 => do
    let condition ← inner none
    discard (Parser.expect (.keyword .thenWord))
    let isBlock ← Parser.atBlockStart
    let first ← branchBody inner isBlock
    match ← Parser.current with
    | .keyword .endWord =>
      Parser.step
      return (condition, first, .none)
    | .keyword .elifWord =>
      Parser.step
      let (next, second, others) ← branches inner budget
      return (condition, first, .elif next second others)
    | .keyword .elseWord =>
      Parser.step
      return (condition, first, .otherwise (← body inner))
    | _ =>
      if isBlock then Parser.unexpected ["`end`", "`elif`", "`else`"]
      else return (condition, first, .none)

def conditional (inner : Inner) : Parser Node := do
  discard (Parser.expect (.keyword .ifWord))
  let (condition, first, others) ← branches inner (← get).length
  return .conditional condition first others
    (condition.span.through (others.lastBody first).span)

/-- The step of a counting loop, which may be left out. -/
def loopStep (inner : Inner) : Parser (Option Node) := do
  if (← Parser.current) = .keyword .stepWord then
    Parser.step
    return some (← inner none)
  else return none

def forLoop (inner : Inner) : Parser Node := do
  discard (Parser.expect (.keyword .forWord))
  let counter ← Parser.ident
  discard (Parser.expect .assign)
  let first ← inner none
  discard (Parser.expect (.keyword .toWord))
  let limit ← inner none
  let step ← loopStep inner
  discard (Parser.expect (.keyword .thenWord))
  let body ← body inner
  return .forLoop counter first limit step body (counter.span.through body.span)

def whileLoop (inner : Inner) : Parser Node := do
  discard (Parser.expect (.keyword .whileWord))
  let condition ← inner none
  discard (Parser.expect (.keyword .thenWord))
  let body ← body inner
  return .whileLoop condition body (condition.span.through body.span)

/-- A loop by count, in which `then` may be left out. -/
def repeatLoop (inner : Inner) : Parser Node := do
  discard (Parser.expect (.keyword .repeatWord))
  let count ← inner none
  discard (Parser.expect (.keyword .timesWord))
  Parser.skip (.keyword .thenWord)
  let body ← body inner
  return .repeatLoop count body (count.span.through body.span)

/-- Parameters up to the closing parenthesis, which is not passed. -/
def params : Nat → Parser (List Ident)
  | 0 => do return [← Parser.ident]
  | budget + 1 => do
    let first ← Parser.ident
    match ← Parser.current with
    | .comma =>
      Parser.step
      return first :: (← params budget)
    | .rightParen => return [first]
    | _ => Parser.unexpected ["`,`", "`)`"]

/-- The body of a function: an expression after an arrow, or a block. -/
def functionBody (inner : Inner) : Parser Body := do
  match ← Parser.current with
  | .arrow =>
    Parser.step
    return .inline (← inner none)
  | .keyword .thenWord =>
    Parser.step
    closedBlock inner
  | .newline => closedBlock inner
  | _ => Parser.unexpected ["`->`", "`then`", "a newline"]

/-- Where a function starts: at its name, else at its first parameter, else at its body. -/
def functionStart (name : Option Ident) (params : List Ident) (body : Body) : Span :=
  match name, params with
  | some ident, _ => ident.span
  | none, first :: _ => first.span
  | none, [] => body.span

/-- The name of a function, which may be left out. -/
def functionName : Parser (Option Ident) := do
  match ← Parser.current with
  | .ident _ => return some (← Parser.ident)
  | _ => return none

/-- The parameters of a function, of which there may be none. -/
def functionParams : Parser (List Ident) := do
  match ← Parser.current with
  | .ident _ => params (← get).length
  | _ => return []

def function (inner : Inner) : Parser Node := do
  discard (Parser.expect (.keyword .funWord))
  let name ← functionName
  Parser.demand .leftParen (if name.isSome then ["`(`"] else ["an identifier", "`(`"])
  let params ← functionParams
  Parser.demand .rightParen ["an identifier", "`)`"]
  let body ← functionBody inner
  return .function name params body ((functionStart name params body).through body.span)

/-- An expression without infix operators. An assignment stands only where no operator precedes. -/
def primary (inner : Inner) (precedence : Option Precedence) : Parser Node := do
  let here ← Parser.span
  match ← Parser.current with
  | .int value =>
    Parser.step
    return .number (.int value) here
  | .float value =>
    Parser.step
    return .number (.float value) here
  | .string value =>
    Parser.step
    return .string value here
  | .ident _ =>
    if precedence.isNone && (← Parser.peek) = .assign then assignment inner
    else return .variable (← Parser.ident)
  | .leftParen =>
    Parser.step
    let node ← inner none
    discard (Parser.expect .rightParen)
    return node
  | .leftBracket => list inner
  | .plus | .minus | .keyword .notWord => unary inner
  | .keyword .ifWord => conditional inner
  | .keyword .forWord => forLoop inner
  | .keyword .whileWord => whileLoop inner
  | .keyword .repeatWord => repeatLoop inner
  | .keyword .funWord => function inner
  | _ => throw ⟨.expectedExpression, here⟩

/-- The operators and calls after an operand, as long as they bind more tightly than the operator
before it. -/
def continuation (inner : Inner) (precedence : Precedence) : Nat → Node → Parser Node
  | 0, left => return left
  | budget + 1, left => do
    let token ← Parser.current
    if precedence.looser token.precedence then
      let node ← if token = .leftParen then call inner left else binary inner left
      continuation inner precedence budget node
    else return left

/-- An operand and what binds to it, on top of a parser for inner expressions. -/
def expressionOver (inner : Inner) (precedence : Option Precedence) : Parser Node := do
  let first ← primary inner precedence
  continuation inner (precedence.getD .lowest) (← get).length first

/-- Expressions of at most `budget` tokens. -/
def expressionWithin : Nat → Inner
  | 0, _ => do throw ⟨.expectedExpression, ← Parser.span⟩
  | budget + 1, precedence => expressionOver (expressionWithin budget) precedence

/-- Runs the parser of a construct with inner expressions of any length. -/
def complete {α : Type} (construct : Inner → Parser α) : Parser α := do
  construct (expressionWithin (← get).length)

/-- An expression, up to an operator that binds no more tightly than the one before it. -/
def expression (precedence : Option Precedence) : Parser Node :=
  complete fun inner => inner precedence

/-- A block that takes up all the tokens. -/
def program : Parser Block := do
  let block ← complete block
  if (← Parser.current) = .endOfInput then return block
  else Parser.unexpected ["end of input"]

end Grammar

/-- The program that tokens make up. -/
def parseTokens (tokens : Tokens) : Except ParseError Block :=
  match Grammar.program.run tokens with
  | .ok block _ => .ok block
  | .error error _ => .error error

/-- The program that a source makes up. -/
def parse (source : String) : Except ParseError Block :=
  match lex source with
  | .ok tokens => parseTokens tokens
  | .error error => .error ⟨.lexical error, error.span⟩

end Primer
