import Primer.Proofs.Parsing.Run

/-!
# Parsing by procedures

The parsers of the grammar as procedures that call each other, with loops that go on for as long as the
tokens ask for it. Tokens are not counted here. What is counted is how deeply calls are nested: a run that
would have to go deeper than allowed has no result, which is what `none` stands for. So a run that does
not come to an end has no result at any depth.
-/

namespace Primer

/-- A procedure on tokens, which may have no result. -/
abbrev Attempt := ExceptT ParseError (StateT Tokens Option)

namespace Attempt

variable {α : Type}

/-- A parser as a procedure. -/
def ofParser (x : Parser α) : Attempt α := fun tokens =>
  match x tokens with
  | .ok a left => some (.ok a, left)
  | .error error left => some (.error error, left)

instance : MonadLift Parser Attempt := ⟨ofParser⟩

/-- No result. -/
def unfinished : Attempt α := fun _ => none

/-- What a procedure comes to on some tokens, if it has a result. -/
def result? (x : Attempt α) (tokens : Tokens) : Option (EStateM.Result ParseError Tokens α) :=
  (x tokens).map fun
    | (.ok a, left) => .ok a left
    | (.error error, left) => .error error left

end Attempt

namespace Procedure

open Attempt (unfinished)

open Grammar (blockSpan functionStart functionName)

/-- Passes newlines until another token comes. -/
def skipNewlines : Nat → Attempt Unit
  | 0 => unfinished
  | calls + 1 => do
    if (← Parser.current) = .newline then
      Parser.step
      skipNewlines calls

/-- Parameters up to the closing parenthesis, which is not passed. -/
def params : Nat → Attempt (List Ident)
  | 0 => unfinished
  | calls + 1 => do
    let first ← Parser.ident
    match ← Parser.current with
    | .comma =>
      Parser.step
      return first :: (← params calls)
    | .rightParen => return [first]
    | _ => Parser.unexpected ["`,`", "`)`"]

def functionParams : Nat → Attempt (List Ident)
  | 0 => unfinished
  | calls + 1 => do
    match ← Parser.current with
    | .ident _ => params calls
    | _ => return []

mutual

def statement : Nat → Attempt Node
  | 0 => unfinished
  | calls + 1 => do
    let here ← Parser.span
    match ← Parser.current with
    | .keyword .returnWord =>
      Parser.step
      let token ← Parser.current
      if token = .newline || token.isBlockEnd then return .returning none here
      else
        let value ← expression none calls
        return .returning (some value) (here.through value.span)
    | .keyword .continueWord =>
      Parser.step
      return .continuing here
    | .keyword .breakWord =>
      Parser.step
      return .breaking here
    | _ => expression none calls

/-- Statements up to the end of a block. -/
def statements : Nat → Attempt (List Node)
  | 0 => unfinished
  | calls + 1 => do
    if (← Parser.current).isBlockEnd then return []
    else
      let first ← statement calls
      match ← Parser.current with
      | .newline =>
        skipNewlines calls
        return first :: (← statements calls)
      | token =>
        if token.isBlockEnd then return [first]
        else Parser.unexpected ["a newline or `;`", "an operator"]

def block : Nat → Attempt Block
  | 0 => unfinished
  | calls + 1 => do
    let start := (← Parser.span).start
    skipNewlines calls
    let nodes ← statements calls
    return ⟨nodes, blockSpan start nodes⟩

def closedBlock : Nat → Attempt Body
  | 0 => unfinished
  | calls + 1 => do
    let block ← block calls
    discard (Parser.expect (.keyword .endWord))
    return block.toBody

def body : Nat → Attempt Body
  | 0 => unfinished
  | calls + 1 => do
    if ← Parser.atBlockStart then closedBlock calls
    else
      let statement ← statement calls
      Parser.skip (.keyword .endWord)
      return .inline statement

/-- Expressions separated by commas up to a closing token. -/
def expressions (closing : Token) : Nat → Attempt (List Node × Span)
  | 0 => unfinished
  | calls + 1 => do
    let first ← expression none calls
    let token ← Parser.current
    if token = .comma then
      Parser.step
      let (others, stop) ← expressions closing calls
      return (first :: others, stop)
    else if token = closing then
      let stop ← Parser.span
      Parser.step
      return ([first], stop)
    else Parser.unexpected ["`,`", "`" ++ closing.literal ++ "`"]

def expressionList (closing : Token) : Nat → Attempt (List Node × Span)
  | 0 => unfinished
  | calls + 1 => do
    if (← Parser.current) = closing then
      let stop ← Parser.span
      Parser.step
      return ([], stop)
    else expressions closing calls

def list : Nat → Attempt Node
  | 0 => unfinished
  | calls + 1 => do
    let first ← Parser.expect .leftBracket
    let (elements, last) ← expressionList .rightBracket calls
    return .list elements (first.through last)

def assignment : Nat → Attempt Node
  | 0 => unfinished
  | calls + 1 => do
    let target ← Parser.ident
    discard (Parser.expect .assign)
    let value ← expression none calls
    return .assign target value (target.span.through value.span)

def unary : Nat → Attempt Node
  | 0 => unfinished
  | calls + 1 => do
    let here ← Parser.span
    let operator ← Parser.current
    Parser.step
    let operand ←
      expression (some (if operator = .keyword .notWord then .logical else .unary)) calls
    return .unary operator operand (here.through operand.span)

def binary (left : Node) : Nat → Attempt Node
  | 0 => unfinished
  | calls + 1 => do
    let operator ← Parser.current
    Parser.step
    let right ← expression (some (if operator = .power then .unary else operator.precedence)) calls
    return .binary left operator right (left.span.through right.span)

def call (callee : Node) : Nat → Attempt Node
  | 0 => unfinished
  | calls + 1 => do
    discard (Parser.expect .leftParen)
    let (arguments, _) ← expressionList .rightParen calls
    let last := (arguments.getLast?).getD callee
    return .call callee arguments (callee.span.through last.span)

def branchBody (isBlock : Bool) : Nat → Attempt Body
  | 0 => unfinished
  | calls + 1 => do
    if isBlock then
      let block ← block calls
      return block.toBody
    else
      let statement ← statement calls
      return .inline statement

/-- A condition, its body, and the branches after it. -/
def branches : Nat → Attempt (Node × Body × Branches)
  | 0 => unfinished
  | calls + 1 => do
    let condition ← expression none calls
    discard (Parser.expect (.keyword .thenWord))
    let isBlock ← Parser.atBlockStart
    let first ← branchBody isBlock calls
    match ← Parser.current with
    | .keyword .endWord =>
      Parser.step
      return (condition, first, .none)
    | .keyword .elifWord =>
      Parser.step
      let (next, second, others) ← branches calls
      return (condition, first, .elif next second others)
    | .keyword .elseWord =>
      Parser.step
      return (condition, first, .otherwise (← body calls))
    | _ =>
      if isBlock then Parser.unexpected ["`end`", "`elif`", "`else`"]
      else return (condition, first, .none)

def conditional : Nat → Attempt Node
  | 0 => unfinished
  | calls + 1 => do
    discard (Parser.expect (.keyword .ifWord))
    let (condition, first, others) ← branches calls
    return .conditional condition first others
      (condition.span.through (others.lastBody first).span)

def loopStep : Nat → Attempt (Option Node)
  | 0 => unfinished
  | calls + 1 => do
    if (← Parser.current) = .keyword .stepWord then
      Parser.step
      return some (← expression none calls)
    else return none

def forLoop : Nat → Attempt Node
  | 0 => unfinished
  | calls + 1 => do
    discard (Parser.expect (.keyword .forWord))
    let counter ← Parser.ident
    discard (Parser.expect .assign)
    let first ← expression none calls
    discard (Parser.expect (.keyword .toWord))
    let limit ← expression none calls
    let step ← loopStep calls
    discard (Parser.expect (.keyword .thenWord))
    let body ← body calls
    return .forLoop counter first limit step body (counter.span.through body.span)

def whileLoop : Nat → Attempt Node
  | 0 => unfinished
  | calls + 1 => do
    discard (Parser.expect (.keyword .whileWord))
    let condition ← expression none calls
    discard (Parser.expect (.keyword .thenWord))
    let body ← body calls
    return .whileLoop condition body (condition.span.through body.span)

def repeatLoop : Nat → Attempt Node
  | 0 => unfinished
  | calls + 1 => do
    discard (Parser.expect (.keyword .repeatWord))
    let count ← expression none calls
    discard (Parser.expect (.keyword .timesWord))
    Parser.skip (.keyword .thenWord)
    let body ← body calls
    return .repeatLoop count body (count.span.through body.span)

def functionBody : Nat → Attempt Body
  | 0 => unfinished
  | calls + 1 => do
    match ← Parser.current with
    | .arrow =>
      Parser.step
      return .inline (← expression none calls)
    | .keyword .thenWord =>
      Parser.step
      closedBlock calls
    | .newline => closedBlock calls
    | _ => Parser.unexpected ["`->`", "`then`", "a newline"]

def function : Nat → Attempt Node
  | 0 => unfinished
  | calls + 1 => do
    discard (Parser.expect (.keyword .funWord))
    let name ← functionName
    Parser.demand .leftParen (if name.isSome then ["`(`"] else ["an identifier", "`(`"])
    let params ← functionParams calls
    Parser.demand .rightParen ["an identifier", "`)`"]
    let body ← functionBody calls
    return .function name params body ((functionStart name params body).through body.span)

def primary (precedence : Option Precedence) : Nat → Attempt Node
  | 0 => unfinished
  | calls + 1 => do
    let here ← Parser.span
    match ← Parser.current with
    | .int value =>
      Parser.step
      return .number (.int value) here
    | .float value =>
      Parser.step
      return .number (.float value) here
    | .string value =>
      Parser.step
      return .string value here
    | .ident _ =>
      if precedence.isNone && (← Parser.peek) = .assign then assignment calls
      else return .variable (← Parser.ident)
    | .leftParen =>
      Parser.step
      let node ← expression none calls
      discard (Parser.expect .rightParen)
      return node
    | .leftBracket => list calls
    | .plus | .minus | .keyword .notWord => unary calls
    | .keyword .ifWord => conditional calls
    | .keyword .forWord => forLoop calls
    | .keyword .whileWord => whileLoop calls
    | .keyword .repeatWord => repeatLoop calls
    | .keyword .funWord => function calls
    | _ => throw ⟨.expectedExpression, here⟩

/-- The operators and calls after an operand. -/
def continuation (precedence : Precedence) (left : Node) : Nat → Attempt Node
  | 0 => unfinished
  | calls + 1 => do
    let token ← Parser.current
    if precedence.looser token.precedence then
      let node ← (if token = .leftParen then call left calls else binary left calls)
      continuation precedence node calls
    else return left

def expression (precedence : Option Precedence) : Nat → Attempt Node
  | 0 => unfinished
  | calls + 1 => do
    let first ← primary precedence calls
    continuation (precedence.getD .lowest) first calls

end

def program : Nat → Attempt Block
  | 0 => unfinished
  | calls + 1 => do
    let block ← block calls
    if (← Parser.current) = .endOfInput then return block
    else Parser.unexpected ["end of input"]

end Procedure

end Primer
