import Primer.Program.Node

/-!
# The tokens of printed programs

What the text of a program consists of. A block stands on lines of its own: a newline opens it and one
follows each of its statements. A body on one line has nothing behind it.
-/

namespace Primer

/-- The tokens of an optional name. -/
def Ident.optionTokens : Option Ident → List Token
  | none => []
  | some ident => [.ident ident.name]

/-- The tokens of parameters. -/
def Ident.paramTokens : List Ident → List Token
  | [] => []
  | [ident] => [.ident ident.name]
  | ident :: next :: rest => .ident ident.name :: .comma :: Ident.paramTokens (next :: rest)

mutual

/-- The tokens of the text of a node. -/
def Node.tokens : Node → List Token
  | .number (.int value) _ => [.int value]
  | .number (.float value) _ => [.float value]
  | .string value _ => [.string value]
  | .list elements _ => .leftBracket :: (Node.commaTokens elements ++ [.rightBracket])
  | .variable ident => [.ident ident.name]
  | .assign target value _ => .ident target.name :: .assign :: value.tokens
  | .binary left operator right _ =>
    .leftParen :: (left.tokens ++ operator :: (right.tokens ++ [.rightParen]))
  | .unary operator operand _ => .leftParen :: operator :: (operand.tokens ++ [.rightParen])
  | .conditional condition body others _ =>
    .keyword .ifWord :: (condition.tokens ++ .keyword .thenWord ::
      (body.tokens ++ others.tokens body.isBlock))
  | .forLoop counter first limit step body _ =>
    .keyword .forWord :: .ident counter.name :: .assign :: (first.tokens ++ .keyword .toWord ::
      (limit.tokens ++ (Node.stepTokens step ++ .keyword .thenWord :: body.closedTokens)))
  | .whileLoop condition body _ =>
    .keyword .whileWord :: (condition.tokens ++ .keyword .thenWord :: body.closedTokens)
  | .repeatLoop count body _ =>
    .keyword .repeatWord :: (count.tokens ++ .keyword .timesWord :: .keyword .thenWord ::
      body.closedTokens)
  | .function name params body _ =>
    .keyword .funWord :: (Ident.optionTokens name ++ .leftParen ::
      (Ident.paramTokens params ++ .rightParen :: body.functionTokens))
  | .call callee arguments _ =>
    callee.tokens ++ .leftParen :: (Node.commaTokens arguments ++ [.rightParen])
  | .returning value _ => .keyword .returnWord :: Node.valueTokens value
  | .continuing _ => [.keyword .continueWord]
  | .breaking _ => [.keyword .breakWord]

/-- The tokens of expressions with commas between them. -/
def Node.commaTokens : List Node → List Token
  | [] => []
  | [node] => node.tokens
  | node :: next :: rest => node.tokens ++ .comma :: Node.commaTokens (next :: rest)

/-- The tokens of statements with a newline behind each. -/
def Node.lineTokens : List Node → List Token
  | [] => []
  | node :: rest => node.tokens ++ .newline :: Node.lineTokens rest

def Node.stepTokens : Option Node → List Token
  | none => []
  | some step => .keyword .stepWord :: step.tokens

def Node.valueTokens : Option Node → List Token
  | none => []
  | some value => value.tokens

/-- The tokens of a body without the `end` of a block. -/
def Body.tokens : Body → List Token
  | .inline statement => statement.tokens
  | .block statements _ => .newline :: Node.lineTokens statements

/-- The tokens of a body with the `end` of a block. -/
def Body.closedTokens : Body → List Token
  | .inline statement => statement.tokens
  | .block statements _ => .newline :: (Node.lineTokens statements ++ [.keyword .endWord])

/-- The tokens of the body of a function. -/
def Body.functionTokens : Body → List Token
  | .inline value => .arrow :: value.tokens
  | .block statements _ =>
    .keyword .thenWord :: .newline :: (Node.lineTokens statements ++ [.keyword .endWord])

/-- The tokens of the branches after the first, where `block` tells whether the one before is a block
and so needs an `end` if it is the last. -/
def Branches.tokens (block : Bool) : Branches → List Token
  | .none => if block then [.keyword .endWord] else []
  | .otherwise body => .keyword .elseWord :: body.closedTokens
  | .elif condition body others =>
    .keyword .elifWord :: (condition.tokens ++ .keyword .thenWord ::
      (body.tokens ++ others.tokens body.isBlock))

end

/-- The tokens of statements with a newline between them. -/
def Node.joinedTokens : List Node → List Token
  | [] => []
  | [node] => node.tokens
  | node :: next :: rest => node.tokens ++ .newline :: Node.joinedTokens (next :: rest)

end Primer
