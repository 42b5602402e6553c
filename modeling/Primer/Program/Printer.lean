import Primer.Program.Node

/-!
# Programs as source text

The text of a program in one fixed style: operators fully parenthesised, statements separated by a
semicolon and a blank, blocks on lines of their own.
-/

namespace Primer

mutual

def Node.text : Node → String
  | .number value _ => value.sourceText
  | .string value _ => Text.quote value
  | .list elements _ => "[" ++ Node.joined ", " elements ++ "]"
  | .variable ident => ident.name
  | .assign target value _ => target.name ++ " = " ++ value.text
  | .binary left operator right _ =>
    "(" ++ left.text ++ " " ++ operator.literal ++ " " ++ right.text ++ ")"
  | .unary operator operand _ =>
    if operator = .keyword .notWord then "(not " ++ operand.text ++ ")"
    else "(" ++ operator.literal ++ operand.text ++ ")"
  | .conditional condition body others _ =>
    "if " ++ condition.text ++ " then" ++ body.opened ++ others.text body.isBlock
  | .forLoop counter first limit step body _ =>
    "for " ++ counter.name ++ " = " ++ first.text ++ " to " ++ limit.text ++ Node.stepText step
      ++ " then" ++ body.closed
  | .whileLoop condition body _ => "while " ++ condition.text ++ " then" ++ body.closed
  | .repeatLoop count body _ => "repeat " ++ count.text ++ " times then" ++ body.closed
  | .function name params body _ =>
    "fun" ++ (match name with | some ident => " " ++ ident.name | none => "")
      ++ "(" ++ ", ".intercalate (params.map Ident.name) ++ ")" ++ body.afterParams
  | .call callee arguments _ => callee.text ++ "(" ++ Node.joined ", " arguments ++ ")"
  | .returning value _ => "return" ++ Node.returnedText value
  | .continuing _ => "continue"
  | .breaking _ => "break"

/-- The texts of nodes with a separator between them. -/
def Node.joined (separator : String) : List Node → String
  | [] => ""
  | [node] => node.text
  | node :: next :: rest => node.text ++ separator ++ Node.joined separator (next :: rest)

def Node.stepText : Option Node → String
  | none => ""
  | some step => " step " ++ step.text

def Node.returnedText : Option Node → String
  | none => ""
  | some value => " " ++ value.text

/-- A body behind the word that opens it, without the `end` of a block. -/
def Body.opened : Body → String
  | .inline statement => " " ++ statement.text
  | .block statements _ => "\n" ++ Node.joined "; " statements

/-- A body behind the word that opens it, a block with its `end`. -/
def Body.closed : Body → String
  | .inline statement => " " ++ statement.text
  | .block statements _ => "\n" ++ Node.joined "; " statements ++ "\nend"

/-- The body of a function behind its parameters. -/
def Body.afterParams : Body → String
  | .inline value => " -> " ++ value.text
  | .block statements _ => " then\n" ++ Node.joined "; " statements ++ "\nend"

/-- The later branches of a conditional; `block` tells whether an earlier one is a block. -/
def Branches.text (block : Bool) : Branches → String
  | .none => if block then "\nend" else ""
  | .otherwise body => (if block then "\nelse" else " else") ++ body.closed
  | .elif condition body others =>
    (if body.isBlock then "\n" else " ") ++ "elif " ++ condition.text ++ " then" ++ body.opened
      ++ others.text (block || body.isBlock)

end

def Block.text (block : Block) : String :=
  Node.joined "; " block.statements

def Body.text : Body → String
  | .inline statement => statement.text
  | .block statements _ => Node.joined "; " statements

end Primer
