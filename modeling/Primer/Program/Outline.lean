import Primer.Program.Node

/-!
# Trees in outline

The syntax tree laid out over many lines, one field or element a line, for those who want to see the
structure and the spans rather than the program. `Outline` is the general shape, and `render` its only
layout.
-/

namespace Primer

/-- A tree of named parts. -/
inductive Outline where
  | leaf (text : String)
  | record (name : String) (fields : List (String × Outline))
  | tuple (name : String) (parts : List Outline)
  | sequence (elements : List Outline)

namespace Outline

def margin (depth : Nat) : String :=
  String.ofList (List.replicate (4 * depth) ' ')

mutual

/-- The outline with its inner lines indented by `depth` steps. -/
def render (depth : Nat) : Outline → String
  | .leaf text => text
  | .record name fields =>
    name ++ " \x7b\n" ++ renderFields (depth + 1) fields ++ margin depth ++ "\x7d"
  | .tuple name parts => name ++ "(\n" ++ renderAll (depth + 1) parts ++ margin depth ++ ")"
  | .sequence elements =>
    match elements with
    | [] => "[]"
    | first :: rest => "[\n" ++ renderAll (depth + 1) (first :: rest) ++ margin depth ++ "]"

def renderFields (depth : Nat) : List (String × Outline) → String
  | [] => ""
  | (name, value) :: rest =>
    margin depth ++ name ++ ": " ++ value.render depth ++ ",\n" ++ renderFields depth rest

def renderAll (depth : Nat) : List Outline → String
  | [] => ""
  | part :: rest => margin depth ++ part.render depth ++ ",\n" ++ renderAll depth rest

end

def flag (b : Bool) : Outline :=
  .leaf (if b then "true" else "false")

def ofOption : Option Outline → Outline
  | none => .leaf "None"
  | some outline => .tuple "Some" [outline]

end Outline

def Span.outline (span : Span) : Outline :=
  .record "SrcSpan" [("start", .leaf (toString span.start)), ("end", .leaf (toString span.stop))]

def Ident.outline (ident : Ident) : Outline :=
  .record "Identifier" [("value", .leaf (Text.quote ident.name)), ("location", ident.span.outline)]

/-- The payload of a token, if it has one. -/
def Token.payload : Token → Option String
  | .ident name => some (Text.quote name)
  | .int value => some (String.ofList (Decimal.integerText value.toInt))
  | .float value => some (Decimal.source.write value)
  | .string value => some (Text.quote value)
  | _ => none

def Token.outline (token : Token) : Outline :=
  match token.payload with
  | some payload => .tuple token.label [.leaf payload]
  | none => .leaf token.label

/-- A token on one line. -/
def Token.summary (token : Token) : String :=
  match token.payload with
  | some payload => token.label ++ "(" ++ payload ++ ")"
  | none => token.label

def Number.outline : Number → Outline
  | .int value => .tuple "Int" [.leaf (Number.sourceText (.int value))]
  | .float value => .tuple "Float" [.leaf (Number.sourceText (.float value))]

/-- One branch with a condition. -/
def Branches.caseOutline (condition body : Outline) (isBlock : Bool) : Outline :=
  .record "IfCase"
    [("condition", condition), ("body", body), ("should_return_null", .flag isBlock)]

mutual

def Node.outline : Node → Outline
  | .number value span =>
    .record "Number" [("value", value.outline), ("location", span.outline)]
  | .string value span =>
    .record "String" [("value", .leaf (Text.quote value)), ("location", span.outline)]
  | .list elements span =>
    .tuple "List" [.record "ListLiteral"
      [("elements", .sequence (Node.outlines elements)), ("location", span.outline)]]
  | .variable ident => .tuple "VarAccess" [ident.outline]
  | .assign target value span =>
    .tuple "VarAssign" [.record "VarAssign"
      [("identifier", target.outline), ("value", value.outline), ("location", span.outline)]]
  | .binary left operator right span =>
    .tuple "BinaryOp" [.record "BinaryOp"
      [("left", left.outline), ("operator", operator.outline), ("right", right.outline),
       ("location", span.outline)]]
  | .unary operator operand span =>
    .tuple "UnaryOp" [.record "UnaryOp"
      [("operator", operator.outline), ("operand", operand.outline), ("location", span.outline)]]
  | .conditional condition body others span =>
    .tuple "If" [.record "If"
      [("cases", .sequence (Branches.caseOutline condition.outline body.outline body.isBlock
          :: others.caseOutlines)),
       ("else_case", others.elseOutline), ("location", span.outline)]]
  | .forLoop counter first limit step body span =>
    .tuple "For" [.record "For"
      [("variable", counter.outline), ("start", first.outline), ("end", limit.outline),
       ("step", Node.optionOutline step), ("body", body.outline),
       ("should_return_null", .flag body.isBlock), ("location", span.outline)]]
  | .whileLoop condition body span =>
    .tuple "While" [.record "While"
      [("condition", condition.outline), ("body", body.outline),
       ("should_return_null", .flag body.isBlock), ("location", span.outline)]]
  | .repeatLoop count body span =>
    .tuple "Repeat" [.record "Repeat"
      [("count", count.outline), ("body", body.outline),
       ("should_return_null", .flag body.isBlock), ("location", span.outline)]]
  | .function name params body span =>
    .tuple "FuncDef" [.record "FuncDef"
      [("name", .ofOption (name.map Ident.outline)),
       ("params", .sequence (params.map Ident.outline)), ("body", body.outline),
       ("auto_return", .flag (!body.isBlock)), ("location", span.outline)]]
  | .call callee arguments span =>
    .tuple "Call" [.record "Call"
      [("callee", callee.outline), ("arguments", .sequence (Node.outlines arguments)),
       ("location", span.outline)]]
  | .returning value span =>
    .tuple "Return" [.record "Return"
      [("value", Node.optionOutline value), ("location", span.outline)]]
  | .continuing span => .record "Continue" [("location", span.outline)]
  | .breaking span => .record "Break" [("location", span.outline)]

def Node.outlines : List Node → List Outline
  | [] => []
  | node :: rest => node.outline :: Node.outlines rest

def Node.optionOutline : Option Node → Outline
  | none => .leaf "None"
  | some node => .tuple "Some" [node.outline]

def Body.outline : Body → Outline
  | .inline statement => statement.outline
  | .block statements span =>
    .tuple "Block" [.record "Block"
      [("statements", .sequence (Node.outlines statements)), ("location", span.outline)]]

def Branches.caseOutlines : Branches → List Outline
  | .none => []
  | .otherwise _ => []
  | .elif condition body others =>
    Branches.caseOutline condition.outline body.outline body.isBlock :: others.caseOutlines

def Branches.elseOutline : Branches → Outline
  | .none => .leaf "None"
  | .otherwise body =>
    .tuple "Some" [.record "ElseCase"
      [("body", body.outline), ("should_return_null", .flag body.isBlock)]]
  | .elif _ _ others => others.elseOutline

end

def Block.outline (block : Block) : Outline :=
  .record "Block"
    [("statements", .sequence (Node.outlines block.statements)), ("location", block.span.outline)]

end Primer
