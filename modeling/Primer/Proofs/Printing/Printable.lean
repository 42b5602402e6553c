import Primer.Program.Printer
import Primer.Proofs.Lexing.Spelling
import Primer.Proofs.Program.Occurrence

/-!
# Programs that can be printed

The programs whose text is read back as they are: every body of a loop or a branch is a block, a
function has a block or an expression for its body, and what stands inside an expression is an
expression. Numbers are integers without a sign, and texts are made of printable ASCII, line feeds and
tabs.
-/

namespace Primer

/-- The operators that stand between two operands. -/
def Token.infixes : List Token :=
  [.plus, .minus, .times, .divide, .power, .equal, .notEqual, .less, .lessEqual, .greater,
    .greaterEqual, .keyword .isWord, .keyword .andWord, .keyword .orWord]

/-- The operators that stand before their operand. -/
def Token.signs : List Token :=
  [.plus, .minus, .keyword .notWord]

namespace Branches

/-- The conditions of the branches after the first. -/
def conditions : Branches → List Node
  | .none | .otherwise _ => []
  | .elif condition _ others => condition :: others.conditions

/-- The bodies of the branches after the first. -/
def bodies : Branches → List Body
  | .none => []
  | .otherwise body => [body]
  | .elif _ body others => body :: others.bodies

end Branches

/-- Expressions that are read back from their text. -/
inductive Node.PrintableExpression : Node → Prop
  | number {value : Int64} {span : Span} (positive : 0 ≤ value.toInt) :
      PrintableExpression (.number (.int value) span)
  | string {value : String} {span : Span} (plain : ∀ c ∈ value.toList, isPlain c = true) :
      PrintableExpression (.string value span)
  | access {ident : Ident} (name : IsName ident.name) : PrintableExpression (.variable ident)
  | list {elements : List Node} {span : Span}
      (each : ∀ element ∈ elements, PrintableExpression element) :
      PrintableExpression (.list elements span)
  | call {callee : Node} {arguments : List Node} {span : Span}
      (function : PrintableExpression callee)
      (each : ∀ argument ∈ arguments, PrintableExpression argument) :
      PrintableExpression (.call callee arguments span)
  | unary {operator : Token} {operand : Node} {span : Span} (sign : operator ∈ Token.signs)
      (child : PrintableExpression operand) : PrintableExpression (.unary operator operand span)
  | binary {left : Node} {operator : Token} {right : Node} {span : Span}
      (known : operator ∈ Token.infixes) (first : PrintableExpression left)
      (second : PrintableExpression right) :
      PrintableExpression (.binary left operator right span)

open Node (PrintableExpression)

/-- Statements that are read back from their text. -/
inductive Node.PrintableStatement : Node → Prop
  | expression {node : Node} (printable : PrintableExpression node) : PrintableStatement node
  | assign {target : Ident} {value : Node} {span : Span} (name : IsName target.name)
      (printable : PrintableExpression value) : PrintableStatement (.assign target value span)
  | returnNothing {span : Span} : PrintableStatement (.returning none span)
  | returnValue {value : Node} {span : Span} (printable : PrintableExpression value) :
      PrintableStatement (.returning (some value) span)
  | continuing {span : Span} : PrintableStatement (.continuing span)
  | breaking {span : Span} : PrintableStatement (.breaking span)
  | forLoop {counter : Ident} {first limit : Node} {step : Option Node} {statements : List Node}
      {span span' : Span} (name : IsName counter.name) (start : PrintableExpression first)
      (stop : PrintableExpression limit) (stride : ∀ node ∈ step, PrintableExpression node)
      (each : ∀ statement ∈ statements, PrintableStatement statement) :
      PrintableStatement (.forLoop counter first limit step (.block statements span') span)
  | whileLoop {condition : Node} {statements : List Node} {span span' : Span}
      (test : PrintableExpression condition)
      (each : ∀ statement ∈ statements, PrintableStatement statement) :
      PrintableStatement (.whileLoop condition (.block statements span') span)
  | repeatLoop {count : Node} {statements : List Node} {span span' : Span}
      (times : PrintableExpression count)
      (each : ∀ statement ∈ statements, PrintableStatement statement) :
      PrintableStatement (.repeatLoop count (.block statements span') span)
  | conditional {condition : Node} {statements : List Node} {others : Branches} {span span' : Span}
      (test : PrintableExpression condition)
      (each : ∀ statement ∈ statements, PrintableStatement statement)
      (tests : ∀ other ∈ others.conditions, PrintableExpression other)
      (blocks : ∀ body ∈ others.bodies, body.isBlock = true)
      (rest : ∀ body ∈ others.bodies, ∀ statement ∈ body.statements, PrintableStatement statement) :
      PrintableStatement (.conditional condition (.block statements span') others span)
  | functionBlock {name : Option Ident} {params : List Ident} {statements : List Node}
      {span span' : Span} (names : ∀ ident ∈ name, IsName ident.name)
      (idents : ∀ param ∈ params, IsName param.name)
      (each : ∀ statement ∈ statements, PrintableStatement statement) :
      PrintableStatement (.function name params (.block statements span') span)
  | functionValue {name : Option Ident} {params : List Ident} {value : Node} {span : Span}
      (names : ∀ ident ∈ name, IsName ident.name)
      (idents : ∀ param ∈ params, IsName param.name) (printable : PrintableExpression value) :
      PrintableStatement (.function name params (.inline value) span)

/-- Programs that are read back from their text. -/
def Block.Printable (program : Block) : Prop :=
  ∀ statement ∈ program.statements, statement.PrintableStatement

end Primer
