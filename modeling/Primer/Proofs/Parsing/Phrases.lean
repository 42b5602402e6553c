import Primer.Proofs.Parsing.Run
import Primer.Proofs.Printing.Printable

/-!
# The forms of phrases

How each kind of phrase is written, token by token, and which part of the syntax tree stands for it.
The relation is the grammar without its parser: it does not say which of two readings is taken, so
precedence does not show in it and an operand may be any expression.
-/

namespace Primer

/-- The parts of a program that are written in a form of their own. -/
inductive Phrase where
  | expression (node : Node)
  | statement (node : Node)
  /-- Expressions between commas. -/
  | elements (nodes : List Node)
  /-- Statements on lines of their own. -/
  | lines (nodes : List Node)
  /-- Names between commas. -/
  | params (idents : List Ident)
  /-- The step of a counting loop. -/
  | step (node : Option Node)
  /-- A block up to its `end`. -/
  | closed (body : Body)
  /-- What follows `then` or `else`. -/
  | body (body : Body)
  /-- The body of a branch that other branches may follow. -/
  | branch (body : Body)
  | functionBody (body : Body)
  /-- The branches of a conditional, from the condition of the first. -/
  | branches (condition : Node) (body : Body) (others : Branches)

def Ident.lexeme (ident : Ident) : Lexeme :=
  ⟨.ident ident.name, ident.span⟩

namespace Tokens

/-- Newlines and nothing else. -/
def Blank (tokens : Tokens) : Prop :=
  ∀ lexeme ∈ tokens, lexeme.token = .newline

/-- The given token, or nothing. -/
def Optional (token : Token) (tokens : Tokens) : Prop :=
  tokens = [] ∨ ∃ span, tokens = [⟨token, span⟩]

/-- No end of input is among the tokens. -/
def Proper (tokens : Tokens) : Prop :=
  ∀ lexeme ∈ tokens, lexeme.token ≠ .endOfInput

end Tokens

open Grammar Tokens in
/-- The tokens are a way to write the phrase. -/
inductive Written : Tokens → Phrase → Prop
  | int {value : Int64} {here : Span} :
      Written [⟨.int value, here⟩] (.expression (.number (.int value) here))
  | float {value : Float} {here : Span} :
      Written [⟨.float value, here⟩] (.expression (.number (.float value) here))
  | string {value : String} {here : Span} :
      Written [⟨.string value, here⟩] (.expression (.string value here))
  | access {ident : Ident} : Written [ident.lexeme] (.expression (.variable ident))
  | assign {target : Ident} {sign : Span} {w : Tokens} {value : Node}
      (right : Written w (.expression value)) :
      Written (target.lexeme :: ⟨.assign, sign⟩ :: w)
        (.expression (.assign target value (target.span.through value.span)))
  | parens {first last : Span} {w : Tokens} {node : Node} (inside : Written w (.expression node)) :
      Written (⟨.leftParen, first⟩ :: (w ++ [⟨.rightParen, last⟩])) (.expression node)
  | list {first last : Span} {w : Tokens} {nodes : List Node}
      (inside : Written w (.elements nodes)) :
      Written (⟨.leftBracket, first⟩ :: (w ++ [⟨.rightBracket, last⟩]))
        (.expression (.list nodes (first.through last)))
  | unary {operator : Token} {here : Span} {w : Tokens} {operand : Node}
      (sign : operator ∈ Token.signs) (behind : Written w (.expression operand)) :
      Written (⟨operator, here⟩ :: w)
        (.expression (.unary operator operand (here.through operand.span)))
  | binary {operator : Token} {here : Span} {w w' : Tokens} {left right : Node}
      (known : operator ∈ Token.infixes) (before : Written w (.expression left))
      (behind : Written w' (.expression right)) :
      Written (w ++ ⟨operator, here⟩ :: w')
        (.expression (.binary left operator right (left.span.through right.span)))
  | call {first last : Span} {w w' : Tokens} {callee : Node} {arguments : List Node}
      (before : Written w (.expression callee)) (inside : Written w' (.elements arguments)) :
      Written (w ++ ⟨.leftParen, first⟩ :: (w' ++ [⟨.rightParen, last⟩]))
        (.expression (.call callee arguments
          (callee.span.through (arguments.getLast?.getD callee).span)))
  | conditional {here : Span} {w : Tokens} {condition : Node} {body : Body} {others : Branches}
      (behind : Written w (.branches condition body others)) :
      Written (⟨.keyword .ifWord, here⟩ :: w)
        (.expression (.conditional condition body others
          (condition.span.through (others.lastBody body).span)))
  | forLoop {here sign middle last : Span} {counter : Ident} {w w' w'' w''' : Tokens}
      {first limit : Node} {step : Option Node} {body : Body}
      (start : Written w (.expression first)) (stop : Written w' (.expression limit))
      (stride : Written w'' (.step step)) (inside : Written w''' (.body body)) :
      Written (⟨.keyword .forWord, here⟩ :: counter.lexeme :: ⟨.assign, sign⟩ ::
          (w ++ ⟨.keyword .toWord, middle⟩ :: (w' ++ (w'' ++ ⟨.keyword .thenWord, last⟩ :: w'''))))
        (.expression (.forLoop counter first limit step body (counter.span.through body.span)))
  | whileLoop {here last : Span} {w w' : Tokens} {condition : Node} {body : Body}
      (test : Written w (.expression condition)) (inside : Written w' (.body body)) :
      Written (⟨.keyword .whileWord, here⟩ :: (w ++ ⟨.keyword .thenWord, last⟩ :: w'))
        (.expression (.whileLoop condition body (condition.span.through body.span)))
  | repeatLoop {here last : Span} {w skipped w' : Tokens} {count : Node} {body : Body}
      (number : Written w (.expression count))
      (optional : Optional (.keyword .thenWord) skipped) (inside : Written w' (.body body)) :
      Written (⟨.keyword .repeatWord, here⟩ ::
          (w ++ ⟨.keyword .timesWord, last⟩ :: (skipped ++ w')))
        (.expression (.repeatLoop count body (count.span.through body.span)))
  | function {here first last : Span} {name : Option Ident} {w w' : Tokens} {params : List Ident}
      {body : Body} (names : Written w (.params params))
      (inside : Written w' (.functionBody body)) :
      Written (⟨.keyword .funWord, here⟩ :: (name.toList.map Ident.lexeme ++
          ⟨.leftParen, first⟩ :: (w ++ ⟨.rightParen, last⟩ :: w')))
        (.expression (.function name params body
          ((functionStart name params body).through body.span)))
  | value {w : Tokens} {node : Node} (inside : Written w (.expression node)) :
      Written w (.statement node)
  | returnNothing {here : Span} :
      Written [⟨.keyword .returnWord, here⟩] (.statement (.returning none here))
  | returnValue {here : Span} {w : Tokens} {value : Node}
      (behind : Written w (.expression value)) :
      Written (⟨.keyword .returnWord, here⟩ :: w)
        (.statement (.returning (some value) (here.through value.span)))
  | continuing {here : Span} :
      Written [⟨.keyword .continueWord, here⟩] (.statement (.continuing here))
  | breaking {here : Span} :
      Written [⟨.keyword .breakWord, here⟩] (.statement (.breaking here))
  | noElement : Written [] (.elements [])
  | element {w : Tokens} {node : Node} (inside : Written w (.expression node)) :
      Written w (.elements [node])
  | elements {comma : Span} {w w' : Tokens} {node : Node} {nodes : List Node}
      (first : Written w (.expression node)) (others : Written w' (.elements nodes)) :
      Written (w ++ ⟨.comma, comma⟩ :: w') (.elements (node :: nodes))
  | noLine : Written [] (.lines [])
  | line {w : Tokens} {node : Node} (inside : Written w (.statement node)) :
      Written w (.lines [node])
  | lines {newlines w w' : Tokens} {node : Node} {nodes : List Node} (some : newlines ≠ [])
      (blank : Blank newlines) (first : Written w (.statement node))
      (others : Written w' (.lines nodes)) :
      Written (w ++ (newlines ++ w')) (.lines (node :: nodes))
  | noParam : Written [] (.params [])
  | param {ident : Ident} : Written [ident.lexeme] (.params [ident])
  | params {comma : Span} {w : Tokens} {ident : Ident} {idents : List Ident}
      (others : Written w (.params idents)) :
      Written (ident.lexeme :: ⟨.comma, comma⟩ :: w) (.params (ident :: idents))
  | noStep : Written [] (.step none)
  | step {here : Span} {w : Tokens} {node : Node} (behind : Written w (.expression node)) :
      Written (⟨.keyword .stepWord, here⟩ :: w) (.step (some node))
  /-- An empty block stands where the line of its header ends, or else at its `end`. -/
  | closed {last : Span} {newlines w : Tokens} {nodes : List Node} (blank : Blank newlines)
      (inside : Written w (.lines nodes)) :
      Written (newlines ++ (w ++ [⟨.keyword .endWord, last⟩]))
        (.closed (.block nodes
          (blockSpan (Tokens.span (newlines ++ (w ++ [⟨.keyword .endWord, last⟩]))).start nodes)))
  | block {w : Tokens} {body : Body} (inside : Written w (.closed body)) : Written w (.body body)
  | inline {w skipped : Tokens} {node : Node} (inside : Written w (.statement node))
      (optional : Optional (.keyword .endWord) skipped) :
      Written (w ++ skipped) (.body (.inline node))
  | branchBlock {here : Span} {newlines w : Tokens} {nodes : List Node} (blank : Blank newlines)
      (inside : Written w (.lines nodes)) :
      Written (⟨.newline, here⟩ :: (newlines ++ w))
        (.branch (.block nodes (blockSpan here.start nodes)))
  | branchLine {w : Tokens} {node : Node} (inside : Written w (.statement node)) :
      Written w (.branch (.inline node))
  | arrow {here : Span} {w : Tokens} {node : Node} (behind : Written w (.expression node)) :
      Written (⟨.arrow, here⟩ :: w) (.functionBody (.inline node))
  | functionBlock {skipped w : Tokens} {body : Body}
      (optional : Optional (.keyword .thenWord) skipped) (inside : Written w (.closed body)) :
      Written (skipped ++ w) (.functionBody body)
  | lastBranch {here : Span} {w w' skipped : Tokens} {condition : Node} {body : Body}
      (test : Written w (.expression condition)) (inside : Written w' (.branch body))
      (optional : Optional (.keyword .endWord) skipped) :
      Written (w ++ ⟨.keyword .thenWord, here⟩ :: (w' ++ skipped)) (.branches condition body .none)
  | elif {first here : Span} {w w' w'' : Tokens} {condition next : Node} {body second : Body}
      {others : Branches} (test : Written w (.expression condition))
      (inside : Written w' (.branch body)) (behind : Written w'' (.branches next second others)) :
      Written (w ++ ⟨.keyword .thenWord, first⟩ :: (w' ++ ⟨.keyword .elifWord, here⟩ :: w''))
        (.branches condition body (.elif next second others))
  | otherwise {first here : Span} {w w' w'' : Tokens} {condition : Node} {body last : Body}
      (test : Written w (.expression condition)) (inside : Written w' (.branch body))
      (behind : Written w'' (.body last)) :
      Written (w ++ ⟨.keyword .thenWord, first⟩ :: (w' ++ ⟨.keyword .elseWord, here⟩ :: w''))
        (.branches condition body (.otherwise last))

end Primer
