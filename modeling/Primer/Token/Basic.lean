import Primer.Decimal.Layout
import Primer.Source.Span
import Primer.Text.Quoted
import Primer.Token.Keyword

/-!
# Tokens

The words of the language. A run of line feeds and semicolons is one `newline`, and every source ends
in `endOfInput`.
-/

namespace Primer

inductive Token where
  | ident (name : String)
  | int (value : Int64)
  | float (value : Float)
  | string (value : String)
  | plus | minus | times | divide | power
  | assign | equal | notEqual | less | lessEqual | greater | greaterEqual
  | leftParen | rightParen | leftBracket | rightBracket | comma | arrow
  | keyword (word : Keyword)
  | newline
  | endOfInput
  deriving DecidableEq, Inhabited

namespace Token

def isKeyword : Token → Bool
  | .keyword _ => true
  | _ => false

def isComparison : Token → Bool
  | .equal | .notEqual | .less | .lessEqual | .greater | .greaterEqual | .keyword .isWord => true
  | _ => false

/-- The tokens that close the body of a block. -/
def isBlockEnd : Token → Bool
  | .keyword .endWord | .keyword .elifWord | .keyword .elseWord | .endOfInput => true
  | _ => false

/-- Whether a token stands where another is asked for. Numbers are compared by value, so the two zeros
agree and a NaN agrees with nothing. -/
def agrees : Token → Token → Bool
  | .float x, .float y => x == y
  | .float _, _ => false
  | _, .float _ => false
  | s, t => s = t

/-- The name of a token in token listings and tree outlines. -/
def label : Token → String
  | .ident _ => "Ident"
  | .int _ => "Int"
  | .float _ => "Float"
  | .string _ => "String"
  | .plus => "Plus"
  | .minus => "Minus"
  | .times => "Mul"
  | .divide => "Div"
  | .power => "Pow"
  | .assign => "Assign"
  | .equal => "Equal"
  | .notEqual => "NotEqual"
  | .less => "LessThan"
  | .lessEqual => "LessThanOrEqual"
  | .greater => "GreaterThan"
  | .greaterEqual => "GreaterThanOrEqual"
  | .leftParen => "LParen"
  | .rightParen => "RParen"
  | .leftBracket => "LSBracket"
  | .rightBracket => "RSBracket"
  | .comma => "Comma"
  | .arrow => "Arrow"
  | .keyword word => word.label
  | .newline => "Newline"
  | .endOfInput => "Eof"

/-- The source text of a token, or a description of the two that have none of their own. -/
def literal : Token → String
  | .ident name => name
  | .int value => String.ofList (Decimal.integerText value.toInt)
  | .float value => Decimal.plain.write value
  | .string value => Text.quote value
  | .plus => "+"
  | .minus => "-"
  | .times => "*"
  | .divide => "/"
  | .power => "^"
  | .assign => "="
  | .equal => "=="
  | .notEqual => "!="
  | .less => "<"
  | .lessEqual => "<="
  | .greater => ">"
  | .greaterEqual => ">="
  | .leftParen => "("
  | .rightParen => ")"
  | .leftBracket => "["
  | .rightBracket => "]"
  | .comma => ","
  | .arrow => "->"
  | .keyword word => word.text
  | .newline => "newline"
  | .endOfInput => "end of input"

end Token

/-- A token and the place it was read from. -/
structure Lexeme where
  token : Token
  span : Span
  deriving DecidableEq, Inhabited

end Primer
