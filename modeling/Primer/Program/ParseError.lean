import Primer.Token.Basic
import Primer.Token.LexicalError

/-!
# Text that is no program

Why tokens do not make up a program, with the wording shown to the programmer.
-/

namespace Primer

inductive ParseFault where
  | expectedIdent
  | expectedExpression
  | unexpected (found : Token) (expected : List String)
  | lexical (error : LexicalError)
  deriving DecidableEq

structure ParseError where
  fault : ParseFault
  span : Span
  deriving DecidableEq

/-- A token as an error message names it. -/
def Token.described : Token → String
  | .int _ => "an Int"
  | .float _ => "a Float"
  | .string _ => "a String"
  | .ident _ => "an Identifier"
  | .newline => "a newline"
  | .endOfInput => "the end of input"
  | .keyword word => "the keyword `" ++ word.text ++ "`"
  | token => "`" ++ token.literal ++ "`"

namespace ParseFault

/-- What would have been accepted instead. -/
def expected : ParseFault → List String
  | .expectedIdent => []
  | .expectedExpression =>
    ["a number, string or identifier", "`+`, `-`, `not`, `(` or `[`",
     "`if`, `for`, `while`, `repeat` or `fun`"]
  | .unexpected _ expected => expected
  | .lexical _ => []

def title : ParseFault → String
  | .lexical error => error.fault.title
  | _ => "Invalid Syntax"

def message : ParseFault → String
  | .expectedIdent => "Expected identifier"
  | .expectedExpression => "Expected an expression"
  | .unexpected found expected =>
    "Found " ++ found.described ++ ", expected " ++ ", ".intercalate expected
  | .lexical error => error.fault.message

def hint (fault : ParseFault) : String :=
  match fault with
  | .lexical error => error.fault.hint
  | .expectedExpression =>
    "It looks like an expression or value was expected here (for example after `=`). If you started "
      ++ "an assignment like `a =`, provide a value or expression on the right-hand side."
  | _ =>
    if fault.expected.contains "`end`" then
      "A block opened with `then` must be closed with `end`. Check that every `if`, `for`, `while`, "
        ++ "`repeat` and `fun` block has a matching `end`."
    else if fault.expected.isEmpty then
      "The code here doesn't match the expected syntax. Check for missing operators, incomplete "
        ++ "assignments (like `a =`), unmatched parentheses, or extra tokens."
    else
      "Expected one of: " ++ ", ".intercalate fault.expected
        ++ ". Check for missing operators or incomplete expressions."

end ParseFault

end Primer
