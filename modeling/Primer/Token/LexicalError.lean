import Primer.Source.Span

/-!
# Text that is no token

The ways in which source text can fail to be a token, with the wording shown to the programmer.
-/

namespace Primer

inductive LexicalFault where
  | unrecognized (found : Char)
  | missing (wanted after : Char)
  | secondPoint
  | tooLarge
  | unterminated
  deriving DecidableEq, Repr

structure LexicalError where
  fault : LexicalFault
  span : Span
  deriving DecidableEq, Repr

namespace LexicalFault

def title : LexicalFault → String
  | .missing _ _ => "Expected Character"
  | _ => "Illegal Character"

def message : LexicalFault → String
  | .unrecognized found => s!"'{found}'"
  | .missing wanted after => s!"'{wanted}' (after '{after}')"
  | .secondPoint => "Found more than one decimal point in a number"
  | .tooLarge => "Integer literal is too large"
  | .unterminated => "String literal is missing its closing '\"'"

def hint : LexicalFault → String
  | .missing _ _ =>
    "A character is missing here. Check two-character operators such as `!=`, `==`, `<=` and `->`."
  | .unterminated => "Close the string with a matching `\"` on the same statement."
  | _ =>
    "There is an unsupported character at the highlighted spot. Remove or replace it with a valid "
      ++ "character (letters, numbers, parentheses, operators, etc.)."

end LexicalFault

end Primer
