import Primer.Value.Operators

/-!
# Programs that fail

Why a run stops, where, and under which calls, with the wording shown to the programmer.
-/

namespace Primer

inductive RuntimeFault where
  | notDefined (name : String)
  | tooManyArgs (count : Nat) (function : String)
  | tooFewArgs (count : Nat) (function : String)
  | operation (fault : OperationFault)
  | outsideLoop (word : Keyword)
  | streamClosed
  | io (message : String)
  deriving DecidableEq

/-- A call under way: the name of what was called, and the span of the call in the frame before.
The frame of the program itself has no such span. -/
structure Frame where
  name : String
  entry : Option Span
  deriving DecidableEq

def Frame.program : Frame :=
  ⟨"<program>", none⟩

structure RuntimeError where
  fault : RuntimeFault
  span : Span
  /-- The calls under way, the innermost first. -/
  frames : List Frame
  deriving DecidableEq

def OperationFault.message : OperationFault → String
  | .illegal => "Illegal operation"
  | .divisionByZero => "Division by zero"
  | .indexOutOfBounds => "Element index out of bounds"
  | .stringTooLong => "Repeated string is too long"

namespace RuntimeFault

def message : RuntimeFault → String
  | .notDefined name => "'" ++ name ++ "' is not defined"
  | .tooManyArgs count function => toString count ++ " too many args passed into " ++ function
  | .tooFewArgs count function => toString count ++ " too few args passed into " ++ function
  | .operation fault => fault.message
  | .outsideLoop word => "'" ++ word.text ++ "' outside loop"
  | .streamClosed => "No input received; stream closed."
  | .io message => "Console I/O failed: " ++ message

def hint : RuntimeFault → String
  | .notDefined _ =>
    "Variables must be assigned before they are used. Check the spelling, and remember that names "
      ++ "assigned inside a function are not visible outside of it."
  | .tooManyArgs _ _ | .tooFewArgs _ _ =>
    "Pass exactly as many arguments as the function has parameters."
  | .operation .illegal =>
    "This operation is not supported for these values. For example numbers and strings cannot be "
      ++ "added together, and only functions can be called."
  | .operation .divisionByZero =>
    "The right-hand side of `/` evaluated to zero. Check the divisor before dividing."
  | .operation .indexOutOfBounds =>
    "List indexes start at 0 and negative indexes count from the end. The index must be a whole "
      ++ "number smaller than the length of the list."
  | .operation .stringTooLong =>
    "The repeat count on the right-hand side of `*` is too large for the string."
  | .outsideLoop _ =>
    "`break` and `continue` can only be used inside `for`, `while` or `repeat` loops."
  | .streamClosed => "The program asked for input but the input stream was closed."
  | .io _ => "Reading from or writing to the console failed."

end RuntimeFault

end Primer
