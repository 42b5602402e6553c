import Primer.Machine.Console
import Primer.Machine.RuntimeError
import Primer.Machine.Scope
import Primer.Text.Blank

/-!
# Built-in functions

The built-in functions hold short dialogues over the console. `say` writes a line and waits for it to
be acknowledged. The others write a request and read lines until one answers it: each line that does
not is quoted back and the request is repeated.

A built-in function finds its arguments in its call scope, under the names `arg0`, `arg1` and so on. The
call scope is inside the scope of programs.
-/

namespace Primer

/-- Why a dialogue breaks off. -/
inductive Interruption where
  | failed (fault : RuntimeFault)
  | awaitingInput
  deriving DecidableEq

abbrev Dialogue := EStateM Interruption Console

namespace Dialogue

/-- Writes a line; a failure ends the dialogue. -/
def write (line : String) : Dialogue Unit := fun console =>
  match console.write line with
  | (.ok _, console) => .ok () console
  | (.error message, console) => .error (.failed (.io message)) console

/-- Reads a line that has to come; a failure and the end of the stream end the dialogue. -/
def read : Dialogue String := fun console =>
  match console.read with
  | (.line line, console) => .ok line console
  | (.closed, console) => .error (.failed .streamClosed) console
  | (.failed message, console) => .error (.failed (.io message)) console
  | (.pending, console) => .error .awaitingInput console

/-- Reads a line of which neither the text nor the success matters. -/
def acknowledge : Dialogue Unit := fun console =>
  match console.read with
  | (.pending, console) => .error .awaitingInput console
  | (_, console) => .ok () console

end Dialogue

namespace InputKind

def name : InputKind → String
  | .int => "int"
  | .float => "float"
  | .string => "string"

/-- The value a line answers with, if it does. White space around a number is ignored. -/
def value? (kind : InputKind) (line : String) : Option Value :=
  match kind with
  | .string => some (.string line)
  | .int =>
    (Decimal.readInt64? (Text.trim line).toList).map fun value => .number (.int value)
  | .float =>
    (Decimal.readFloat? (Text.trim line).toList).map fun value => .number (.float value)

/-- What is written about a line that is no answer. Every line answers a request for a text. -/
def complaint (kind : InputKind) (line : String) : String :=
  match kind with
  | .float => "Invalid float: " ++ line
  | _ => "Invalid integer: " ++ line

def request (kind : InputKind) (prompt : String) : String :=
  "INPUT_REQUEST:" ++ kind.name ++ ":" ++ prompt

end InputKind

namespace Native

/-- The name under which an argument is passed. -/
def argumentName (index : Nat) : String :=
  "arg" ++ toString index

/-- The call scope for arguments, inside the scope of programs. -/
def callScope (globals : ScopeId) (arguments : List Value) : Scope :=
  (Scope.empty (some globals)).setAll
    (arguments.zipIdx.map fun (value, index) => (argumentName index, value))

/-- The arguments from `index` on, up to the first name that is not bound. A scope holds no more
arguments than bindings. -/
def argumentsFrom (scope : Scope) (index : Nat) : Nat → List Value
  | 0 => []
  | budget + 1 =>
    match scope.own? (argumentName index) with
    | some value => value :: argumentsFrom scope (index + 1) budget
    | none => []

def arguments (scope : Scope) : List Value :=
  argumentsFrom scope 0 scope.bindings.length

/-- Writes the arguments and waits for the acknowledgement. -/
def speak (arguments : List Value) : Dialogue Value := do
  Dialogue.write ("SAY_OUTPUT:" ++ " ".intercalate (arguments.map Value.text))
  Dialogue.acknowledge
  return .null

/-- Reads lines until one answers. The budget is the number of lines in the queue: when it is spent
the queue is empty, and reading fails. -/
def awaitAnswer (kind : InputKind) (request : String) : Nat → Dialogue Value
  | 0 => do
    discard Dialogue.read
    throw (.failed .streamClosed)
  | budget + 1 => do
    let line ← Dialogue.read
    match kind.value? line with
    | some value => return value
    | none =>
      Dialogue.write (kind.complaint line)
      Dialogue.write request
      awaitAnswer kind request budget

/-- Writes a request and reads lines until one answers it. -/
def inquire (kind : InputKind) (prompt : String) : Dialogue Value := do
  let request := kind.request prompt
  Dialogue.write request
  awaitAnswer kind request (← get).input.length

/-- Runs a built-in function in its call scope. -/
def execute (native : Native) (scope : Scope) : Dialogue Value :=
  match native with
  | .say => speak (arguments scope)
  | .ask kind => inquire kind (((scope.own? (argumentName 0)).map Value.text).getD "")

end Native

end Primer
