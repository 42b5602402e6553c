import Primer.Value.Basic

/-!
# Operators

What the operators of the language do to values. Besides arithmetic, lists answer to four of them:
`+` appends an element, `*` joins two lists, `/` takes an element and `-` removes one, by an index
that counts from the end when it is negative.
-/

namespace Primer

/-- Why an operator has no result. -/
inductive OperationFault where
  | illegal
  | divisionByZero
  | indexOutOfBounds
  | stringTooLong
  deriving DecidableEq, Repr

namespace Value

/-- The longest text that repetition may build: 256 MiB. -/
def maxStringLength : Nat :=
  268435456

/-- A length as a 64-bit integer. -/
def int64? (length : Nat) : Option Int64 :=
  if length < Nat.pow 2 63 then some (.ofNat length) else none

/-- The place an index stands for in a list of the given length. -/
def place? (length : Nat) : Number → Option Nat
  | .int index => do
    let length ← int64? length
    let place := if index < 0 then index + length else index
    if 0 ≤ place ∧ place < length then some place.toInt.toNat else none
  | .float _ => none

/-- A text so many times over. -/
def repeated (value : String) (count : Nat) : String :=
  if value.isEmpty then "" else Nat.repeat (fun built => built ++ value) count ""

def add : Value → Value → Except OperationFault Value
  | .number a, .number b => .ok (.number (a.add b))
  | .string a, .string b => .ok (.string (a ++ b))
  | .list elements, value => .ok (.list (elements ++ [value]))
  | _, _ => .error .illegal

def sub : Value → Value → Except OperationFault Value
  | .number a, .number b => .ok (.number (a.sub b))
  | .list elements, .number index =>
    match place? elements.length index with
    | some place => .ok (.list (elements.eraseIdx place))
    | none => .error .indexOutOfBounds
  | _, _ => .error .illegal

def mul : Value → Value → Except OperationFault Value
  | .number a, .number b => .ok (.number (a.mul b))
  | .string value, .number times =>
    let count := times.truncate.toInt.toNat
    if value.utf8ByteSize * count ≤ maxStringLength then .ok (.string (repeated value count))
    else .error .stringTooLong
  | .list as, .list bs => .ok (.list (as ++ bs))
  | _, _ => .error .illegal

def div : Value → Value → Except OperationFault Value
  | .number a, .number b =>
    match a.div? b with
    | some quotient => .ok (.number quotient)
    | none => .error .divisionByZero
  | .list elements, .number index =>
    match (place? elements.length index).bind (elements[·]?) with
    | some element => .ok element
    | none => .error .indexOutOfBounds
  | _, _ => .error .illegal

def pow : Value → Value → Except OperationFault Value
  | .number a, .number b => .ok (.number (a.pow b))
  | _, _ => .error .illegal

/-- Equality of numbers or of texts; `wanted` is the answer that counts as true. -/
def equals (wanted : Bool) : Value → Value → Except OperationFault Value
  | .number a, .number b => .ok (.ofBool ((a.order? b == some .eq) == wanted))
  | .string a, .string b => .ok (.ofBool ((a == b) == wanted))
  | _, _ => .error .illegal

/-- Whether the order of two numbers is accepted. Numbers without an order are not. -/
def ordered (accept : Ordering → Bool) : Value → Value → Except OperationFault Value
  | .number a, .number b => .ok (.ofBool ((a.order? b).any accept))
  | _, _ => .error .illegal

def logical (combine : Bool → Bool → Bool) : Value → Value → Except OperationFault Value
  | .number a, .number b => .ok (.ofBool (combine (!a.isZero) (!b.isZero)))
  | _, _ => .error .illegal

/-- The result of an operator between two values. -/
def binary (operator : Token) (left right : Value) : Except OperationFault Value :=
  match operator with
  | .plus => left.add right
  | .minus => left.sub right
  | .times => left.mul right
  | .divide => left.div right
  | .power => left.pow right
  | .equal | .keyword .isWord => left.equals true right
  | .notEqual => left.equals false right
  | .less => left.ordered (· == .lt) right
  | .greater => left.ordered (· == .gt) right
  | .lessEqual => left.ordered (· != .gt) right
  | .greaterEqual => left.ordered (· != .lt) right
  | .keyword .andWord => left.logical and right
  | .keyword .orWord => left.logical or right
  | _ => .error .illegal

def not : Value → Except OperationFault Value
  | .number value => .ok (.ofBool value.isZero)
  | _ => .error .illegal

def neg : Value → Except OperationFault Value
  | .number value => .ok (.number value.neg)
  | _ => .error .illegal

/-- The result of an operator before a value. -/
def unary (operator : Token) (operand : Value) : Except OperationFault Value :=
  match operator with
  | .minus => operand.neg
  | .keyword .notWord => operand.not
  | _ =>
    match operand with
    | .number _ => .ok operand
    | _ => .error .illegal

end Value

end Primer
