import Primer.Decimal.Reading

/-!
# Numbers

A number is a 64-bit integer or a binary64. Arithmetic on integers is exact as long as the result
fits and goes over to binary64 when it does not; an operation with a binary64 on either side is done
in binary64. Division always is.
-/

namespace Primer

inductive Number where
  | int (value : Int64)
  | float (value : Float)
  deriving DecidableEq, Inhabited

namespace Number

def toFloat : Number → Float
  | .int value => Float.ofInt value.toInt
  | .float value => value

def isZero : Number → Bool
  | .int value => value = 0
  | .float value => value == 0.0

def ofBool (b : Bool) : Number :=
  .int (if b then 1 else 0)

/-- The number without its fraction, brought into the range of 64 bits. -/
def truncate : Number → Int64
  | .int value => value
  | .float value => value.toInt64

/-- The exact integer if it fits, and otherwise the given binary64. -/
def exactOr (exact : Int) (rounded : Float) : Number :=
  match Decimal.int64? exact with
  | some value => .int value
  | none => .float rounded

def add : Number → Number → Number
  | .int a, .int b => exactOr (a.toInt + b.toInt) (toFloat (.int a) + toFloat (.int b))
  | a, b => .float (a.toFloat + b.toFloat)

def sub : Number → Number → Number
  | .int a, .int b => exactOr (a.toInt - b.toInt) (toFloat (.int a) - toFloat (.int b))
  | a, b => .float (a.toFloat - b.toFloat)

def mul : Number → Number → Number
  | .int a, .int b => exactOr (a.toInt * b.toInt) (toFloat (.int a) * toFloat (.int b))
  | a, b => .float (a.toFloat * b.toFloat)

/-- The quotient, unless the divisor is zero. -/
def div? (a b : Number) : Option Number :=
  if b.isZero then none else some (.float (a.toFloat / b.toFloat))

/-- The exponents up to which powers of integers are computed exactly: those of 32 bits. -/
def maxExactExponent : Nat :=
  4294967295

/-- The exact power of an integer, if it fits. The powers of 0, 1 and -1 depend on the exponent only
through its parity, and any other base leaves the range before exponent 64. -/
def power? (base : Int64) (exponent : Nat) : Option Int64 :=
  if maxExactExponent < exponent then none
  else if base.toInt.natAbs ≤ 1 then
    Decimal.int64? (base.toInt.pow (if exponent < 2 then exponent else 2 + exponent % 2))
  else if 64 ≤ exponent then none
  else Decimal.int64? (base.toInt.pow exponent)

def pow : Number → Number → Number
  | .int a, .int b =>
    let rounded := Number.float (Float.pow (toFloat (.int a)) (toFloat (.int b)))
    if 0 ≤ b.toInt then
      match power? a b.toInt.toNat with
      | some value => .int value
      | none => rounded
    else rounded
  | a, b => .float (Float.pow a.toFloat b.toFloat)

def neg : Number → Number
  | .int a => exactOr (-a.toInt) (-toFloat (.int a))
  | .float x => .float (-x)

/-- The order of two binary64 values, which a NaN has with none. -/
def compareFloat (x y : Float) : Option Ordering :=
  if x < y then some .lt
  else if x == y then some .eq
  else if y < x then some .gt
  else none

/-- The order of two numbers: exact between integers, and as binary64 otherwise. -/
def order? : Number → Number → Option Ordering
  | .int a, .int b => some (compare a.toInt b.toInt)
  | a, b => compareFloat a.toFloat b.toFloat

/-- Whether two numbers are of one kind and have one value. -/
def same : Number → Number → Bool
  | .int a, .int b => a = b
  | .float x, .float y => x == y
  | _, _ => false

/-- A number as programs print it. -/
def text : Number → String
  | .int value => String.ofList (Decimal.integerText value.toInt)
  | .float value => Decimal.shown.write value

/-- A number as source code writes it. -/
def sourceText : Number → String
  | .int value => String.ofList (Decimal.integerText value.toInt)
  | .float value => Decimal.source.write value

end Number

end Primer
