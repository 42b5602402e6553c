import Primer.Decimal.Layout

/-!
# Reading numbers

The texts that denote a 64-bit integer, and those that denote a binary64, with the value each denotes.
A binary64 is the one nearest to the decimal, and of two equally near ones the even one. It is found in
exact natural-number arithmetic: the bits of the binary64 numbers count them in their order, so that a
significand that is rounded up too far carries into the exponent, and a decimal beyond the range gives
the number behind the last one, which is infinity.
-/

namespace Primer.Decimal

/-- ASCII digits only: no other script's digits count. -/
def isDigit (c : Char) : Bool :=
  '0' ≤ c && c ≤ '9'

/-- The number that a run of digits denotes. -/
def natural (text : List Char) : Nat :=
  text.foldl (fun n c => n * 10 + (c.toNat - '0'.toNat)) 0

/-- An integer that fits 64 bits with sign. -/
def int64? (value : Int) : Option Int64 :=
  if Int64.minValue.toInt ≤ value ∧ value ≤ Int64.maxValue.toInt then some (Int64.ofInt value)
  else none

/-- A sign at the start of a text: whether it is a minus, and the text after it. -/
def takeSign : List Char → Bool × List Char
  | '-' :: rest => (true, rest)
  | '+' :: rest => (false, rest)
  | text => (false, text)

/-- The integer that an optional sign and digits denote. -/
def integer? (text : List Char) : Option Int :=
  let (negative, body) := takeSign text
  if body.isEmpty || !body.all isDigit then none
  else
    let magnitude : Int := natural body
    some (if negative then -magnitude else magnitude)

/-- The 64-bit integer a text denotes. -/
def readInt64? (text : List Char) : Option Int64 :=
  (integer? text).bind int64?

/-- The bits of infinity. -/
def infinityBits : Nat :=
  2047 * Nat.pow 2 52

/-- The whole number nearest to a ratio, and of two equally near ones the even one. -/
def halfEven (numerator denominator : Nat) : Nat :=
  let below := numerator / denominator
  let rest := 2 * (numerator % denominator)
  if rest < denominator ∨ rest = denominator ∧ below % 2 = 0 then below else below + 1

/-- The exponent of the greatest power of two that is not above a ratio. -/
def binaryOrder (numerator denominator : Nat) : Int :=
  let guess : Int := (numerator.log2 : Int) - denominator.log2
  if denominator * Nat.pow 2 guess.toNat ≤ numerator * Nat.pow 2 (-guess).toNat then guess
  else guess - 1

/-- The bits of the binary64 nearest to a positive ratio. -/
def nearestBits (numerator denominator : Nat) : Nat :=
  let exponent := max (binaryOrder numerator denominator - 52) (-1074)
  let significand :=
    halfEven (numerator * Nat.pow 2 (-exponent).toNat) (denominator * Nat.pow 2 exponent.toNat)
  min ((exponent + 1074).toNat * Nat.pow 2 52 + significand) infinityBits

/-- The bits of the binary64 nearest to `significand · 10^power`. Decimals far outside the range are
settled by their order of magnitude alone. -/
def decimalBits (significand : List Char) (power : Int) : Nat :=
  let leading := significand.dropWhile (· == '0')
  let order := leading.length + power
  if leading.isEmpty || order < -400 then 0
  else if 400 < order then infinityBits
  else nearestBits (natural leading * Nat.pow 10 power.toNat) (Nat.pow 10 (-power).toNat)

/-- The binary64 nearest to `significand · 10^power`. -/
def nearest (significand : List Char) (power : Int) : Float :=
  Float.ofBits (.ofNat (decimalBits significand power))

/-- The power of ten written after a significand. -/
def exponent? : List Char → Option Int
  | [] => some 0
  | mark :: rest => if mark = 'e' || mark = 'E' then integer? rest else none

/-- The digits behind a point at the start of a text, and the text after them. -/
def takeFraction : List Char → List Char × List Char
  | '.' :: text => (text.takeWhile isDigit, text.dropWhile isDigit)
  | text => ([], text)

/-- An unsigned decimal: digits around an optional point, then an optional exponent. -/
def unsigned? (text : List Char) : Option Float :=
  let whole := text.takeWhile isDigit
  let (fraction, rest) := takeFraction (text.dropWhile isDigit)
  if whole.isEmpty && fraction.isEmpty then none
  else (exponent? rest).map fun power => nearest (whole ++ fraction) (power - fraction.length)

/-- A name of infinity or of no number, in great or small letters. -/
def named? (text : List Char) : Option Float :=
  let name := String.ofList (text.map Char.toLower)
  if name = "inf" ∨ name = "infinity" then some (1.0 / 0.0)
  else if name = "nan" then some (0.0 / 0.0)
  else none

/-- The binary64 a text denotes: a name or a decimal, with an optional sign. -/
def readFloat? (text : List Char) : Option Float :=
  let (negative, body) := takeSign text
  ((named? body).or (unsigned? body)).map fun magnitude =>
    if negative then -magnitude else magnitude

end Primer.Decimal
