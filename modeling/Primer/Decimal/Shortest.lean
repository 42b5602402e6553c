/-!
# The shortest decimal for a binary64

Every positive finite binary64 is `m · 2^q`. The reals that round to it form an interval around it,
whose ends belong to it exactly when `m` is even. Among the decimals in that interval the ones with
the fewest digits are tried first: on the grid of `n` digits only the two neighbours of the value can
be nearest, so they alone are tested, in exact natural-number arithmetic. Of two hits the nearer one
is taken, and of two equally near ones the greater.
-/

namespace Primer.Decimal

/-- A positive finite binary64, `significand · 2^exponent`. The gap below it is half the gap above it
when `narrowBelow` holds, which is at the powers of two. -/
structure Magnitude where
  significand : Nat
  exponent : Int
  narrowBelow : Bool
  deriving DecidableEq, Repr

/-- What the bits of a binary64 stand for. -/
inductive Shape where
  | undefined
  | infinite (negative : Bool)
  | zero (negative : Bool)
  | finite (negative : Bool) (magnitude : Magnitude)
  deriving DecidableEq, Repr

def shape (value : Float) : Shape :=
  let bits := value.toBits.toNat
  let negative := Nat.pow 2 63 ≤ bits
  let power : Nat := bits / Nat.pow 2 52 % 2048
  let fraction : Nat := bits % Nat.pow 2 52
  if power = 2047 then
    if fraction = 0 then .infinite negative else .undefined
  else if power = 0 then
    if fraction = 0 then .zero negative else .finite negative ⟨fraction, -1074, false⟩
  else
    .finite negative ⟨Nat.pow 2 52 + fraction, (power : Int) - 1075, fraction = 0 ∧ 1 < power⟩

/-- The decimal digits of a natural number, most significant first. -/
def digits (n : Nat) : List Char :=
  Nat.toDigits 10 n

/-- A positive decimal in scientific form: its digits, without zeros at the end, and the power of ten
of the first of them. -/
structure Scientific where
  digits : List Char
  exponent : Int
  deriving DecidableEq, Repr

/-- A magnitude and the ends of its rounding interval over one denominator. -/
structure Interval where
  low : Nat
  value : Nat
  high : Nat
  denominator : Nat
  closed : Bool
  deriving Repr

def Magnitude.interval (m : Magnitude) : Interval :=
  let scale := Nat.pow 2 (m.exponent - 2).toNat
  { low := (4 * m.significand - if m.narrowBelow then 1 else 2) * scale
    value := 4 * m.significand * scale
    high := (4 * m.significand + 2) * scale
    denominator := Nat.pow 2 (2 - m.exponent).toNat
    closed := m.significand % 2 = 0 }

/-- The interval divided by a power of ten. -/
def Interval.scale (i : Interval) (power : Int) : Interval :=
  let up := Nat.pow 10 (-power).toNat
  { low := i.low * up
    value := i.value * up
    high := i.high * up
    denominator := i.denominator * Nat.pow 10 power.toNat
    closed := i.closed }

/-- The power of ten of the first digit of the value. -/
def Interval.order (i : Interval) : Int :=
  let guess : Int := (digits i.value).length - (digits i.denominator).length
  let scaled := i.scale guess
  if scaled.denominator ≤ scaled.value then guess else guess - 1

/-- The whole number that an interval admits next to its value, the nearer one if it admits both
neighbours and the upper one if they are equally near. -/
def Interval.whole? (i : Interval) : Option Nat :=
  let below := i.value / i.denominator
  let above := below + 1
  let admitsBelow :=
    if i.closed then i.low ≤ below * i.denominator else i.low < below * i.denominator
  let admitsAbove :=
    if i.closed then above * i.denominator ≤ i.high else above * i.denominator < i.high
  if admitsAbove ∧ (¬ admitsBelow ∨ (below + above) * i.denominator ≤ 2 * i.value) then some above
  else if admitsBelow then some below
  else none

/-- Digits for the finest of the remaining grids, coarsest first. Seventeen digits always suffice. -/
def Interval.search (i : Interval) (order : Int) : (count left : Nat) → Nat × Int
  | count, 0 =>
    let power := order - count
    let scaled := i.scale power
    ((2 * scaled.value + scaled.denominator) / (2 * scaled.denominator), power)
  | count, left + 1 =>
    let power := order - count
    match (i.scale power).whole? with
    | some n => (n, power)
    | none => i.search order (count + 1) left

/-- The digits of `n` without the zeros at their end. -/
def significantDigits (n : Nat) : List Char :=
  ((digits n).reverse.dropWhile (· == '0')).reverse

/-- The shortest decimal that rounds to a magnitude. -/
def Magnitude.shortest (m : Magnitude) : Scientific :=
  let interval := m.interval
  let (n, power) := interval.search interval.order 0 17
  { digits := significantDigits n
    exponent := power + (digits n).length - 1 }

end Primer.Decimal
