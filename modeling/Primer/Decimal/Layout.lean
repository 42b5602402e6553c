import Primer.Decimal.Shortest

/-!
# Writing numbers

Integers are written in plain digits. A binary64 is written from its shortest digits, and a `Layout`
decides between positional and exponent form and whether a whole number keeps a fractional zero.
-/

namespace Primer.Decimal

/-- The decimal text of an integer. -/
def integerText : Int → List Char
  | .ofNat n => digits n
  | .negSucc n => '-' :: digits (n + 1)

/-- The choices of one way to write a binary64. Both depend on the power of ten of its first digit. -/
structure Layout where
  /-- Written without an exponent. -/
  positional : Int → Bool
  /-- A whole number without exponent ends in `.0`. -/
  pointZero : Int → Bool

/-- Digits with the point at its place. -/
def positionalText (layout : Layout) (s : Scientific) : List Char :=
  if s.exponent < 0 then
    ['0', '.'] ++ List.replicate (-s.exponent - 1).toNat '0' ++ s.digits
  else
    let wholeCount := s.exponent.toNat + 1
    let whole := s.digits.take wholeCount
    let fraction := s.digits.drop wholeCount
    let padded := whole ++ List.replicate (wholeCount - whole.length) '0'
    if fraction.isEmpty then
      if layout.pointZero s.exponent then padded ++ ['.', '0'] else padded
    else padded ++ '.' :: fraction

/-- One digit before the point and the power of ten after an `e`. -/
def exponentText (s : Scientific) : List Char :=
  let fraction := s.digits.drop 1
  s.digits.take 1 ++ (if fraction.isEmpty then [] else '.' :: fraction)
    ++ 'e' :: integerText s.exponent

def Layout.write (layout : Layout) (value : Float) : String :=
  let signed (negative : Bool) (s : Scientific) : List Char :=
    let body :=
      if layout.positional s.exponent then positionalText layout s else exponentText s
    if negative then '-' :: body else body
  match shape value with
  | .undefined => "NaN"
  | .infinite negative => if negative then "-inf" else "inf"
  | .zero negative => String.ofList (signed negative ⟨['0'], 0⟩)
  | .finite negative magnitude => String.ofList (signed negative magnitude.shortest)

/-- Never an exponent, and whole numbers without a fraction. -/
def plain : Layout where
  positional _ := true
  pointZero _ := false

/-- Never an exponent; whole numbers below 10^16 show that they are not integers. -/
def shown : Layout where
  positional _ := true
  pointZero order := order < 16

/-- Whole numbers keep their fractional zero; very small and very large numbers take an exponent. -/
def source : Layout where
  positional order := -4 ≤ order ∧ order < 16
  pointZero _ := true

end Primer.Decimal
