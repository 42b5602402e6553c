import Mathlib
import Primer.Number

/-!
# Exact integers

Arithmetic on integers gives the exact result as long as it is a 64-bit integer, and goes over to
binary64 when it is not.

## Main result

`pow_exact`: when a power of two integers is exact, and when it is a binary64.

## Proof strategy

Whether an integer is taken for a 64-bit one is decided by its value alone. A power is not computed
where the outcome is plain: the powers of 0, 1 and -1 from the second one on alternate, so the parity of
the exponent is enough, and the powers of any other base are out of range from the 64th on. Both
shortcuts are shown to give what the power itself would give, so what remains is the one limit that
shows, the greatest exponent that is tried at all.
-/

namespace Primer

namespace Decimal

/-- An integer is taken for the 64-bit integer of the same value. -/
theorem int64?_eq_some_iff {exact : Int} {value : Int64} :
    int64? exact = some value ↔ value.toInt = exact := by
  rw [int64?]
  split
  next fits =>
    rw [Option.some.injEq]
    constructor
    · rintro rfl
      exact Int64.toInt_ofInt_of_le fits.1 (Int.lt_add_one_of_le fits.2)
    · rintro rfl
      exact Int64.ofInt_toInt value
  next outside =>
    refine ⟨nofun, ?_⟩
    rintro rfl
    exact absurd ⟨Int64.minValue_le_toInt value, Int64.toInt_le value⟩ outside

theorem int64?_eq_none_iff {exact : Int} :
    int64? exact = none ↔ ¬(-2 ^ 63 ≤ exact ∧ exact < 2 ^ 63) := by
  have low : Int64.minValue.toInt = -2 ^ 63 := rfl
  have high : Int64.maxValue.toInt = 2 ^ 63 - 1 := rfl
  simp only [int64?, low, high, Int.le_sub_one_iff]
  split <;> simp_all

end Decimal

namespace Number

/-- The exact result is kept if it is a 64-bit integer. -/
theorem exactOr_of_toInt {exact : Int} {value : Int64} (same : value.toInt = exact)
    (rounded : Float) : exactOr exact rounded = .int value := by
  rw [exactOr, Decimal.int64?_eq_some_iff.mpr same]

/-! ### Powers -/

/-- From the second on, the powers of 0, 1 and -1 depend on the parity of the exponent. -/
theorem pow_parity {base : Int} (small : base.natAbs ≤ 1) {exponent : Nat} (more : 2 ≤ exponent) :
    base ^ (2 + exponent % 2) = base ^ exponent := by
  have cases : base = 0 ∨ base = 1 ∨ base = -1 := by omega
  rcases cases with rfl | rfl | rfl
  · rw [zero_pow (by omega), zero_pow (by omega)]
  · rw [one_pow, one_pow]
  · rw [pow_add, neg_one_sq, one_mul, ← neg_one_pow_eq_pow_mod_two]

/-- From the 64th on, the powers of any other integer are out of range. -/
theorem int64?_pow_eq_none {base : Int} (large : 1 < base.natAbs) {exponent : Nat}
    (more : 64 ≤ exponent) : Decimal.int64? (base ^ exponent) = none := by
  have size : 2 ^ 64 ≤ (base ^ exponent).natAbs := by
    calc 2 ^ 64 ≤ 2 ^ exponent := Nat.pow_le_pow_right (by decide) more
      _ ≤ base.natAbs ^ exponent := Nat.pow_le_pow_left large exponent
      _ = (base ^ exponent).natAbs := (Int.natAbs_pow base exponent).symm
  rw [Decimal.int64?_eq_none_iff]
  omega

/-- Up to the greatest exponent that is tried, a power is exact if it is in range. -/
theorem power?_eq_int64? {base : Int64} {exponent : Nat} (tried : exponent ≤ maxExactExponent) :
    power? base exponent = Decimal.int64? (base.toInt ^ exponent) := by
  have same (n : Nat) : base.toInt.pow n = base.toInt ^ n := rfl
  rw [power?, if_neg (Nat.not_lt.mpr tried)]
  simp only [same]
  by_cases small : base.toInt.natAbs ≤ 1
  · rw [if_pos small]
    split
    next => rfl
    next more => rw [pow_parity small (Nat.not_lt.mp more)]
  · rw [if_neg small]
    split
    next more => rw [int64?_pow_eq_none (Nat.not_le.mp small) more]
    next => rfl

theorem power?_eq_none {base : Int64} {exponent : Nat} (wide : maxExactExponent < exponent) :
    power? base exponent = none := by
  rw [power?, if_pos wide]

section

variable {base exponent : Int64} (natural : 0 ≤ exponent.toInt)
include natural

theorem pow_of_some {value : Int64} (found : power? base exponent.toInt.toNat = some value) :
    pow (.int base) (.int exponent) = .int value := by
  simp only [pow, natural, if_true, found]

theorem pow_of_none (missing : power? base exponent.toInt.toNat = none) :
    pow (.int base) (.int exponent)
      = .float (Float.pow (toFloat (.int base)) (toFloat (.int exponent))) := by
  simp only [pow, natural, if_true, missing]

end

/-- A power of integers with an exponent that is not negative is exact if it is in range, unless the
exponent has more than 32 bits and the base is 0, 1 or -1. Otherwise it is the power of the nearest
binary64s. -/
theorem pow_exact {base exponent : Int64} (natural : 0 ≤ exponent.toInt) :
    let power : Int := base.toInt ^ exponent.toInt.toNat
    let inRange : Prop := -2 ^ 63 ≤ power ∧ power < 2 ^ 63
    let untried : Prop := 2 ^ 32 ≤ exponent.toInt ∧ base.toInt.natAbs ≤ 1
    (inRange ∧ ¬untried → ∃ value : Int64, value.toInt = power ∧
      pow (.int base) (.int exponent) = .int value) ∧
    (¬inRange ∨ untried → pow (.int base) (.int exponent)
      = .float (Float.pow (toFloat (.int base)) (toFloat (.int exponent)))) := by
  intro power inRange untried
  have limit : maxExactExponent = 2 ^ 32 - 1 := rfl
  constructor
  · rintro ⟨fits, others⟩
    have some : Decimal.int64? power ≠ none := fun none =>
      Decimal.int64?_eq_none_iff.mp none fits
    -- A base that does not alternate has left the range long before the exponent is too wide.
    have tried : exponent.toInt.toNat ≤ maxExactExponent := by
      by_contra wide
      have large : 1 < base.toInt.natAbs := by omega
      exact some (int64?_pow_eq_none large (by omega))
    obtain ⟨value, found⟩ := Option.ne_none_iff_exists'.mp some
    refine ⟨value, Decimal.int64?_eq_some_iff.mp found, pow_of_some natural ?_⟩
    rw [power?_eq_int64? tried, found]
  · intro otherwise
    apply pow_of_none natural
    by_cases wide : maxExactExponent < exponent.toInt.toNat
    · exact power?_eq_none wide
    · have outside : ¬inRange := by
        rcases otherwise with outside | untried
        · exact outside
        · omega
      rw [power?_eq_int64? (Nat.not_lt.mp wide), Decimal.int64?_eq_none_iff]
      exact outside

/-- The power of -2 that is the least 64-bit integer, and the power of 2 that is one too great. -/
theorem pow_exact_bounds :
    0 ≤ (63 : Int64).toInt ∧ pow (.int (-2)) (.int 63) = .int Int64.minValue ∧
      ∃ rounded : Float, pow (.int 2) (.int 63) = .float rounded := by
  have natural : 0 ≤ (63 : Int64).toInt := by decide
  have least : (-2 : Int64).toInt ^ (63 : Int64).toInt.toNat = -2 ^ 63 := rfl
  have great : (2 : Int64).toInt ^ (63 : Int64).toInt.toNat = 2 ^ 63 := rfl
  obtain ⟨value, same, exact⟩ :=
    (@pow_exact (-2) 63 natural).1 ⟨by rw [least]; decide, by decide⟩
  have isLeast : value = Int64.minValue := Int64.toInt_inj.mp (same.trans least)
  refine ⟨natural, by rw [exact, isLeast], ?_⟩
  exact ⟨_, (@pow_exact 2 63 natural).2 (.inl (by rw [great]; decide))⟩

/-- Every power of 1 is in range, but one with an exponent of more than 32 bits is no integer. -/
theorem pow_one_of_wide_exponent :
    (1 : Int64).toInt ^ (4294967296 : Int64).toInt.toNat = (1 : Int64).toInt ∧
      pow (.int 1) (.int 4294967296) ≠ .int 1 := by
  constructor
  · exact one_pow _
  · have rounded := @pow_of_none 1 4294967296 (by decide) (power?_eq_none (by decide))
    simp [rounded]

end Number

end Primer
