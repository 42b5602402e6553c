import Mathlib
import Primer.Decimal.Reading

/-!
# Rounding to the nearest binary64

The bits of the nonnegative binary64 numbers count them in their order. Their values are rational
numbers, and infinity stands for the first value that is out of range, `2^1024`. A rational number is
rounded to the nearest of them, and of two equally near ones to the one with even bits.

The numbers that round to one lie between the points halfway to its two neighbours (`Within`), so that
rounding is a matter of two comparisons.

## Main results

- `Within.isNearest`: a number between these points is nearer to the one than to all others.
- `IsNearest.unique`: there is only one nearest number.
- `within_nearestBits`: `nearestBits` rounds to the nearest number.
-/

namespace Primer.Decimal

/-- A power with an integer exponent as a ratio of natural powers, one of which is `1`. -/
theorem zpow_eq_div {base : ℚ} (nonzero : base ≠ 0) (power : ℤ) :
    base ^ power = base ^ power.toNat / base ^ (-power).toNat := by
  rw [← zpow_natCast, ← zpow_natCast, ← zpow_sub₀ nonzero]
  congr 1
  omega

section Scaling

variable {base denominator : ℕ} (positive : 0 < base) (positive' : 0 < denominator)
include positive positive'

/-- A comparison with a ratio in natural numbers, where only one of the two powers is not `1`. -/
theorem scaled_le_iff (n numerator : ℕ) (power : ℤ) :
    n * (denominator * base ^ power.toNat) ≤ numerator * base ^ (-power).toNat ↔
      (n * base ^ power : ℚ) ≤ numerator / denominator := by
  have above : (0 : ℚ) < denominator := by exact_mod_cast positive'
  have nonzero : (base : ℚ) ≠ 0 := by exact_mod_cast positive.ne'
  rw [zpow_eq_div nonzero, ← mul_div_assoc, div_le_div_iff₀ (by positivity) above, mul_assoc,
    mul_comm ((base : ℚ) ^ power.toNat)]
  exact_mod_cast Iff.rfl

theorem le_scaled_iff (n numerator : ℕ) (power : ℤ) :
    numerator * base ^ (-power).toNat ≤ n * (denominator * base ^ power.toNat) ↔
      (numerator / denominator : ℚ) ≤ n * base ^ power := by
  have above : (0 : ℚ) < denominator := by exact_mod_cast positive'
  have nonzero : (base : ℚ) ≠ 0 := by exact_mod_cast positive.ne'
  rw [zpow_eq_div nonzero, ← mul_div_assoc, div_le_div_iff₀ above (by positivity), mul_assoc,
    mul_comm ((base : ℚ) ^ power.toNat)]
  exact_mod_cast Iff.rfl

end Scaling

namespace Bits

/-- How many times the gap between neighbours has doubled. -/
def level (bits : ℕ) : ℕ :=
  bits / 2 ^ 52 - 1

def significand (bits : ℕ) : ℕ :=
  bits - level bits * 2 ^ 52

/-- The distance to the next number. -/
def gap (bits : ℕ) : ℚ :=
  2 ^ ((level bits : ℤ) - 1074)

def value (bits : ℕ) : ℚ :=
  significand bits * gap bits

def halfway (bits : ℕ) : ℚ :=
  value bits + gap bits / 2

theorem gap_pos (bits : ℕ) : 0 < gap bits :=
  zpow_pos rfl _

theorem parts (bits : ℕ) :
    bits = level bits * 2 ^ 52 + significand bits ∧ significand bits < 2 ^ 53 ∧
      (level bits = 0 ∨ 2 ^ 52 ≤ significand bits) := by
  unfold significand level
  omega

/-- Also at the end of a level, where the significand carries into the next one. -/
theorem value_of_parts {level significand : ℕ} (narrow : significand ≤ 2 ^ 53)
    (wide : level = 0 ∨ 2 ^ 52 ≤ significand) :
    value (level * 2 ^ 52 + significand) = significand * 2 ^ ((level : ℤ) - 1074) := by
  rcases narrow.lt_or_eq with inside | rfl
  · have same : Bits.level (level * 2 ^ 52 + significand) = level := by
      unfold Bits.level
      omega
    rw [value, gap, Bits.significand, same, Nat.add_sub_cancel_left]
  · have next : Bits.level (level * 2 ^ 52 + 2 ^ 53) = level + 1 := by
      unfold Bits.level
      omega
    have rest : level * 2 ^ 52 + 2 ^ 53 - (level + 1) * 2 ^ 52 = 2 ^ 52 := by omega
    rw [value, gap, Bits.significand, next, rest, Nat.cast_succ, add_sub_right_comm,
      zpow_add_one₀ two_ne_zero]
    push_cast
    ring

theorem value_succ (bits : ℕ) : value (bits + 1) = value bits + gap bits := by
  obtain ⟨whole, narrow, wide⟩ := parts bits
  have next : bits + 1 = level bits * 2 ^ 52 + (significand bits + 1) := by omega
  rw [next, value_of_parts (by omega) (by omega), value, gap]
  push_cast
  ring

theorem value_lt_halfway (bits : ℕ) : value bits < halfway bits := by
  have := gap_pos bits
  rw [halfway]
  linarith

theorem halfway_lt_value_succ (bits : ℕ) : halfway bits < value (bits + 1) := by
  have := gap_pos bits
  rw [halfway, value_succ]
  linarith

theorem halfway_of_parts {level significand : ℕ} (narrow : significand < 2 ^ 53)
    (wide : level = 0 ∨ 2 ^ 52 ≤ significand) :
    halfway (level * 2 ^ 52 + significand) = (significand + 1 / 2) * 2 ^ ((level : ℤ) - 1074) := by
  have middle (bits : ℕ) : halfway bits = (value bits + value (bits + 1)) / 2 := by
    rw [halfway, value_succ]
    ring
  rw [middle, add_assoc, value_of_parts narrow.le wide, value_of_parts narrow (by omega)]
  push_cast
  ring

theorem value_strictMono : StrictMono value :=
  strictMono_nat_of_lt_succ fun bits =>
    (value_lt_halfway bits).trans (halfway_lt_value_succ bits)

theorem halfway_strictMono : StrictMono halfway :=
  strictMono_nat_of_lt_succ fun bits =>
    (halfway_lt_value_succ bits).trans (value_lt_halfway (bits + 1))

/-- No number up to infinity is nearer, and if another one is as near the bits are even. -/
structure IsNearest (x : ℚ) (bits : ℕ) : Prop where
  le_infinity : bits ≤ infinityBits
  nearest : ∀ other ≤ infinityBits, |x - value bits| ≤ |x - value other|
  even : ∀ other ≤ infinityBits, other ≠ bits →
    |x - value bits| = |x - value other| → Even bits

/-- Equally near numbers are neighbours: a number between them would be nearer. -/
theorem IsNearest.le {x : ℚ} {bits bits' : ℕ} (nearest : IsNearest x bits)
    (nearest' : IsNearest x bits') : bits' ≤ bits := by
  by_contra less
  rw [not_le] at less
  have distance : |x - value bits| = |x - value bits'| :=
    le_antisymm (nearest.nearest _ nearest'.le_infinity) (nearest'.nearest _ nearest.le_infinity)
  have even := nearest.even bits' nearest'.le_infinity less.ne' distance
  have even' := nearest'.even bits nearest.le_infinity less.ne distance.symm
  have between : bits + 1 < bits' := by
    rcases Nat.lt_or_eq_of_le less with between | rfl
    · exact between
    · exact absurd even' (Nat.not_even_iff_odd.mpr even.add_one)
  have lower := value_strictMono (Nat.lt_add_one bits)
  have upper := value_strictMono between
  have closer := nearest.nearest (bits + 1) (between.le.trans nearest'.le_infinity)
  have middle : 2 * x = value bits + value bits' := by
    rcases abs_eq_abs.mp distance with same | opposite <;> linarith
  rw [abs_of_pos (by linarith), le_abs] at closer
  rcases closer with closer | closer <;> linarith

theorem IsNearest.unique {x : ℚ} {bits bits' : ℕ} (nearest : IsNearest x bits)
    (nearest' : IsNearest x bits') : bits = bits' :=
  le_antisymm (nearest'.le nearest) (nearest.le nearest')

/-- Above the point halfway to the number below. -/
def AtLeast (x : ℚ) (bits : ℕ) : Prop :=
  ∀ below, below + 1 = bits → halfway below ≤ x ∧ (halfway below = x → Even bits)

/-- Below the point halfway to the number above. -/
def AtMost (x : ℚ) (bits : ℕ) : Prop :=
  x ≤ halfway bits ∧ (x = halfway bits → Even bits)

/-- The interval of the rational numbers that round to the bits. It has no end at infinity. -/
structure Within (x : ℚ) (bits : ℕ) : Prop where
  le_infinity : bits ≤ infinityBits
  atLeast : AtLeast x bits
  atMost : bits < infinityBits → AtMost x bits

theorem AtLeast.of_lt {x : ℚ} {bits : ℕ} (more : ∀ below, below + 1 = bits → halfway below < x) :
    AtLeast x bits :=
  fun below next => ⟨(more below next).le, fun same => absurd same (more below next).ne⟩

theorem AtMost.of_lt {x : ℚ} {bits : ℕ} (less : x < halfway bits) : AtMost x bits :=
  ⟨less.le, fun same => absurd same less.ne⟩

theorem AtLeast.nearer {x : ℚ} {bits other : ℕ} (atLeast : AtLeast x bits) (less : other < bits) :
    |x - value bits| ≤ |x - value other| ∧ (|x - value bits| = |x - value other| → Even bits) := by
  obtain ⟨below, rfl⟩ := Nat.exists_eq_add_one_of_ne_zero (Nat.ne_zero_of_lt less)
  obtain ⟨enough, even⟩ := atLeast below rfl
  have far : value other ≤ value below := value_strictMono.monotone (Nat.lt_succ_iff.mp less)
  have positive := gap_pos below
  rw [halfway] at enough even
  rw [value_succ, abs_of_nonneg (by linarith : 0 ≤ x - value other)]
  refine ⟨abs_le.mpr ⟨by linarith, by linarith⟩, fun same => even ?_⟩
  rcases eq_or_eq_neg_of_abs_eq same with same | same <;> linarith

theorem AtMost.nearer {x : ℚ} {bits other : ℕ} (atMost : AtMost x bits) (less : bits < other) :
    |x - value bits| ≤ |x - value other| ∧ (|x - value bits| = |x - value other| → Even bits) := by
  obtain ⟨enough, even⟩ := atMost
  have far : value (bits + 1) ≤ value other := value_strictMono.monotone less
  have positive := gap_pos bits
  rw [value_succ] at far
  rw [halfway] at enough even
  rw [abs_sub_comm x (value other), abs_of_nonneg (by linarith : 0 ≤ value other - x)]
  refine ⟨abs_le.mpr ⟨by linarith, by linarith⟩, fun same => even ?_⟩
  rcases eq_or_eq_neg_of_abs_eq same with same | same <;> linarith

theorem Within.isNearest {x : ℚ} {bits : ℕ} (within : Within x bits) : IsNearest x bits := by
  have nearer (other : ℕ) (bounded : other ≤ infinityBits) (different : other ≠ bits) :
      |x - value bits| ≤ |x - value other| ∧
        (|x - value bits| = |x - value other| → Even bits) := by
    rcases lt_or_gt_of_ne different with less | greater
    · exact within.atLeast.nearer less
    · exact (within.atMost (greater.trans_le bounded)).nearer greater
  refine ⟨within.le_infinity, fun other bounded => ?_, fun other bounded different =>
    (nearer other bounded different).2⟩
  by_cases same : other = bits
  · rw [same]
  · exact (nearer other bounded same).1

/-- A number that rounds to bits behind infinity rounds to infinity. -/
theorem within_min {x : ℚ} {bits : ℕ} (atLeast : AtLeast x bits) (atMost : AtMost x bits) :
    Within x (min bits infinityBits) := by
  rcases le_or_gt bits infinityBits with inside | outside
  · rw [min_eq_left inside]
    exact ⟨inside, atLeast, fun _ => atMost⟩
  · rw [min_eq_right outside.le]
    obtain ⟨enough, -⟩ := atLeast (bits - 1) (by omega)
    exact ⟨le_rfl, .of_lt fun below last => (halfway_strictMono (by omega)).trans_le enough,
      fun beyond => absurd beyond (lt_irrefl _)⟩

theorem within_zero {x : ℚ} (less : x < 2 ^ (-1075 : ℤ)) : Within x 0 := by
  have first : halfway 0 = 2 ^ (-1075 : ℤ) := by
    have double : (2 : ℚ) ^ (-1074 : ℤ) = 2 ^ (-1075 : ℤ) * 2 := zpow_add_one₀ two_ne_zero (-1075)
    simp [halfway, value, gap, significand, level, double]
  rw [← first] at less
  exact ⟨Nat.zero_le _, fun below next => absurd next (Nat.succ_ne_zero below), fun _ => .of_lt less⟩

theorem value_infinity : value infinityBits = 2 ^ (1024 : ℤ) := by
  have parts : infinityBits = 2046 * 2 ^ 52 + 2 ^ 52 := rfl
  have order : ((52 : ℕ) : ℤ) + (((2046 : ℕ) : ℤ) - 1074) = 1024 := rfl
  rw [parts, value_of_parts (by decide) (by decide), Nat.cast_pow, Nat.cast_ofNat, ← zpow_natCast,
    ← zpow_add₀ two_ne_zero, order]

theorem within_infinity {x : ℚ} (enough : 2 ^ (1024 : ℤ) ≤ x) : Within x infinityBits := by
  refine ⟨le_rfl, .of_lt fun below next => ?_, fun beyond => absurd beyond (lt_irrefl _)⟩
  calc halfway below < value (below + 1) := halfway_lt_value_succ below
    _ = 2 ^ (1024 : ℤ) := by rw [next, value_infinity]
    _ ≤ x := enough

end Bits

open Bits

/-- The number is at most half a denominator away, and even if it is just that. -/
theorem halfEven_bounds (numerator : ℕ) {denominator : ℕ} (positive : 0 < denominator) :
    let n := halfEven numerator denominator
    2 * (n * denominator) ≤ 2 * numerator + denominator ∧
      2 * numerator ≤ 2 * (n * denominator) + denominator ∧
      (2 * (n * denominator) = 2 * numerator + denominator ∨
        2 * numerator = 2 * (n * denominator) + denominator → Even n) := by
  intro n
  have parts := Nat.div_add_mod' numerator denominator
  have small := Nat.mod_lt numerator positive
  simp only [n, halfEven, Nat.even_iff]
  generalize numerator / denominator = below at parts ⊢
  generalize numerator % denominator = rest at parts small ⊢
  have next : (below + 1) * denominator = below * denominator + denominator := Nat.succ_mul _ _
  split <;> omega

theorem halfEven_near (numerator : ℕ) {denominator : ℕ} (positive : 0 < denominator) :
    |(numerator / denominator : ℚ) - halfEven numerator denominator| ≤ 1 / 2 ∧
      (|(numerator / denominator : ℚ) - halfEven numerator denominator| = 1 / 2 →
        Even (halfEven numerator denominator)) := by
  obtain ⟨lower, upper, even⟩ := halfEven_bounds numerator positive
  generalize halfEven numerator denominator = n at lower upper even ⊢
  have positive' : (0 : ℚ) < denominator := by exact_mod_cast positive
  have offset : (numerator / denominator : ℚ) - n
      = (numerator - n * denominator) / denominator := by field_simp
  rw [offset]
  constructor
  · have lower' : (2 * (n * denominator) : ℚ) ≤ 2 * numerator + denominator := by exact_mod_cast lower
    have upper' : (2 * numerator : ℚ) ≤ 2 * (n * denominator) + denominator := by exact_mod_cast upper
    rw [abs_le, le_div_iff₀ positive', div_le_iff₀ positive']
    constructor <;> linarith
  · intro exactly
    refine even ?_
    rcases eq_or_eq_neg_of_abs_eq exactly with above | below
    · rw [div_eq_iff positive'.ne'] at above
      have half : (2 * numerator : ℚ) = 2 * (n * denominator) + denominator := by linarith
      exact .inr (by exact_mod_cast half)
    · rw [div_eq_iff positive'.ne'] at below
      have half : (2 * (n * denominator) : ℚ) = 2 * numerator + denominator := by linarith
      exact .inl (by exact_mod_cast half)

theorem log2_spec {number : ℕ} (positive : 0 < number) :
    (2 : ℚ) ^ (number.log2 : ℤ) ≤ number ∧ (number : ℚ) < 2 ^ ((number.log2 : ℤ) + 1) := by
  constructor
  · exact_mod_cast Nat.log2_self_le positive.ne'
  · exact_mod_cast Nat.lt_log2_self

/-- The orders of the two numbers leave a choice of two. -/
theorem binaryOrder_spec {numerator denominator : ℕ} (positive : 0 < numerator)
    (positive' : 0 < denominator) :
    (2 : ℚ) ^ binaryOrder numerator denominator ≤ numerator / denominator ∧
      (numerator / denominator : ℚ) < 2 ^ (binaryOrder numerator denominator + 1) := by
  obtain ⟨low, high⟩ := log2_spec positive
  obtain ⟨low', high'⟩ := log2_spec positive'
  have least : (2 : ℚ) ^ ((numerator.log2 : ℤ) - denominator.log2 - 1) ≤ numerator / denominator := by
    rw [sub_sub, zpow_sub₀ two_ne_zero]
    exact div_le_div₀ (by positivity) low (by exact_mod_cast positive') high'.le
  have greatest : (numerator / denominator : ℚ) < 2 ^ ((numerator.log2 : ℤ) - denominator.log2 + 1) := by
    rw [sub_add_eq_add_sub, zpow_sub₀ two_ne_zero]
    exact div_lt_div₀ high low' (by positivity) (by positivity)
  have reached := scaled_le_iff two_pos positive' 1 numerator (numerator.log2 - denominator.log2)
  rw [Nat.cast_one, one_mul, one_mul, Nat.cast_ofNat] at reached
  simp only [binaryOrder, Nat.pow_eq, reached]
  split
  case isTrue reached => exact ⟨reached, greatest⟩
  case isFalse missed => exact ⟨least, by rw [sub_add_cancel]; exact not_le.mp missed⟩

/-! ## The nearest number of a level

A significand that is nearest on the grid of its level is nearest among all numbers. The numbers next to
it are on the same grid, but for the one below the least significand of a level and the one above the
carry out of it, where the order of the rational number decides. -/

section Level

variable {x : ℚ} {level significand : ℕ}

theorem even_of_parts (even : Even significand) : Even (level * 2 ^ 52 + significand) := by
  rw [Nat.even_iff] at even ⊢
  omega

theorem atLeast_of_near (narrow : significand ≤ 2 ^ 53) (wide : level = 0 ∨ 2 ^ 52 ≤ significand)
    (reached : level = 0 ∨ 2 ^ 52 * 2 ^ ((level : ℤ) - 1074) ≤ x)
    (near : |x / 2 ^ ((level : ℤ) - 1074) - significand| ≤ 1 / 2)
    (even : |x / 2 ^ ((level : ℤ) - 1074) - significand| = 1 / 2 → Even significand) :
    AtLeast x (level * 2 ^ 52 + significand) := by
  have unit : (0 : ℚ) < 2 ^ ((level : ℤ) - 1074) := zpow_pos two_pos _
  by_cases grid : level = 0 ∨ 2 ^ 52 < significand
  · intro below next
    have under : below = level * 2 ^ 52 + (significand - 1) := by omega
    have one : 1 ≤ significand := by omega
    rw [under, halfway_of_parts (by omega) (by omega), Nat.cast_sub one, Nat.cast_one,
      ← le_div_iff₀ unit, ← eq_div_iff unit.ne']
    refine ⟨by linarith [(abs_le.mp near).1], fun exactly => even_of_parts (even ?_)⟩
    have offset : x / 2 ^ ((level : ℤ) - 1074) - significand = -(1 / 2) := by linarith
    rw [offset, abs_neg, abs_of_pos one_half_pos]
  · obtain ⟨positive, rfl⟩ : level ≠ 0 ∧ significand = 2 ^ 52 := by omega
    refine .of_lt fun below next => ?_
    calc halfway below < value (below + 1) := halfway_lt_value_succ below
      _ = 2 ^ 52 * 2 ^ ((level : ℤ) - 1074) := by
        rw [next, value_of_parts narrow wide]
        push_cast
        rfl
      _ ≤ x := reached.resolve_left positive

theorem atMost_of_near (narrow : significand ≤ 2 ^ 53) (wide : level = 0 ∨ 2 ^ 52 ≤ significand)
    (missed : x < 2 ^ 53 * 2 ^ ((level : ℤ) - 1074))
    (near : |x / 2 ^ ((level : ℤ) - 1074) - significand| ≤ 1 / 2)
    (even : |x / 2 ^ ((level : ℤ) - 1074) - significand| = 1 / 2 → Even significand) :
    AtMost x (level * 2 ^ 52 + significand) := by
  have unit : (0 : ℚ) < 2 ^ ((level : ℤ) - 1074) := zpow_pos two_pos _
  rcases narrow.lt_or_eq with grid | rfl
  · rw [AtMost, halfway_of_parts grid wide, ← div_le_iff₀ unit, ← div_eq_iff unit.ne']
    refine ⟨by linarith [(abs_le.mp near).2], fun exactly => even_of_parts (even ?_)⟩
    rw [exactly, add_sub_cancel_left, abs_of_pos one_half_pos]
  · refine .of_lt ?_
    calc x < 2 ^ 53 * 2 ^ ((level : ℤ) - 1074) := missed
      _ = value (level * 2 ^ 52 + 2 ^ 53) := by
        rw [value_of_parts narrow wide]
        push_cast
        rfl
      _ < halfway (level * 2 ^ 52 + 2 ^ 53) := value_lt_halfway _

end Level

theorem ratio_scaled (numerator denominator : ℕ) (power : ℤ) :
    ((numerator * 2 ^ (-power).toNat : ℕ) / (denominator * 2 ^ power.toNat : ℕ) : ℚ)
      = numerator / denominator / 2 ^ power := by
  rw [zpow_eq_div two_ne_zero]
  push_cast
  field_simp

/-- The whole number nearest to a ratio below a whole number is at most that number, and likewise
above one. -/
theorem le_of_near {x : ℚ} {whole bound : ℕ} (near : |x - whole| ≤ 1 / 2) (less : x < bound) :
    whole ≤ bound := by
  have := (abs_le.mp near).1
  have less' : (whole : ℚ) < bound + 1 := by linarith
  exact Nat.lt_succ_iff.mp (by exact_mod_cast less')

theorem le_of_near' {x : ℚ} {whole bound : ℕ} (near : |x - whole| ≤ 1 / 2) (more : bound ≤ x) :
    bound ≤ whole := by
  have := (abs_le.mp near).2
  have more' : (bound : ℚ) < whole + 1 := by linarith
  exact Nat.lt_succ_iff.mp (by exact_mod_cast more')

theorem within_nearestBits {numerator denominator : ℕ} (positive : 0 < numerator)
    (positive' : 0 < denominator) :
    Within (numerator / denominator) (nearestBits numerator denominator) := by
  obtain ⟨least, greatest⟩ := binaryOrder_spec positive positive'
  simp only [nearestBits, Nat.pow_eq]
  generalize binaryOrder numerator denominator = order at least greatest ⊢
  obtain ⟨level, hlevel⟩ : ∃ level : ℕ, max (order - 52) (-1074) = (level : ℤ) - 1074 :=
    ⟨(max (order - 52) (-1074) + 1074).toNat, by omega⟩
  rw [hlevel, sub_add_cancel, Int.toNat_natCast]
  have missed : (numerator / denominator : ℚ) < 2 ^ 53 * 2 ^ ((level : ℤ) - 1074) := by
    rw [← zpow_natCast, ← zpow_add₀ two_ne_zero]
    exact greatest.trans_le (zpow_le_zpow_right₀ one_le_two (by omega))
  have reached : level = 0 ∨ 2 ^ 52 * 2 ^ ((level : ℤ) - 1074) ≤ (numerator / denominator : ℚ) := by
    refine or_iff_not_imp_left.mpr fun nonzero => ?_
    rw [← zpow_natCast, ← zpow_add₀ two_ne_zero]
    exact (zpow_le_zpow_right₀ one_le_two (by omega)).trans least
  have scale : (0 : ℚ) < 2 ^ ((level : ℤ) - 1074) := by positivity
  have scaled : 0 < denominator * 2 ^ ((level : ℤ) - 1074).toNat := by positivity
  obtain ⟨near, even⟩ := halfEven_near (numerator * 2 ^ (-((level : ℤ) - 1074)).toNat) scaled
  rw [ratio_scaled] at near even
  generalize halfEven _ _ = significand at near even ⊢
  have narrow : significand ≤ 2 ^ 53 := by
    refine le_of_near near ?_
    rw [div_lt_iff₀ scale]
    exact_mod_cast missed
  have wide : level = 0 ∨ 2 ^ 52 ≤ significand := by
    refine reached.imp_right fun enough => le_of_near' near ?_
    rw [le_div_iff₀ scale]
    exact_mod_cast enough
  exact within_min (atLeast_of_near narrow wide reached near even)
    (atMost_of_near narrow wide missed near even)

end Primer.Decimal
