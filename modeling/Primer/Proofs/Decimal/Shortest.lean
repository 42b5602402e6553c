import Primer.Proofs.Decimal.Reading

/-!
# The shortest decimal rounds to its number

The search for the digits of a number stops at a decimal in the interval of the numbers that round to
it. A grid of digits is left only if it has no such decimal next to the number, and on the last grid, of
seventeen digits behind the first, half a step is less than the way to the ends of the interval.

## Main result

`within_shortest`: the decimal that is found for a number rounds to it.
-/

namespace Primer.Decimal

open Bits

/-! ### Shapes -/

/-- A positive finite number by its bits. -/
def Bits.magnitude (bits : ℕ) : Magnitude :=
  ⟨significand bits, (level bits : ℤ) - 1074, significand bits = 2 ^ 52 ∧ 0 < level bits⟩

theorem magnitude_of_lt {bits : ℕ} (subnormal : bits < 2 ^ 52) :
    magnitude bits = ⟨bits, -1074, false⟩ := by
  have least : level bits = 0 := by unfold level; omega
  rw [magnitude, significand, least]
  simp

theorem magnitude_of_ge {bits : ℕ} (normal : 2 ^ 52 ≤ bits) :
    magnitude bits = ⟨2 ^ 52 + bits % 2 ^ 52, (bits / 2 ^ 52 : ℕ) - 1075,
      bits % 2 ^ 52 = 0 ∧ 1 < bits / 2 ^ 52⟩ := by
  have exponent : (level bits : ℤ) - 1074 = (bits / 2 ^ 52 : ℕ) - 1075 := by unfold level; omega
  have rest : significand bits = 2 ^ 52 + bits % 2 ^ 52 := by unfold significand level; omega
  have narrow : significand bits = 2 ^ 52 ∧ 0 < level bits ↔ bits % 2 ^ 52 = 0 ∧ 1 < bits / 2 ^ 52 := by
    rw [rest, level]
    omega
  rw [magnitude, exponent, decide_eq_decide.mpr narrow, rest]

/-- The bits without their sign count the numbers up to infinity. -/
theorem shape_eq (value : Float) :
    let bits := value.toBits.toNat % 2 ^ 63
    let negative := decide (2 ^ 63 ≤ value.toBits.toNat)
    shape value =
      if infinityBits < bits then .undefined
      else if bits = infinityBits then .infinite negative
      else if bits = 0 then .zero negative
      else .finite negative (magnitude bits) := by
  intro bits negative
  have last : infinityBits = 2047 * 2 ^ 52 := rfl
  have power : value.toBits.toNat / 2 ^ 52 % 2048 = bits / 2 ^ 52 := by omega
  have fraction : value.toBits.toNat % 2 ^ 52 = bits % 2 ^ 52 := by omega
  have bounded : bits < 2 ^ 63 := Nat.mod_lt _ (by decide)
  simp only [shape, Nat.pow_eq, power, fraction, last]
  rcases Nat.lt_or_ge bits (2 ^ 52) with small | large
  · have inside : bits % 2 ^ 52 = bits := Nat.mod_eq_of_lt small
    have lowest : bits / 2 ^ 52 = 0 := Nat.div_eq_of_lt small
    simp only [inside, lowest, magnitude_of_lt small]
    split_ifs <;> first | rfl | omega
  · rw [magnitude_of_ge large]
    split_ifs <;> first | rfl | omega

/-! ### The interval of a number -/

theorem pow_le_of_digits {n : ℕ} (positive : 0 < n) : 10 ^ ((digits n).length - 1) ≤ n := by
  by_contra less
  have length : 0 < (digits n).length := Nat.length_toDigits_pos
  rcases Nat.eq_zero_or_pos ((digits n).length - 1) with one | more
  · rw [one] at less
    omega
  · have short := (Nat.length_toDigits_le_iff (by decide) more).mpr (Nat.not_le.mp less)
    rw [digits] at length short
    omega

/-- A whole number in the interval, with its ends if the interval is closed. -/
structure Interval.Admits (i : Interval) (n : ℕ) : Prop where
  le : i.low ≤ n * i.denominator
  ge : n * i.denominator ≤ i.high
  inner : i.closed = false → i.low < n * i.denominator ∧ n * i.denominator < i.high

/-- The value is inside, so far from the ends that a part `2^-55` of it is less. -/
structure Interval.Proper (i : Interval) : Prop where
  denominator_pos : 0 < i.denominator
  below : i.value + 2 ^ 55 * i.low < 2 ^ 55 * i.value
  above : i.value + 2 ^ 55 * i.value < 2 ^ 55 * i.high

theorem scaled_lt {part low high scale : ℕ} (less : part + 2 ^ 55 * low < 2 ^ 55 * high)
    (positive : 0 < scale) : part * scale + 2 ^ 55 * (low * scale) < 2 ^ 55 * (high * scale) :=
  calc part * scale + 2 ^ 55 * (low * scale)
      = (part + 2 ^ 55 * low) * scale := by ring
    _ < 2 ^ 55 * high * scale := Nat.mul_lt_mul_of_pos_right less positive
    _ = 2 ^ 55 * (high * scale) := Nat.mul_assoc _ _ _

namespace Interval

variable {i : Interval}

theorem Proper.scale (proper : i.Proper) (power : ℤ) : (i.scale power).Proper :=
  ⟨Nat.mul_pos proper.denominator_pos (Nat.pow_pos (by decide)),
    scaled_lt proper.below (Nat.pow_pos (by decide)), scaled_lt proper.above (Nat.pow_pos (by decide))⟩

/-- A neighbour of the value is tested at the end on its own side only: the value is between it and the
other end. -/
theorem Proper.admits_whole? (proper : i.Proper) {n : ℕ} (found : i.whole? = some n) :
    i.Admits n := by
  have below := proper.below
  have above := proper.above
  have down : i.value / i.denominator * i.denominator ≤ i.value := Nat.div_mul_le_self _ _
  have up : i.value < (i.value / i.denominator + 1) * i.denominator := by
    rw [Nat.mul_comm]
    exact Nat.lt_mul_div_succ _ proper.denominator_pos
  cases closed : i.closed with
  | true =>
    simp only [whole?, closed, if_true] at found
    split_ifs at found with admitted admitted <;> obtain rfl := Option.some.inj found
    · exact ⟨by omega, admitted.1, by simp [closed]⟩
    · exact ⟨admitted, by omega, by simp [closed]⟩
  | false =>
    simp only [whole?, closed, Bool.false_eq_true, if_false] at found
    split_ifs at found with admitted admitted <;> obtain rfl := Option.some.inj found
    · exact ⟨by omega, admitted.1.le, fun _ => ⟨by omega, admitted.1⟩⟩
    · exact ⟨admitted.le, by omega, fun _ => ⟨admitted, by omega⟩⟩

/-- On a grid so fine that the value has seventeen digits, its nearest point is inside. -/
theorem Proper.admits_nearest (proper : i.Proper) (fine : 10 ^ 17 * i.denominator ≤ i.value) :
    i.Admits ((2 * i.value + i.denominator) / (2 * i.denominator)) := by
  have below := proper.below
  have above := proper.above
  have positive : 0 < 2 * i.denominator := Nat.mul_pos two_pos proper.denominator_pos
  have down := Nat.div_mul_le_self (2 * i.value + i.denominator) (2 * i.denominator)
  have up := Nat.lt_mul_div_succ (2 * i.value + i.denominator) positive
  generalize (2 * i.value + i.denominator) / (2 * i.denominator) = n at down up ⊢
  have double : n * (2 * i.denominator) = 2 * (n * i.denominator) := by ring
  have double' : 2 * i.denominator * (n + 1) = 2 * (n * i.denominator) + 2 * i.denominator := by ring
  rw [double] at down
  rw [double'] at up
  exact ⟨by omega, by omega, fun _ => ⟨by omega, by omega⟩⟩

/-- Numbers of digits leave a choice of two orders, of which the lower one is not too high. -/
theorem Proper.order_le (proper : i.Proper) : (10 : ℚ) ^ i.order ≤ i.value / i.denominator := by
  have below := proper.below
  have positive := proper.denominator_pos
  have reached := scaled_le_iff (by decide : 0 < 10) positive 1 i.value
  simp only [Nat.cast_one, one_mul, Nat.cast_ofNat] at reached
  simp only [order]
  split
  case isTrue enough => exact (reached _).mp enough
  case isFalse =>
    have low : (10 ^ ((digits i.value).length - 1) : ℚ) ≤ i.value := by
      exact_mod_cast pow_le_of_digits (by omega : 0 < i.value)
    have high : (i.denominator : ℚ) ≤ 10 ^ (digits i.denominator).length := by
      have less := natural_lt (digits_digits i.denominator)
      rw [natural_digits] at less
      exact_mod_cast less.le
    have length : 0 < (digits i.value).length := Nat.length_toDigits_pos
    have exponent : ((digits i.value).length : ℤ) - (digits i.denominator).length - 1
        = ((digits i.value).length - 1 : ℕ) - (digits i.denominator).length := by omega
    rw [exponent, zpow_sub₀ (by norm_num), zpow_natCast, zpow_natCast]
    exact div_le_div₀ (by positivity) low (by exact_mod_cast positive) high

/-- By induction on the grids that are left. -/
theorem Proper.admits_search (proper : i.Proper) {count left : ℕ} (grids : count + left = 17) :
    (i.scale (i.search i.order count left).2).Admits (i.search i.order count left).1 := by
  induction left generalizing count with
  | zero =>
    obtain rfl : count = 17 := grids
    refine (proper.scale _).admits_nearest
      ((scaled_le_iff (by decide) proper.denominator_pos _ _ _).mpr ?_)
    calc ((10 ^ 17 : ℕ) * (10 : ℕ) ^ (i.order - (17 : ℕ)) : ℚ)
        = 10 ^ i.order := by
          rw [zpow_sub₀ (by norm_num), zpow_natCast]
          push_cast
          ring
      _ ≤ i.value / i.denominator := proper.order_le
  | succ left ih =>
    rw [search]
    split
    next n found => exact (proper.scale _).admits_whole? found
    next => exact ih (by omega)

/-- What is admitted on a grid, as a decimal. -/
theorem Admits.bounds {power : ℤ} {n : ℕ} (admits : (i.scale power).Admits n)
    (positive : 0 < i.denominator) :
    (i.low / i.denominator : ℚ) ≤ n * 10 ^ power ∧ (n * 10 ^ power : ℚ) ≤ i.high / i.denominator ∧
      (i.closed = false → (i.low / i.denominator : ℚ) < n * 10 ^ power ∧
        (n * 10 ^ power : ℚ) < i.high / i.denominator) := by
  have lower := le_scaled_iff (by decide : 0 < 10) positive n
  have upper := scaled_le_iff (by decide : 0 < 10) positive n
  refine ⟨(lower _ _).mp admits.le, (upper _ _).mp admits.ge, fun isOpen => ?_⟩
  obtain ⟨less, less'⟩ := admits.inner isOpen
  exact ⟨not_le.mp fun more => absurd ((upper _ _).mpr more) (not_le.mpr less),
    not_le.mp fun more => absurd ((lower _ _).mpr more) (not_le.mpr less')⟩

end Interval

/-- A count of quarters of a power of two. -/
theorem quarters (count : ℕ) (exponent : ℤ) :
    ((count * Nat.pow 2 (exponent - 2).toNat : ℕ) / (Nat.pow 2 (2 - exponent).toNat : ℕ) : ℚ)
      = count / 4 * 2 ^ exponent := by
  have split : (2 : ℚ) ^ exponent = 2 ^ (exponent - 2) * 2 ^ (2 : ℤ) := by
    rw [← zpow_add₀ two_ne_zero, sub_add_cancel]
  have opposite : 2 - exponent = -(exponent - 2) := by ring
  rw [split, zpow_eq_div two_ne_zero, opposite, Nat.pow_eq, Nat.pow_eq]
  push_cast
  ring

theorem high_interval (bits : ℕ) :
    ((magnitude bits).interval.high / (magnitude bits).interval.denominator : ℚ) = halfway bits := by
  refine (quarters (4 * significand bits + 2) ((level bits : ℤ) - 1074)).trans ?_
  rw [halfway, value, gap]
  push_cast
  ring

theorem low_interval (bits : ℕ) :
    ((magnitude (bits + 1)).interval.low / (magnitude (bits + 1)).interval.denominator : ℚ)
      = halfway bits := by
  obtain ⟨whole, narrow, wide⟩ := parts (bits + 1)
  refine (quarters _ _).trans ?_
  simp only [magnitude, decide_eq_true_eq]
  generalize significand (bits + 1) = significand at *
  generalize level (bits + 1) = level at *
  split
  case isTrue least =>
    -- The number below is the last one of the level below, where the gap is half as wide.
    obtain ⟨rfl, higher⟩ := least
    obtain ⟨level, rfl⟩ := Nat.exists_eq_add_one_of_ne_zero higher.ne'
    have below : bits = level * 2 ^ 52 + (2 ^ 53 - 1) := by omega
    rw [below, halfway_of_parts (by decide) (.inr (by decide)), Nat.cast_succ, add_sub_right_comm,
      zpow_add_one₀ two_ne_zero]
    push_cast
    ring
  case isFalse other =>
    have below : bits = level * 2 ^ 52 + (significand - 1) := by omega
    have one : 1 ≤ significand := by omega
    rw [below, halfway_of_parts (by omega) (by omega), Nat.cast_sub one, Nat.cast_sub (by omega)]
    push_cast
    ring

/-- The ends are at least a quarter of a gap away, and a number has less than `2^53` gaps. -/
theorem proper_interval {bits : ℕ} (positive : 0 < bits) : (magnitude bits).interval.Proper := by
  obtain ⟨whole, narrow, wide⟩ := parts bits
  have some : 0 < significand bits := by omega
  refine ⟨Nat.pow_pos two_pos, scaled_lt ?_ (Nat.pow_pos two_pos), scaled_lt ?_ (Nat.pow_pos two_pos)⟩
  · have quarter : 1 ≤ (if (magnitude bits).narrowBelow then 1 else 2) := by split <;> decide
    change 4 * significand bits + 2 ^ 55 * (4 * significand bits - _) < 2 ^ 55 * (4 * significand bits)
    omega
  · change 4 * significand bits + 2 ^ 55 * (4 * significand bits) < 2 ^ 55 * (4 * significand bits + 2)
    omega

theorem closed_interval (bits : ℕ) : (magnitude bits).interval.closed = true ↔ Even bits := by
  obtain ⟨whole, -⟩ := parts bits
  rw [Magnitude.interval, decide_eq_true_eq, Nat.even_iff]
  simp only [magnitude]
  omega

/-- The interval of a number is the one of the numbers that round to it. -/
theorem within_of_admits {bits n : ℕ} {power : ℤ} (positive : 0 < bits) (finite : bits < infinityBits)
    (admits : ((magnitude bits).interval.scale power).Admits n) : Within (n * 10 ^ power) bits := by
  obtain ⟨lower, upper, inner⟩ := admits.bounds (proper_interval positive).denominator_pos
  have even (ended : (magnitude bits).interval.closed ≠ false) : Even bits :=
    (closed_interval bits).mp (Bool.not_eq_false _ ▸ ended)
  refine ⟨finite.le, ?_, fun _ => ?_⟩
  · rintro below rfl
    rw [low_interval] at lower inner
    exact ⟨lower, fun same => even fun isOpen => (inner isOpen).1.ne same⟩
  · rw [high_interval] at upper inner
    exact ⟨upper, fun same => even fun isOpen => (inner isOpen).2.ne same⟩

/-! ### The digits of a number -/

/-- The number that a decimal in scientific form stands for. -/
def Scientific.value (s : Scientific) : ℚ :=
  natural s.digits * 10 ^ (s.exponent + 1 - s.digits.length)

theorem natural_zeros (count : ℕ) : natural (List.replicate count '0') = 0 := by
  rw [← natural_dropWhile_zero, List.dropWhile_replicate]
  rfl

theorem exists_zeros (n : ℕ) :
    ∃ zeros, digits n = significantDigits n ++ List.replicate zeros '0' := by
  have zeros : ∀ c ∈ (digits n).reverse.takeWhile (· == '0'), c = '0' := by
    intro c member
    have zero := List.mem_takeWhile_imp member
    exact beq_iff_eq.mp zero
  refine ⟨((digits n).reverse.takeWhile (· == '0')).length, ?_⟩
  rw [← List.reverse_replicate, ← List.eq_replicate_of_mem zeros, significantDigits,
    ← List.reverse_append, List.takeWhile_append_dropWhile, List.reverse_reverse]

theorem digits_significantDigits (n : ℕ) : Digits (significantDigits n) := by
  obtain ⟨zeros, split⟩ := exists_zeros n
  exact fun c member => digits_digits n c (split ▸ List.mem_append_left _ member)

/-- Zeros at the end and the power of ten make up for each other. -/
theorem value_of_digits (n : ℕ) (power : ℤ) :
    Scientific.value ⟨significantDigits n, power + (digits n).length - 1⟩ = n * 10 ^ power := by
  obtain ⟨zeros, split⟩ := exists_zeros n
  have number := natural_digits n
  have length := congrArg List.length split
  rw [split, natural_append, natural_zeros, List.length_replicate, Nat.add_zero] at number
  rw [List.length_append, List.length_replicate] at length
  have exponent : power + (digits n).length - 1 + 1 - (significantDigits n).length
      = zeros + power := by omega
  rw [Scientific.value, exponent, zpow_add₀ (by norm_num), zpow_natCast, ← mul_assoc]
  congr 1
  exact_mod_cast number

theorem value_shortest (m : Magnitude) :
    let found := m.interval.search m.interval.order 0 17
    m.shortest.value = found.1 * 10 ^ found.2 :=
  value_of_digits _ _

theorem within_shortest {bits : ℕ} (positive : 0 < bits) (finite : bits < infinityBits) :
    Within (magnitude bits).shortest.value bits := by
  have admits := (proper_interval positive).admits_search (Nat.zero_add 17)
  rw [value_shortest]
  exact within_of_admits positive finite admits

theorem digits_shortest (m : Magnitude) : Digits m.shortest.digits :=
  digits_significantDigits _

/-- A decimal without digits is zero, which rounds to no positive number. -/
theorem shortest_ne_nil {bits : ℕ} (positive : 0 < bits) (finite : bits < infinityBits) :
    (magnitude bits).shortest.digits ≠ [] := by
  intro none
  obtain ⟨below, rfl⟩ := Nat.exists_eq_add_one_of_ne_zero positive.ne'
  obtain ⟨enough, -⟩ := (within_shortest positive finite).atLeast below rfl
  rw [Scientific.value, none, natural_nil, Nat.cast_zero, zero_mul] at enough
  have zero : value 0 ≤ value below := value_strictMono.monotone (Nat.zero_le below)
  have more := value_lt_halfway below
  have nonneg : 0 ≤ value 0 := by simp [value, significand]
  linarith

end Primer.Decimal
