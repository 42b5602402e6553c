import Primer.Decimal.Layout
import Primer.Proofs.Decimal.Shortest

/-!
# Written numbers are read back

Every way to write a binary64 puts its digits into a numeral for the same decimal, which rounds to the
binary64. So the text is read as the number it was written for, whatever the layout (`readFloat?_write`).
A source has neither signs nor exponents, and the numbers that are written without them are those that
their own texts denote there (`denotes_write_iff`).
-/

namespace Primer.Decimal

open Bits

/-! ### Numerals -/

theorem digits_zeros (count : ℕ) : Digits (List.replicate count '0') := by
  intro c member
  rw [List.eq_of_mem_replicate member]
  rfl

theorem natural_append_zeros (text : List Char) (count : ℕ) :
    natural (text ++ List.replicate count '0') = natural text * 10 ^ count := by
  rw [natural_append, natural_zeros, List.length_replicate, Nat.add_zero]

theorem natural_zeros_append (count : ℕ) (text : List Char) :
    natural (List.replicate count '0' ++ text) = natural text := by
  rw [natural_append, natural_zeros, Nat.zero_mul, Nat.zero_add]

/-- Digits and a fraction for a number. -/
structure Positional (x : ℚ) (whole behind fraction : List Char) : Prop where
  nonempty : whole ≠ []
  digits : Digits whole
  written : Fraction behind fraction
  value : natural (whole ++ fraction) * 10 ^ (-fraction.length : ℤ) = x

theorem Positional.numeral {x : ℚ} {whole behind fraction : List Char}
    (positional : Positional x whole behind fraction) : Numeral (whole ++ behind) x := by
  have numeral :=
    Numeral.intro positional.digits positional.written (.inl positional.nonempty) .none
  rwa [List.append_nil, zero_sub, positional.value] at numeral

theorem exponent_integerText (power : ℤ) : Exponent ('e' :: integerText power) power := by
  cases power with
  | ofNat n =>
    have signed := Signed.intro .none (digits_ne_nil n) (digits_digits n)
    rw [if_neg Bool.false_ne_true, natural_digits] at signed
    exact .marked (.inl rfl) signed
  | negSucc n =>
    have signed := Signed.intro .minus (digits_ne_nil (n + 1)) (digits_digits (n + 1))
    rw [if_pos rfl, natural_digits] at signed
    exact .marked (.inl rfl) signed

section Texts

variable {s : Scientific} (all : Digits s.digits)
include all

/-- A number below one has zeros in front of its digits. -/
theorem positional_of_small (small : s.exponent < 0) :
    let fraction := List.replicate (-s.exponent - 1).toNat '0' ++ s.digits
    Positional s.value ['0'] ('.' :: fraction) fraction := by
  intro fraction
  refine ⟨List.cons_ne_nil _ _, digits_zeros 1, .point ((digits_zeros _).append all), ?_⟩
  have exponent : -(fraction.length : ℤ) = s.exponent + 1 - s.digits.length := by
    rw [List.length_append, List.length_replicate]
    omega
  have zeros : natural (['0'] ++ fraction) = natural s.digits :=
    (natural_zeros_append 1 _).trans (natural_zeros_append _ _)
  rw [exponent, zeros, Scientific.value]

/-- A whole number has zeros behind its digits, and behind a point a zero or nothing. -/
theorem positional_of_whole {behind fraction : List Char} (great : 0 ≤ s.exponent)
    (short : s.digits.length ≤ s.exponent.toNat + 1) (written : Fraction behind fraction)
    (zero : ∃ count, fraction = List.replicate count '0') :
    Positional s.value
      (s.digits ++ List.replicate (s.exponent.toNat + 1 - s.digits.length) '0') behind fraction := by
  obtain ⟨count, rfl⟩ := zero
  refine ⟨?_, all.append (digits_zeros _), written, ?_⟩
  · rw [← List.length_pos_iff, List.length_append, List.length_replicate]
    omega
  · have exponent : s.exponent + 1 - s.digits.length
        = (s.exponent.toNat + 1 - s.digits.length : ℕ) := by omega
    rw [natural_append_zeros, natural_append_zeros, Scientific.value, exponent, zpow_natCast,
      List.length_replicate, zpow_neg, zpow_natCast]
    push_cast
    field_simp

/-- In between the point divides the digits. -/
theorem positional_of_divided (great : 0 ≤ s.exponent)
    (long : s.exponent.toNat + 1 < s.digits.length) :
    let fraction := s.digits.drop (s.exponent.toNat + 1)
    Positional s.value (s.digits.take (s.exponent.toNat + 1)) ('.' :: fraction) fraction := by
  refine ⟨?_, fun c member => all c (List.mem_of_mem_take member),
    .point fun c member => all c (List.mem_of_mem_drop member), ?_⟩
  · rw [← List.length_pos_iff, List.length_take]
    omega
  · have exponent : -((s.digits.drop (s.exponent.toNat + 1)).length : ℤ)
        = s.exponent + 1 - s.digits.length := by
      rw [List.length_drop]
      omega
    rw [List.take_append_drop, exponent, Scientific.value]

theorem exists_positional (layout : Layout) :
    ∃ whole behind fraction, positionalText layout s = whole ++ behind ∧
      Positional s.value whole behind fraction ∧
      (layout.pointZero s.exponent = true → behind = '.' :: fraction) := by
  rw [positionalText]
  split
  case isTrue small => exact ⟨['0'], _, _, rfl, positional_of_small all small, fun _ => rfl⟩
  case isFalse great =>
    rw [not_lt] at great
    simp only
    split
    case isTrue short =>
      have count : s.digits.length ≤ s.exponent.toNat + 1 := by simpa using short
      rw [List.take_of_length_le count]
      split
      case isTrue =>
        exact ⟨_, _, _, rfl, positional_of_whole all great count (.point (digits_zeros 1)) ⟨1, rfl⟩,
          fun _ => rfl⟩
      case isFalse missing =>
        exact ⟨_, _, _, (List.append_nil _).symm, positional_of_whole all great count .none ⟨0, rfl⟩,
          fun kept => absurd kept missing⟩
    case isFalse long =>
      have count : s.exponent.toNat + 1 < s.digits.length := by simpa using long
      rw [List.length_take_of_le count.le, Nat.sub_self, List.replicate_zero, List.append_nil]
      exact ⟨_, _, _, rfl, positional_of_divided all great count, fun _ => rfl⟩

theorem numeral_positionalText (layout : Layout) : Numeral (positionalText layout s) s.value := by
  obtain ⟨whole, behind, fraction, text, positional, -⟩ := exists_positional all layout
  rw [text]
  exact positional.numeral

theorem numeral_exponentText (nonempty : s.digits ≠ []) : Numeral (exponentText s) s.value := by
  obtain ⟨digits, exponent⟩ := s
  obtain ⟨c, rest, rfl⟩ := List.exists_cons_of_ne_nil nonempty
  obtain ⟨first, others⟩ := List.forall_mem_cons.mp all
  have written : Fraction (if rest.isEmpty then [] else '.' :: rest) rest := by
    cases rest with
    | nil => exact .none
    | cons => exact .point others
  have numeral := Numeral.intro (List.forall_mem_singleton.mpr first) written
    (.inl (List.cons_ne_nil c [])) (exponent_integerText exponent)
  have power : exponent - rest.length = exponent + 1 - (c :: rest).length := by
    rw [List.length_cons]
    omega
  rwa [power] at numeral

end Texts

/-! ### Reading back -/

section Signs

open Float.Model Float.Model.UnpackedFloat

/-- Words that differ in the sign bit alone stand for opposite numbers. -/
theorem unpack_opposite (word word' : BitVec Format.binary64.numBits) (positive : word.toNat < 2 ^ 63)
    (opposite : word'.toNat = 2 ^ 63 + word.toNat) :
    unpack Format.binary64 word' = (unpack Format.binary64 word).neg := by
  have exponents : unpackExponent word' = unpackExponent word := by
    apply BitVec.eq_of_toNat_eq
    rw [toNat_unpackExponent, toNat_unpackExponent]
    omega
  have mantissas : unpackMantissa word' = unpackMantissa word := by
    apply BitVec.eq_of_toNat_eq
    rw [toNat_unpackMantissa, toNat_unpackMantissa]
    omega
  have sign : unpackSign word = BitVec.ofNat 1 0 := by
    apply BitVec.eq_of_toNat_eq
    rw [toNat_unpackSign, Nat.div_eq_of_lt positive]
    rfl
  have sign' : unpackSign word' = BitVec.ofNat 1 1 := by
    have one : word'.toNat / 2 ^ 63 = 1 := by omega
    apply BitVec.eq_of_toNat_eq
    rw [toNat_unpackSign, one]
    rfl
  simp only [UnpackedFloat.unpack, exponents, mantissas, sign, sign']
  split_ifs <;> rfl

/-- The number with the other sign has the other sign bit. -/
theorem toBits_neg {bits : ℕ} (bounded : bits ≤ infinityBits) :
    (-Float.ofBits (.ofNat bits)).toBits.toNat = 2 ^ 63 + bits := by
  have last : infinityBits = 2047 * 2 ^ 52 := rfl
  have toNat : (UInt64.ofNat bits).toBitVec.toNat = bits := Nat.mod_eq_of_lt (by omega)
  have toNat' : (UInt64.ofNat (2 ^ 63 + bits)).toBitVec.toNat = 2 ^ 63 + bits :=
    Nat.mod_eq_of_lt (by omega)
  have same := pack_unpack_of_le (UInt64.ofNat bits).toBitVec (by omega)
  have same' := pack_unpack_of_le (UInt64.ofNat (2 ^ 63 + bits)).toBitVec (by omega)
  have opposite := unpack_opposite (UInt64.ofNat bits).toBitVec
    (UInt64.ofNat (2 ^ 63 + bits)).toBitVec (by omega) (by omega)
  calc (-Float.ofBits (.ofNat bits)).toBits.toNat
      = (pack Format.binary64 (unpack Format.binary64 (pack Format.binary64
          (unpack Format.binary64 (UInt64.ofNat bits).toBitVec))).neg).toNat := rfl
    _ = 2 ^ 63 + bits := by rw [same, ← opposite, same', toNat']

/-- There is one encoding of what is no number. -/
theorem eq_undefined {value : Float} (undefined : infinityBits < value.toBits.toNat % 2 ^ 63) :
    value = 0.0 / 0.0 := by
  have packed : value.toBits.toBitVec = packedNaN Format.binary64 := by
    have same : pack Format.binary64 (unpack Format.binary64 value.toBits.toBitVec)
        = value.toBits.toBitVec :=
      congrArg (fun number => number.toBits.toBitVec) (Float.ofBits_toBits value)
    rw [← same, pack_unpack _ (by decide), if_pos ((isNaNBits_iff _).mpr undefined)]
  exact Float.toBits_inj.mp (UInt64.toBitVec_inj.mp (packed.trans (by decide +kernel)))

end Signs

/-- A number by its sign and its bits without it. -/
theorem eq_signed {value : Float} (number : value.toBits.toNat % 2 ^ 63 ≤ infinityBits) :
    value = if decide (2 ^ 63 ≤ value.toBits.toNat) then
        -Float.ofBits (.ofNat (value.toBits.toNat % 2 ^ 63))
      else Float.ofBits (.ofNat (value.toBits.toNat % 2 ^ 63)) := by
  have bounded := value.toBits.toNat_lt
  rw [← Float.toBits_inj, ← UInt64.toNat_inj]
  split
  case isTrue negative =>
    rw [toBits_neg number]
    rw [decide_eq_true_eq] at negative
    omega
  case isFalse positive =>
    rw [toBits_ofBits number]
    rw [decide_eq_true_eq] at positive
    omega

theorem nearest_ofBits {x : ℚ} {bits : ℕ} (within : Within x bits) :
    Nearest x (Float.ofBits (.ofNat bits)) := by
  rw [Nearest, toBits_ofBits within.le_infinity]
  exact within.isNearest

/-- What a shape says of its number: the decimal that is written for it rounds to its magnitude. -/
inductive Meaning : Shape → Float → Prop
  | undefined : Meaning .undefined (0.0 / 0.0)
  | infinite (negative : Bool) :
      Meaning (.infinite negative) (if negative then -(1.0 / 0.0) else 1.0 / 0.0)
  | zero (negative : Bool) {magnitude : Float} : Nearest 0 magnitude →
      Meaning (.zero negative) (if negative then -magnitude else magnitude)
  | finite (negative : Bool) {m : Magnitude} {magnitude : Float} : m.shortest.digits ≠ [] →
      Nearest m.shortest.value magnitude →
      Meaning (.finite negative m) (if negative then -magnitude else magnitude)

theorem meaning_shape (value : Float) : Meaning (shape value) value := by
  have infinity : Float.ofBits (.ofNat infinityBits) = 1.0 / 0.0 := by decide +kernel
  have unique := @eq_undefined value
  have signed := @eq_signed value
  rw [shape_eq]
  -- Only the sign and the bits without it matter from here on.
  generalize decide (2 ^ 63 ≤ value.toBits.toNat) = negative at signed ⊢
  generalize value.toBits.toNat % 2 ^ 63 = bits at unique signed ⊢
  split_ifs with undefined infinite zero
  · rw [unique undefined]
    exact .undefined
  · rw [signed infinite.le, infinite, infinity]
    exact .infinite negative
  · rw [signed (not_lt.mp undefined), zero]
    exact .zero negative (nearest_ofBits (within_zero (zpow_pos two_pos _)))
  · have finite : bits < infinityBits := lt_of_le_of_ne (not_lt.mp undefined) infinite
    have positive : 0 < bits := Nat.pos_of_ne_zero zero
    rw [signed finite.le]
    exact .finite negative (shortest_ne_nil positive finite)
      (nearest_ofBits (within_shortest positive finite))

theorem value_zero : Scientific.value ⟨['0'], 0⟩ = 0 := by
  rw [Scientific.value, show natural ['0'] = 0 from rfl, Nat.cast_zero, zero_mul]

/-- The text of a number without its sign. -/
def Layout.body (layout : Layout) (s : Scientific) : List Char :=
  if layout.positional s.exponent then positionalText layout s else exponentText s

theorem numeral_body (layout : Layout) {s : Scientific} (all : Digits s.digits)
    (nonempty : s.digits ≠ []) : Numeral (layout.body s) s.value := by
  unfold Layout.body
  split
  · exact numeral_positionalText all layout
  · exact numeral_exponentText all nonempty

def signText (negative : Bool) : List Char :=
  if negative then ['-'] else []

theorem sign_signText (negative : Bool) : Sign (signText negative) negative := by
  cases negative
  · exact .none
  · exact .minus

section Texts

variable (layout : Layout) {value : Float} {negative : Bool}

theorem toList_write_undefined (shaped : shape value = .undefined) :
    (layout.write value).toList = "NaN".toList := by
  rw [Layout.write, shaped]

theorem toList_write_infinite (shaped : shape value = .infinite negative) :
    (layout.write value).toList = signText negative ++ "inf".toList := by
  have minus : "-inf".toList = ['-'] ++ "inf".toList := by decide
  rw [Layout.write, shaped]
  cases negative
  · rfl
  · exact minus

theorem toList_write_zero (shaped : shape value = .zero negative) :
    (layout.write value).toList = signText negative ++ layout.body ⟨['0'], 0⟩ := by
  rw [Layout.write, shaped]
  simp only [String.toList_ofList]
  cases negative <;> rfl

theorem toList_write_finite {magnitude : Magnitude} (shaped : shape value = .finite negative magnitude) :
    (layout.write value).toList = signText negative ++ layout.body magnitude.shortest := by
  rw [Layout.write, shaped]
  simp only [String.toList_ofList]
  cases negative <;> rfl

end Texts

/-- A text that was written for a number is read as that number. -/
theorem readFloat?_write (layout : Layout) (value : Float) :
    readFloat? (layout.write value).toList = some value := by
  rw [readFloat?_eq_some_iff]
  have meaning := meaning_shape value
  generalize shaped : shape value = s at meaning
  cases meaning with
  | undefined =>
    exact ⟨[], false, _, _, toList_write_undefined layout shaped, .none, .undefined (by decide), rfl⟩
  | infinite negative =>
    exact ⟨_, negative, _, _, toList_write_infinite layout shaped, sign_signText negative,
      .infinity (by decide), rfl⟩
  | zero negative near =>
    rw [← value_zero] at near
    exact ⟨_, negative, _, _, toList_write_zero layout shaped, sign_signText negative,
      .numeral (numeral_body layout (digits_zeros 1) (List.cons_ne_nil _ _)) near, rfl⟩
  | finite negative nonempty near =>
    exact ⟨_, negative, _, _, toList_write_finite layout shaped, sign_signText negative,
      .numeral (numeral_body layout (digits_shortest _) nonempty) near, rfl⟩

/-! ### Literals -/

/-- Digits with a point behind the first of them, to which the value is the nearest binary64. -/
def Denotes (text : List Char) (value : Float) : Prop :=
  ∃ whole fraction, text = whole ++ '.' :: fraction ∧ whole ≠ [] ∧ Digits whole ∧ Digits fraction ∧
    nearest (whole ++ fraction) (-fraction.length) = value

/-- A number that a source has without a sign and without an exponent. -/
def HasLiteral (value : Float) : Prop :=
  shape value = .zero false ∨ ∃ magnitude, shape value = .finite false magnitude ∧
    source.positional magnitude.shortest.exponent = true

/-- A text without an exponent keeps its point. -/
theorem denotes_body {s : Scientific} {value : Float} (all : Digits s.digits)
    (positional : source.positional s.exponent = true) (near : Nearest s.value value) :
    Denotes (source.body s) value := by
  obtain ⟨whole, behind, fraction, text, parts, point⟩ := exists_positional all source
  obtain rfl := point rfl
  have fractional := parts.written.digits
  have rounded := nearest_spec (parts.digits.append fractional) (-fraction.length)
  rw [parts.value] at rounded
  rw [Layout.body, if_pos positional]
  exact ⟨whole, fraction, text, parts.nonempty, parts.digits, fractional, rounded.unique near⟩

theorem HasLiteral.denotes {value : Float} (literal : HasLiteral value) :
    Denotes (source.write value).toList value := by
  have meaning := meaning_shape value
  rcases literal with shaped | ⟨m, shaped, positional⟩
  · rw [shaped] at meaning
    rw [toList_write_zero source shaped]
    cases meaning with
    | zero _ near =>
      rw [← value_zero] at near
      exact denotes_body (digits_zeros 1) (by decide) near
  · rw [shaped] at meaning
    rw [toList_write_finite source shaped]
    cases meaning with
    | finite _ _ near => exact denotes_body (digits_shortest m) positional near

theorem Denotes.digit_or_point {text : List Char} {value : Float} (denotes : Denotes text value) :
    ∀ c ∈ text, isDigit c = true ∨ c = '.' := by
  obtain ⟨whole, fraction, rfl, -, digits, digits', -⟩ := denotes
  intro c member
  rcases List.mem_append.mp member with member | member
  · exact .inl (digits c member)
  · rcases List.mem_cons.mp member with rfl | member
    · exact .inr rfl
    · exact .inl (digits' c member)

/-- The numbers that their own texts denote in a source: a sign, an exponent or a name is none of digits
and a point. -/
theorem denotes_write_iff {value : Float} :
    Denotes (source.write value).toList value ↔ HasLiteral value := by
  refine ⟨fun denotes => ?_, HasLiteral.denotes⟩
  have letters := denotes.digit_or_point
  have minus {body : List Char} {negative : Bool}
      (text : (source.write value).toList = signText negative ++ body) : negative = false := by
    cases negative with
    | false => rfl
    | true =>
      rw [text] at letters
      exact absurd (letters '-' List.mem_cons_self) (by decide)
  cases shaped : shape value with
  | undefined =>
    rw [toList_write_undefined source shaped] at letters
    exact absurd (letters 'N' (by decide)) (by decide)
  | infinite negative =>
    rw [toList_write_infinite source shaped] at letters
    exact absurd (letters 'i' (List.mem_append_right _ (by decide))) (by decide)
  | zero negative =>
    obtain rfl := minus (toList_write_zero source shaped)
    exact .inl shaped
  | finite negative magnitude =>
    obtain rfl := minus (toList_write_finite source shaped)
    refine .inr ⟨magnitude, shaped, ?_⟩
    by_contra marked
    rw [toList_write_finite source shaped, Layout.body, if_neg marked] at letters
    exact absurd (letters 'e' (by simp [exponentText])) (by decide)

end Primer.Decimal
