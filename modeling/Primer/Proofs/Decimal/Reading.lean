import Primer.Proofs.Decimal.Rounding
import Primer.Proofs.Number.Exactness

/-!
# The texts of numbers

A text denotes an integer if it is digits with a sign or none in front. It denotes a binary64 if it is
a sign or none in front of a numeral or of a name. A numeral is digits around an optional point and an
optional power of ten, and it stands for a rational number.

## Main results

- `nearest_spec`: digits and a power of ten give the binary64 nearest to their product, also where the
  size of the product alone decides.
- `readInt64?_eq_some_iff`: `readInt64?` accepts exactly the texts of the integers in range.
- `readFloat?_eq_some_iff`: `readFloat?` accepts exactly the texts above, and the value of a numeral is
  the nearest binary64.
-/

namespace Primer.Decimal

open Bits

/-! ### Digits -/

def Digits (text : List Char) : Prop :=
  ∀ c ∈ text, isDigit c = true

theorem all_isDigit_iff {text : List Char} : text.all isDigit = true ↔ Digits text :=
  List.all_eq_true

theorem digit_bounds {c : Char} (digit : isDigit c = true) :
    '0'.toNat ≤ c.toNat ∧ c.toNat ≤ '9'.toNat := by
  simp only [isDigit, Bool.and_eq_true, decide_eq_true_eq, Char.le_def,
    UInt32.le_iff_toNat_le] at digit
  exact digit

theorem natural_nil : natural [] = 0 := rfl

theorem natural_append (text text' : List Char) :
    natural (text ++ text') = natural text * 10 ^ text'.length + natural text' := by
  induction text' using List.reverseRecOn with
  | nil => simp [natural]
  | append_singleton text' c ih =>
    have last (text : List Char) :
        natural (text ++ [c]) = natural text * 10 + (c.toNat - '0'.toNat) := by
      rw [natural, List.foldl_append]
      rfl
    rw [← List.append_assoc, last, last, ih, List.length_append, List.length_singleton]
    ring

theorem natural_cons (c : Char) (text : List Char) :
    natural (c :: text) = (c.toNat - '0'.toNat) * 10 ^ text.length + natural text := by
  rw [← List.singleton_append, natural_append, natural]
  simp

theorem natural_lt {text : List Char} (digits : Digits text) : natural text < 10 ^ text.length := by
  induction text with
  | nil => exact Nat.one_pos
  | cons c text ih =>
    obtain ⟨digit, others⟩ := List.forall_mem_cons.mp digits
    have bounds := digit_bounds digit
    have zero : '0'.toNat = 48 := rfl
    have nine : '9'.toNat = 57 := rfl
    calc natural (c :: text)
        = (c.toNat - '0'.toNat) * 10 ^ text.length + natural text := natural_cons c text
      _ < 9 * 10 ^ text.length + 10 ^ text.length :=
          Nat.add_lt_add_of_le_of_lt (Nat.mul_le_mul_right _ (by omega)) (ih others)
      _ = 10 ^ (c :: text).length := by rw [List.length_cons]; ring

/-- The first digit settles the order of the number, if it is not zero. -/
theorem le_natural_cons {c : Char} {text : List Char} (digit : isDigit c = true) (nonzero : c ≠ '0') :
    10 ^ text.length ≤ natural (c :: text) := by
  have bounds := digit_bounds digit
  have other : c.toNat ≠ '0'.toNat := fun same => nonzero (Char.toNat_inj.mp same)
  rw [natural_cons]
  exact Nat.le_add_right_of_le (Nat.le_mul_of_pos_left _ (by omega))

theorem natural_dropWhile_zero (text : List Char) :
    natural (text.dropWhile (· == '0')) = natural text := by
  induction text with
  | nil => rfl
  | cons c text ih =>
    by_cases zero : c = '0'
    · subst zero
      rw [List.dropWhile_cons_of_pos (by decide), ih, natural_cons, Nat.sub_self, Nat.zero_mul,
        Nat.zero_add]
    · rw [List.dropWhile_cons_of_neg (by rwa [beq_iff_eq])]

theorem natural_digits (n : ℕ) : natural (digits n) = n := by
  -- The library folds digits with the factor on the other side.
  have commutes : (fun n (c : Char) => n * 10 + (c.toNat - '0'.toNat))
      = fun n c => 10 * n + (c.toNat - '0'.toNat) := by
    funext n c
    rw [Nat.mul_comm]
  rw [natural, commutes]
  exact Nat.ofDigitChars_ten_toDigits

theorem digits_ne_nil (n : ℕ) : digits n ≠ [] :=
  Nat.toDigits_ne_nil

theorem digits_digits (n : ℕ) : Digits (digits n) :=
  fun _ => Nat.isDigit_of_mem_toDigits (by decide) (by decide)

/-! ### The nearest number -/

theorem two_zpow_le_ten_zpow (n : ℕ) : (2 : ℚ) ^ (3 * n : ℤ) ≤ 10 ^ (n : ℤ) := by
  rw [zpow_mul, zpow_natCast, zpow_natCast]
  gcongr
  norm_num

section Orders

variable {n count : ℕ} {power : ℤ}

/-- So small that its order settles it. -/
theorem within_of_order_lt (few : n < 10 ^ count) (order : count + power < -400) :
    Within (n * 10 ^ power) 0 := by
  refine within_zero ?_
  calc (n * 10 ^ power : ℚ)
      < 10 ^ count * 10 ^ power := by gcongr; exact_mod_cast few
    _ = 10 ^ (count + power) := by rw [zpow_add₀ (by norm_num), zpow_natCast]
    _ ≤ 10 ^ (-(401 : ℕ) : ℤ) := zpow_le_zpow_right₀ (by norm_num) (by omega)
    _ = (10 ^ ((401 : ℕ) : ℤ))⁻¹ := zpow_neg _ _
    _ ≤ (2 ^ (3 * (401 : ℕ) : ℤ))⁻¹ := inv_anti₀ (by positivity) (two_zpow_le_ten_zpow 401)
    _ = 2 ^ (-(3 * (401 : ℕ)) : ℤ) := (zpow_neg _ _).symm
    _ ≤ 2 ^ (-1075 : ℤ) := zpow_le_zpow_right₀ one_le_two (by decide)

/-- So great that its order settles it. -/
theorem within_of_lt_order (many : 10 ^ count ≤ n) (order : 400 ≤ count + power) :
    Within (n * 10 ^ power) infinityBits := by
  refine within_infinity ?_
  calc (2 : ℚ) ^ (1024 : ℤ)
      ≤ 2 ^ (3 * (400 : ℕ) : ℤ) := zpow_le_zpow_right₀ one_le_two (by decide)
    _ ≤ 10 ^ ((400 : ℕ) : ℤ) := two_zpow_le_ten_zpow 400
    _ ≤ 10 ^ (count + power) := zpow_le_zpow_right₀ (by norm_num) order
    _ = 10 ^ count * 10 ^ power := by rw [zpow_add₀ (by norm_num), zpow_natCast]
    _ ≤ n * 10 ^ power := by gcongr; exact_mod_cast many

theorem within_of_ratio (positive : 0 < n) :
    Within (n * 10 ^ power) (nearestBits (n * 10 ^ power.toNat) (10 ^ (-power).toNat)) := by
  have ratio : (n * 10 ^ power : ℚ) = (n * 10 ^ power.toNat : ℕ) / (10 ^ (-power).toNat : ℕ) := by
    rw [zpow_eq_div (by norm_num)]
    push_cast
    ring
  rw [ratio]
  exact within_nearestBits (by positivity) (by positivity)

end Orders

theorem within_decimalBits {text : List Char} (digits : Digits text) (power : ℤ) :
    Within (natural text * 10 ^ power) (decimalBits text power) := by
  rw [← natural_dropWhile_zero text]
  have digits : Digits (text.dropWhile (· == '0')) :=
    fun c member => digits c ((List.dropWhile_suffix _).subset member)
  have first := List.head?_dropWhile_not (· == '0') text
  simp only [decimalBits, Nat.pow_eq]
  generalize text.dropWhile (· == '0') = leading at digits first ⊢
  cases leading with
  | nil =>
    simp only [List.isEmpty_nil, Bool.true_or, if_true, natural_nil, Nat.cast_zero, zero_mul]
    exact within_zero (zpow_pos two_pos _)
  | cons c rest =>
    have nonzero : c ≠ '0' := by simpa using first
    have many : 10 ^ rest.length ≤ natural (c :: rest) :=
      le_natural_cons (List.forall_mem_cons.mp digits).1 nonzero
    simp only [List.isEmpty_cons, Bool.false_or, decide_eq_true_eq]
    split
    case isTrue small => exact within_of_order_lt (natural_lt digits) small
    case isFalse =>
      split
      case isTrue great =>
        rw [List.length_cons] at great
        exact within_of_lt_order many (by omega)
      case isFalse => exact within_of_ratio ((Nat.pow_pos (by decide)).trans_le many)

section Encoding

open Float.Model Float.Model.UnpackedFloat

variable (word : BitVec Format.binary64.numBits)

theorem toNat_unpackExponent : (unpackExponent word).toNat = word.toNat / 2 ^ 52 % 2 ^ 11 := by
  rw [← Nat.shiftRight_eq_div_pow]
  simp [unpackExponent]

theorem toNat_unpackMantissa : (unpackMantissa word).toNat = word.toNat % 2 ^ 52 := by
  simp [unpackMantissa]

theorem toNat_unpackSign : (unpackSign word).toNat = word.toNat / 2 ^ 63 % 2 := by
  rw [← Nat.shiftRight_eq_div_pow]
  simp [unpackSign]

theorem isNaNBits_iff : isNaNBits word = true ↔ infinityBits < word.toNat % 2 ^ 63 := by
  have last : infinityBits = 2047 * 2 ^ 52 := rfl
  have greatest : (-BitVec.ofNat Format.binary64.exponentBits 1).toNat = 2047 := rfl
  have least : (BitVec.ofNat Format.binary64.mantissaBitsWithoutImplicit 0).toNat = 0 := rfl
  rw [isNaNBits, decide_eq_true_eq, ← BitVec.toNat_inj, ne_eq, ← BitVec.toNat_inj, greatest, least,
    toNat_unpackExponent, toNat_unpackMantissa]
  omega

/-- Only what is no number has more than one encoding. -/
theorem pack_unpack_of_le (number : word.toNat % 2 ^ 63 ≤ infinityBits) :
    pack Format.binary64 (unpack Format.binary64 word) = word := by
  rw [pack_unpack word (by decide), if_neg ((isNaNBits_iff word).not.mpr (not_lt.mpr number))]

/-- Bits up to those of infinity are the bits of a number. -/
theorem toBits_ofBits {bits : ℕ} (bounded : bits ≤ infinityBits) :
    (Float.ofBits (.ofNat bits)).toBits.toNat = bits := by
  have last : infinityBits = 2047 * 2 ^ 52 := rfl
  have toNat : (UInt64.ofNat bits).toBitVec.toNat = bits := Nat.mod_eq_of_lt (by omega)
  have same := pack_unpack_of_le (UInt64.ofNat bits).toBitVec (by omega)
  calc (Float.ofBits (.ofNat bits)).toBits.toNat
      = (pack Format.binary64 (unpack Format.binary64 (UInt64.ofNat bits).toBitVec)).toNat := rfl
    _ = bits := by rw [same, toNat]

end Encoding

/-- A binary64 that is not negative is the nearest one to a number. -/
def Nearest (x : ℚ) (value : Float) : Prop :=
  IsNearest x value.toBits.toNat

theorem Nearest.unique {x : ℚ} {value value' : Float} (nearest : Nearest x value)
    (nearest' : Nearest x value') : value = value' :=
  Float.toBits_inj.mp (UInt64.toNat_inj.mp (IsNearest.unique nearest nearest'))

theorem nearest_spec {text : List Char} (digits : Digits text) (power : ℤ) :
    Nearest (natural text * 10 ^ power) (nearest text power) := by
  have within := within_decimalBits digits power
  rw [Nearest, nearest, toBits_ofBits within.le_infinity]
  exact within.isNearest

/-! ### Numerals -/

/-- A sign or none, and whether it is a minus. -/
inductive Sign : List Char → Bool → Prop
  | none : Sign [] false
  | plus : Sign ['+'] false
  | minus : Sign ['-'] true

/-- The digits behind a point, if there is one. -/
inductive Fraction : List Char → List Char → Prop
  | none : Fraction [] []
  | point {digits : List Char} : Digits digits → Fraction ('.' :: digits) digits

/-- Digits with a sign or none, and the integer they stand for. -/
inductive Signed : List Char → ℤ → Prop
  | intro {sign digits : List Char} {negative : Bool} : Sign sign negative → digits ≠ [] →
      Digits digits → Signed (sign ++ digits) (if negative then -natural digits else natural digits)

/-- A power of ten behind its mark, if there is one. -/
inductive Exponent : List Char → ℤ → Prop
  | none : Exponent [] 0
  | marked {mark : Char} {text : List Char} {power : ℤ} : mark = 'e' ∨ mark = 'E' →
      Signed text power → Exponent (mark :: text) power

/-- Digits around an optional point, then an optional exponent, and the number they stand for. -/
inductive Numeral : List Char → ℚ → Prop
  | intro {whole behind fraction tail : List Char} {power : ℤ} : Digits whole →
      Fraction behind fraction → whole ≠ [] ∨ fraction ≠ [] → Exponent tail power →
      Numeral (whole ++ behind ++ tail)
        (natural (whole ++ fraction) * 10 ^ (power - fraction.length))

/-- What a text without a sign denotes. The letters of a name may be great or small. -/
inductive Unsigned : List Char → Float → Prop
  | infinity {text : List Char} : String.ofList (text.map Char.toLower) ∈ ["inf", "infinity"] →
      Unsigned text (1.0 / 0.0)
  | undefined {text : List Char} : String.ofList (text.map Char.toLower) = "nan" →
      Unsigned text (0.0 / 0.0)
  | numeral {text : List Char} {x : ℚ} {value : Float} : Numeral text x → Nearest x value →
      Unsigned text value

theorem exists_sign (text : List Char) :
    ∃ sign negative body, takeSign text = (negative, body) ∧ Sign sign negative ∧
      text = sign ++ body := by
  unfold takeSign
  split
  · exact ⟨_, _, _, rfl, .minus, rfl⟩
  · exact ⟨_, _, _, rfl, .plus, rfl⟩
  · exact ⟨_, _, _, rfl, .none, rfl⟩

/-- What is behind a sign does not start with another one. -/
theorem takeSign_append {sign body : List Char} {negative : Bool} (signed : Sign sign negative)
    (bare : ∀ c ∈ body.head?, c ≠ '+' ∧ c ≠ '-') : takeSign (sign ++ body) = (negative, body) := by
  cases signed with
  | plus | minus => rfl
  | none =>
    rw [List.nil_append]
    unfold takeSign
    split
    · exact absurd rfl (bare _ rfl).2
    · exact absurd rfl (bare _ rfl).1
    · rfl

theorem digit_ne_sign {c : Char} (digit : isDigit c = true) : c ≠ '+' ∧ c ≠ '-' := by
  constructor <;> rintro rfl <;> exact absurd digit (by decide)

theorem integer?_eq_some_iff {text : List Char} {value : ℤ} :
    integer? text = some value ↔ Signed text value := by
  constructor
  · intro found
    obtain ⟨sign, negative, body, taken, signed, rfl⟩ := exists_sign text
    simp only [integer?, taken] at found
    split at found
    case isTrue => cases found
    case isFalse proper =>
      simp only [Bool.or_eq_true, List.isEmpty_iff, Bool.not_eq_true', not_or,
        Bool.not_eq_false] at proper
      obtain rfl := Option.some.inj found
      exact .intro signed proper.1 (all_isDigit_iff.mp proper.2)
  · rintro ⟨signed, nonempty, all⟩
    have behind := takeSign_append signed fun c first => digit_ne_sign (all c (List.mem_of_head? first))
    simp only [integer?, behind, List.isEmpty_eq_false_iff.mpr nonempty, all_isDigit_iff.mpr all,
      Bool.not_true, Bool.or_false, Bool.false_eq_true, if_false]

/-- The texts that denote a 64-bit integer, and the one each of them denotes. -/
theorem readInt64?_eq_some_iff {text : List Char} {value : Int64} :
    readInt64? text = some value ↔ Signed text value.toInt := by
  rw [readInt64?, Option.bind_eq_some_iff]
  constructor
  · rintro ⟨integer, found, fits⟩
    rw [int64?_eq_some_iff.mp fits]
    exact integer?_eq_some_iff.mp found
  · intro signed
    exact ⟨_, integer?_eq_some_iff.mpr signed, int64?_eq_some_iff.mpr rfl⟩

theorem exponent?_eq_some_iff {text : List Char} {power : ℤ} :
    exponent? text = some power ↔ Exponent text power := by
  constructor
  · intro found
    cases text with
    | nil =>
      obtain rfl := Option.some.inj found
      exact .none
    | cons mark rest =>
      simp only [exponent?] at found
      split at found
      case isTrue known => exact .marked (by simpa using known) (integer?_eq_some_iff.mp found)
      case isFalse => cases found
  · intro exponent
    cases exponent with
    | none => rfl
    | marked known signed =>
      rw [exponent?, if_pos (by simpa using known), integer?_eq_some_iff.mpr signed]

theorem exists_fraction (text : List Char) :
    ∃ behind fraction rest, takeFraction text = (fraction, rest) ∧ Fraction behind fraction ∧
      text = behind ++ rest := by
  unfold takeFraction
  split
  case h_1 text =>
    refine ⟨_, _, _, rfl, .point fun c => List.mem_takeWhile_imp, ?_⟩
    rw [List.cons_append, List.takeWhile_append_dropWhile]
  case h_2 => exact ⟨_, _, _, rfl, .none, rfl⟩

theorem takeWhile_digits {digits rest : List Char} (all : Digits digits)
    (stop : ∀ c ∈ rest.head?, isDigit c = false) :
    (digits ++ rest).takeWhile isDigit = digits ∧ (digits ++ rest).dropWhile isDigit = rest := by
  have none : rest.takeWhile isDigit = [] ∧ rest.dropWhile isDigit = rest := by
    cases rest with
    | nil => exact ⟨rfl, rfl⟩
    | cons c rest =>
      have other := stop c rfl
      exact ⟨List.takeWhile_cons_of_neg (by simp [other]), List.dropWhile_cons_of_neg (by simp [other])⟩
  rw [List.takeWhile_append_of_pos all, List.dropWhile_append_of_pos all, none.1, none.2,
    List.append_nil]
  exact ⟨rfl, rfl⟩

/-- An exponent starts with no digit and with no point. -/
theorem Exponent.head {text : List Char} {power : ℤ} (exponent : Exponent text power) :
    ∀ c ∈ text.head?, isDigit c = false ∧ c ≠ '.' := by
  cases exponent with
  | none => simp
  | marked known =>
    rintro c ⟨⟩
    rcases known with rfl | rfl <;> decide

theorem takeFraction_append {behind fraction rest : List Char} (written : Fraction behind fraction)
    (stop : ∀ c ∈ rest.head?, isDigit c = false ∧ c ≠ '.') :
    takeFraction (behind ++ rest) = (fraction, rest) := by
  cases written with
  | none =>
    rw [List.nil_append]
    unfold takeFraction
    split
    · exact absurd rfl (stop _ rfl).2
    · rfl
  | point all =>
    obtain ⟨taken, dropped⟩ := takeWhile_digits all fun c first => (stop c first).1
    rw [List.cons_append, takeFraction, taken, dropped]

/-- The digits before the point end where a fraction or an exponent starts. -/
theorem Fraction.head {behind fraction rest : List Char} (written : Fraction behind fraction)
    (stop : ∀ c ∈ rest.head?, isDigit c = false) :
    ∀ c ∈ (behind ++ rest).head?, isDigit c = false := by
  cases written with
  | none => exact stop
  | point =>
    rintro c ⟨⟩
    decide

theorem unsigned?_of_parts {whole behind fraction tail : List Char} {power : ℤ} (all : Digits whole)
    (written : Fraction behind fraction) (some : whole ≠ [] ∨ fraction ≠ [])
    (exponent : Exponent tail power) :
    unsigned? (whole ++ behind ++ tail)
      = .some (nearest (whole ++ fraction) (power - fraction.length)) := by
  have stop := exponent.head
  obtain ⟨taken, dropped⟩ := takeWhile_digits all (written.head fun c first => (stop c first).1)
  simp only [unsigned?, List.append_assoc, taken, dropped, takeFraction_append written stop,
    exponent?_eq_some_iff.mpr exponent, Option.map_some]
  rw [if_neg]
  simpa [or_iff_not_imp_left] using some

theorem Fraction.digits {behind fraction : List Char} (written : Fraction behind fraction) :
    Digits fraction := by
  cases written with
  | none => exact List.forall_mem_nil _
  | point all => exact all

theorem Digits.append {text text' : List Char} (digits : Digits text) (digits' : Digits text') :
    Digits (text ++ text') :=
  List.forall_mem_append.mpr ⟨digits, digits'⟩

/-- A numeral is read as the nearest binary64, and nothing else is. -/
theorem unsigned?_eq_some_iff {text : List Char} {value : Float} :
    unsigned? text = some value ↔ ∃ x, Numeral text x ∧ Nearest x value := by
  constructor
  · intro found
    have all : Digits (text.takeWhile isDigit) := fun c => List.mem_takeWhile_imp
    have split : text = text.takeWhile isDigit ++ text.dropWhile isDigit :=
      List.takeWhile_append_dropWhile.symm
    obtain ⟨behind, fraction, rest, taken, written, parts⟩ := exists_fraction (text.dropWhile isDigit)
    simp only [unsigned?, taken] at found
    split_ifs at found with missing
    obtain ⟨power, exponent, rfl⟩ := Option.map_eq_some_iff.mp found
    have digits : text.takeWhile isDigit ≠ [] ∨ fraction ≠ [] := by
      simpa [or_iff_not_imp_left] using missing
    refine ⟨_, ?_, nearest_spec (all.append written.digits) _⟩
    have numeral := Numeral.intro all written digits (exponent?_eq_some_iff.mp exponent)
    rwa [List.append_assoc, ← parts, ← split] at numeral
  · rintro ⟨x, numeral, near⟩
    cases numeral with
    | intro all written digits exponent =>
      rw [unsigned?_of_parts all written digits exponent]
      exact congrArg some ((nearest_spec (all.append written.digits) _).unique near)

/-- The names start with letters. -/
theorem isAlpha_of_named {text : List Char}
    (named : String.ofList (text.map Char.toLower) ∈ ["inf", "infinity", "nan"]) :
    ∀ c ∈ text.head?, c.isAlpha = true := by
  intro c first
  have initial (name : String) (same : String.ofList (text.map Char.toLower) = name) :
      name.toList.head? = some c.toLower := by
    rw [← same, String.toList_ofList, List.head?_map, first]
    rfl
  have letter : c.toLower = 'i' ∨ c.toLower = 'n' := by
    simp only [List.mem_cons, List.not_mem_nil, or_false] at named
    rcases named with same | same | same
    · exact .inl (Option.some.inj (initial _ same)).symm
    · exact .inl (Option.some.inj (initial _ same)).symm
    · exact .inr (Option.some.inj (initial _ same)).symm
  by_cases upper : c.isUpper = true
  · rw [Char.isAlpha, upper, Bool.true_or]
  · rw [Char.toLower_eq_of_not_isUpper upper] at letter
    rcases letter with rfl | rfl <;> rfl

theorem isAlpha_of_isDigit {c : Char} (digit : isDigit c = true) : c.isAlpha = false := by
  have small : c.val.toNat ≤ 57 := (digit_bounds digit).2
  have upper : 'A'.val.toNat = 65 := rfl
  have lower : 'a'.val.toNat = 97 := rfl
  simp only [Char.isAlpha, Char.isUpper, Char.isLower, ge_iff_le, UInt32.le_iff_toNat_le,
    Bool.or_eq_false_iff, Bool.and_eq_false_iff, decide_eq_false_iff_not, upper, lower]
  omega

/-- A numeral starts with a digit or a point. -/
theorem Numeral.head {text : List Char} {x : ℚ} (numeral : Numeral text x) :
    ∀ c ∈ text.head?, isDigit c = true ∨ c = '.' := by
  cases numeral with
  | @intro whole behind fraction tail power all written some exponent =>
    intro c first
    cases whole with
    | cons d whole =>
      obtain rfl := Option.some.inj first
      exact .inl (all d List.mem_cons_self)
    | nil =>
      cases written with
      | none => exact absurd rfl (some.resolve_left (absurd rfl))
      | point => exact .inr (Option.some.inj first).symm

/-- So it is no name. -/
theorem Numeral.not_named {text : List Char} {x : ℚ} (numeral : Numeral text x) :
    String.ofList (text.map Char.toLower) ∉ ["inf", "infinity", "nan"] := by
  intro named
  have nonempty : text ≠ [] := by
    rintro rfl
    exact absurd named (by decide)
  obtain ⟨c, rest, rfl⟩ := List.exists_cons_of_ne_nil nonempty
  have letter := isAlpha_of_named named c rfl
  rcases numeral.head c rfl with digit | rfl
  · rw [isAlpha_of_isDigit digit] at letter
    cases letter
  · exact absurd letter (by decide)

theorem named?_eq_none {text : List Char}
    (other : String.ofList (text.map Char.toLower) ∉ ["inf", "infinity", "nan"]) :
    named? text = none := by
  simp only [List.mem_cons, List.not_mem_nil, or_false, not_or] at other
  simp only [named?, other, or_self, if_false]

/-- What a text without a sign denotes is read behind one. -/
theorem Unsigned.head {text : List Char} {value : Float} (unsigned : Unsigned text value) :
    ∀ c ∈ text.head?, c ≠ '+' ∧ c ≠ '-' := by
  intro c first
  have letter (named : String.ofList (text.map Char.toLower) ∈ ["inf", "infinity", "nan"]) :
      c ≠ '+' ∧ c ≠ '-' := by
    have alpha := isAlpha_of_named named c first
    constructor <;> rintro rfl <;> exact absurd alpha (by decide)
  cases unsigned with
  | infinity named => exact letter (List.mem_append_left ["nan"] named)
  | undefined named => exact letter (by simp [named])
  | numeral numeral =>
    rcases numeral.head c first with digit | rfl
    · exact digit_ne_sign digit
    · decide

theorem named?_or_unsigned? {text : List Char} {value : Float} :
    (named? text).or (unsigned? text) = some value ↔ Unsigned text value := by
  constructor
  · intro found
    simp only [named?] at found
    split_ifs at found with infinite undefined
    · obtain rfl := Option.some.inj found
      exact .infinity (by simpa using infinite)
    · obtain rfl := Option.some.inj found
      exact .undefined undefined
    · obtain ⟨x, numeral, near⟩ := unsigned?_eq_some_iff.mp found
      exact .numeral numeral near
  · intro unsigned
    cases unsigned with
    | infinity named =>
      rw [named?, if_pos (by simpa using named)]
      rfl
    | undefined named =>
      rw [named?, named]
      rfl
    | numeral numeral near =>
      rw [named?_eq_none numeral.not_named, unsigned?_eq_some_iff.mpr ⟨_, numeral, near⟩]
      rfl

/-- The texts that denote a binary64, and the one each of them denotes. -/
theorem readFloat?_eq_some_iff {text : List Char} {value : Float} :
    readFloat? text = some value ↔ ∃ sign negative body magnitude, text = sign ++ body ∧
      Sign sign negative ∧ Unsigned body magnitude ∧
      value = if negative then -magnitude else magnitude := by
  constructor
  · intro found
    obtain ⟨sign, negative, body, taken, signed, rfl⟩ := exists_sign text
    simp only [readFloat?, taken] at found
    obtain ⟨magnitude, unsigned, rfl⟩ := Option.map_eq_some_iff.mp found
    exact ⟨sign, negative, body, magnitude, rfl, signed, named?_or_unsigned?.mp unsigned, rfl⟩
  · rintro ⟨sign, negative, body, magnitude, rfl, signed, unsigned, rfl⟩
    simp only [readFloat?, takeSign_append signed unsigned.head, named?_or_unsigned?.mpr unsigned,
      Option.map_some]

end Primer.Decimal
