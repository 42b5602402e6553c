import Mathlib
import Primer.Text.Utf8

/-!
# Encoding and decoding

The bytes of a text are those of its characters, one behind the other. Decoding takes the bytes of one
character off the front, whatever follows them, and so gives the text back that the bytes come from.

A line feed is a byte of its own: no other character has that byte in its form. A stream of texts can
therefore be cut into lines before it is decoded.
-/

namespace Primer.Text

/-! ### The bytes of a text -/

private theorem toList_loop (bytes : ByteArray) (place : Nat) (read : List UInt8) :
    ByteArray.toList.loop bytes place read = read.reverse ++ bytes.data.toList.drop place := by
  fun_induction ByteArray.toList.loop bytes place read with
  | case1 place read inside ih =>
    have within : place < bytes.data.toList.length := by simpa using inside
    rw [ih, List.drop_eq_getElem_cons within]
    simp [ByteArray.get!, inside]
  | case2 place read outside =>
    have past : bytes.data.toList.length ≤ place := by simpa using outside
    rw [List.drop_eq_nil_of_le past, List.append_nil]

theorem encode_eq (text : String) : encode text = text.toList.flatMap String.utf8EncodeChar := by
  rw [encode, ByteArray.toList, toList_loop, String.toUTF8, ← String.utf8Encode_toList,
    List.utf8Encode, List.toList_data_toByteArray]
  rfl

@[simp] theorem encode_empty : encode "" = [] := by
  simp [encode_eq]

@[simp] theorem encode_append (first second : String) :
    encode (first ++ second) = encode first ++ encode second := by
  simp [encode_eq]

/-! ### Decoding a character -/

private theorem toNat_ofNat {n : Nat} (fits : n < 256) : (UInt8.ofNat n).toNat = n := by
  rw [UInt8.toNat_ofNat', Nat.mod_eq_of_lt fits]

/-- A byte with the mark of a continuation carries its six bits. -/
private theorem continuation_ofNat {bits : Nat} (low : bits < 64) :
    isContinuation (.ofNat (bits + 128)) = true ∧
      continuationBits (.ofNat (bits + 128)) = bits := by
  have value : (UInt8.ofNat (bits + 128)).toNat = bits + 128 := toNat_ofNat (by omega)
  constructor
  · simp [isContinuation, UInt8.le_iff_toNat_le, UInt8.lt_iff_toNat_lt]
    omega
  · rw [continuationBits, value]
    omega

private theorem scalar?_toNat {c : Char} {least : Nat} (long : least ≤ c.toNat) :
    scalar? least c.toNat = some c := by
  have valid : c.toNat.isValidChar := c.valid
  rw [scalar?, if_pos ⟨long, valid⟩, Char.ofNat_toNat]

section Sequences

variable {read : List Char} {c : Char} {first second third fourth : UInt8} {rest : List UInt8}

private theorem not_lt_of_lead {least : Nat} (lead : least ≤ first.toNat) {bound : UInt8}
    (below : bound.toNat ≤ least) : ¬ first < bound := by
  rw [UInt8.lt_iff_toNat_lt]
  omega

private theorem decodeOnto_one (high : first.toNat < 0x80) :
    decodeOnto read (first :: rest) = decodeOnto (Char.ofNat first.toNat :: read) rest := by
  have one : first < 0x80 := UInt8.lt_iff_toNat_lt.mpr high
  rw [decodeOnto.eq_def]
  simp only [one, if_true]

private theorem decodeOnto_two (lead : 0xC0 ≤ first.toNat) (high : first.toNat < 0xE0)
    (continues : isContinuation second = true)
    (found : scalar? 0x80 (first.toNat % 32 * 64 + continuationBits second) = some c) :
    decodeOnto read (first :: second :: rest) = decodeOnto (c :: read) rest := by
  have two : first < 0xE0 := UInt8.lt_iff_toNat_lt.mpr high
  rw [decodeOnto, if_neg (not_lt_of_lead lead (by decide)), if_neg (not_lt_of_lead lead (by decide)),
    if_pos two, continues, found]
  rfl

private theorem decodeOnto_three (lead : 0xE0 ≤ first.toNat) (high : first.toNat < 0xF0)
    (continues : isContinuation second = true) (continues' : isContinuation third = true)
    (found : scalar? 0x800 ((first.toNat % 16 * 64 + continuationBits second) * 64
      + continuationBits third) = some c) :
    decodeOnto read (first :: second :: third :: rest) = decodeOnto (c :: read) rest := by
  have three : first < 0xF0 := UInt8.lt_iff_toNat_lt.mpr high
  rw [decodeOnto, if_neg (not_lt_of_lead lead (by decide)), if_neg (not_lt_of_lead lead (by decide)),
    if_neg (not_lt_of_lead lead (by decide)), if_pos three]
  simp only [continues, continues', found]
  rfl

private theorem decodeOnto_four (lead : 0xF0 ≤ first.toNat) (high : first.toNat < 0xF8)
    (continues : isContinuation second = true) (continues' : isContinuation third = true)
    (continues'' : isContinuation fourth = true)
    (found : scalar? 0x10000 (((first.toNat % 8 * 64 + continuationBits second) * 64
      + continuationBits third) * 64 + continuationBits fourth) = some c) :
    decodeOnto read (first :: second :: third :: fourth :: rest) = decodeOnto (c :: read) rest := by
  have four : first < 0xF8 := UInt8.lt_iff_toNat_lt.mpr high
  rw [decodeOnto, if_neg (not_lt_of_lead lead (by decide)), if_neg (not_lt_of_lead lead (by decide)),
    if_neg (not_lt_of_lead lead (by decide)), if_neg (not_lt_of_lead lead (by decide)), if_pos four]
  simp only [continues, continues', continues'', found]
  rfl

end Sequences

/-- The bytes of a character are decoded as that character, whatever follows. The cases are the
lengths of its form. -/
theorem decodeOnto_utf8EncodeChar (read : List Char) (c : Char) (rest : List UInt8) :
    decodeOnto read (String.utf8EncodeChar c ++ rest) = decodeOnto (c :: read) rest := by
  have range : c.val.toNat < 0x110000 := by
    rcases c.valid with low | high
    · exact Nat.lt_trans low (by decide)
    · exact high.2
  have six (n : Nat) : n % 64 < 64 := Nat.mod_lt n (by decide)
  fun_cases String.utf8EncodeChar c with
  | case1 code one =>
    have value : (UInt8.ofNat code).toNat = c.toNat := toNat_ofNat (by omega)
    rw [List.singleton_append, decodeOnto_one (by rw [value]; exact Nat.lt_succ_of_le one), value,
      Char.ofNat_toNat]
  | case2 code more two =>
    have value : (UInt8.ofNat (code / 64 % 32 + 192)).toNat = code / 64 % 32 + 192 :=
      toNat_ofNat (by omega)
    obtain ⟨last, bits⟩ := continuation_ofNat (six code)
    refine decodeOnto_two (by omega) (by omega) last ?_
    have sum : (code / 64 % 32 + 192) % 32 * 64 + code % 64 = c.toNat := by
      change _ = code
      omega
    rw [value, bits, sum]
    exact scalar?_toNat (Nat.lt_of_not_le more)
  | case3 code _ more three =>
    have value : (UInt8.ofNat (code / 4096 % 16 + 224)).toNat = code / 4096 % 16 + 224 :=
      toNat_ofNat (by omega)
    obtain ⟨next, bits⟩ := continuation_ofNat (six (code / 64))
    obtain ⟨last, bits'⟩ := continuation_ofNat (six code)
    refine decodeOnto_three (by omega) (by omega) next last ?_
    have sum : ((code / 4096 % 16 + 224) % 16 * 64 + code / 64 % 64) * 64 + code % 64
        = c.toNat := by
      change _ = code
      omega
    rw [value, bits, bits', sum]
    exact scalar?_toNat (Nat.lt_of_not_le more)
  | case4 code _ _ more =>
    have value : (UInt8.ofNat (code / 262144 % 8 + 240)).toNat = code / 262144 % 8 + 240 :=
      toNat_ofNat (by omega)
    obtain ⟨next, bits⟩ := continuation_ofNat (six (code / 4096))
    obtain ⟨third, bits'⟩ := continuation_ofNat (six (code / 64))
    obtain ⟨last, bits''⟩ := continuation_ofNat (six code)
    refine decodeOnto_four (by omega) (by omega) next third last ?_
    have sum : (((code / 262144 % 8 + 240) % 8 * 64 + code / 4096 % 64) * 64 + code / 64 % 64) * 64
        + code % 64 = c.toNat := by
      change _ = code
      have small : code < 0x110000 := range
      omega
    rw [value, bits, bits', bits'', sum]
    exact scalar?_toNat (Nat.lt_of_not_le more)

/-! ### Decoding a text -/

theorem decodeOnto_flatMap (read chars : List Char) :
    decodeOnto read (chars.flatMap String.utf8EncodeChar) = .ok (read.reverse ++ chars) := by
  induction chars generalizing read with
  | nil => rw [List.flatMap_nil, decodeOnto, List.append_nil]
  | cons c chars ih =>
    rw [List.flatMap_cons, decodeOnto_utf8EncodeChar, ih, List.reverse_cons, List.append_assoc,
      List.singleton_append]

/-- A text is decoded from its bytes. -/
theorem decode_encode (text : String) : decode (encode text) = .ok text := by
  rw [decode, encode_eq, decodeOnto_flatMap]
  simp [Except.map]

/-! ### Line feeds -/

/-- No byte of any other character is a line feed. -/
theorem feed_not_mem_utf8EncodeChar {c : Char} (other : c ≠ '\n') :
    10 ∉ String.utf8EncodeChar c := by
  have marked (n : Nat) (high : 128 ≤ n) (fits : n < 256) : 10 ≠ UInt8.ofNat n := by
    intro same
    have value := toNat_ofNat fits
    rw [← same] at value
    exact absurd value (by rw [show (10 : UInt8).toNat = 10 from rfl]; omega)
  fun_cases String.utf8EncodeChar c with
  | case1 code one =>
    rw [List.mem_singleton]
    intro same
    have value : (UInt8.ofNat code).toNat = c.toNat := toNat_ofNat (by omega)
    rw [← same] at value
    exact other (Char.toNat_inj.mp value.symm)
  | case2 code _ two =>
    simp only [List.mem_cons, List.not_mem_nil, or_false, not_or]
    exact ⟨marked _ (by omega) (by omega), marked _ (by omega) (by omega)⟩
  | case3 code _ _ three =>
    simp only [List.mem_cons, List.not_mem_nil, or_false, not_or]
    exact ⟨marked _ (by omega) (by omega), marked _ (by omega) (by omega),
      marked _ (by omega) (by omega)⟩
  | case4 code _ _ _ =>
    simp only [List.mem_cons, List.not_mem_nil, or_false, not_or]
    exact ⟨marked _ (by omega) (by omega), marked _ (by omega) (by omega),
      marked _ (by omega) (by omega), marked _ (by omega) (by omega)⟩

theorem feed_not_mem_encode {text : String} (whole : '\n' ∉ text.toList) : 10 ∉ encode text := by
  rw [encode_eq, List.mem_flatMap]
  rintro ⟨c, member, feed⟩
  refine feed_not_mem_utf8EncodeChar ?_ feed
  rintro rfl
  exact whole member

end Primer.Text
