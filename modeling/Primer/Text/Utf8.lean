/-!
# Text in UTF-8

Offsets into a text count the bytes of its UTF-8 form, and files and streams arrive as bytes.
Decoding tells apart a sequence that is wrong and one that the end of the bytes cuts short, because
the two are reported differently.
-/

namespace Primer.Text

/-- The number of bytes the characters take. -/
def byteLength : List Char → Nat
  | [] => 0
  | c :: rest => c.utf8Size + byteLength rest

/-- Why bytes are not a text. -/
inductive DecodeFault where
  | malformed
  | truncated
  deriving DecidableEq, Repr

def isContinuation (byte : UInt8) : Bool :=
  0x80 ≤ byte && byte < 0xC0

/-- The six payload bits of a continuation byte. -/
def continuationBits (byte : UInt8) : Nat :=
  byte.toNat % 64

/-- The scalar value `code`, unless it has a shorter form than one that starts at `least`. -/
def scalar? (least code : Nat) : Option Char :=
  if least ≤ code ∧ code.isValidChar then some (Char.ofNat code) else none

/-- Decodes bytes onto the characters already read, which stand in reverse. -/
def decodeOnto (read : List Char) : List UInt8 → Except DecodeFault (List Char)
  | [] => .ok read.reverse
  | first :: rest =>
    if first < 0x80 then decodeOnto (Char.ofNat first.toNat :: read) rest
    else if first < 0xC0 then .error .malformed
    else if first < 0xE0 then
      match rest with
      | [] => .error .truncated
      | second :: rest =>
        if !isContinuation second then .error .malformed
        else
          match scalar? 0x80 (first.toNat % 32 * 64 + continuationBits second) with
          | some c => decodeOnto (c :: read) rest
          | none => .error .malformed
    else if first < 0xF0 then
      match rest with
      | [] => .error .truncated
      | [second] => .error (if isContinuation second then .truncated else .malformed)
      | second :: third :: rest =>
        if !(isContinuation second && isContinuation third) then .error .malformed
        else
          match scalar? 0x800
              ((first.toNat % 16 * 64 + continuationBits second) * 64 + continuationBits third) with
          | some c => decodeOnto (c :: read) rest
          | none => .error .malformed
    else if first < 0xF8 then
      match rest with
      | [] => .error .truncated
      | [second] => .error (if isContinuation second then .truncated else .malformed)
      | [second, third] =>
        .error (if isContinuation second && isContinuation third then .truncated else .malformed)
      | second :: third :: fourth :: rest =>
        if !(isContinuation second && isContinuation third && isContinuation fourth) then
          .error .malformed
        else
          match scalar? 0x10000
              (((first.toNat % 8 * 64 + continuationBits second) * 64 + continuationBits third) * 64
                + continuationBits fourth) with
          | some c => decodeOnto (c :: read) rest
          | none => .error .malformed
    else .error .malformed

/-- The text whose UTF-8 form is `bytes`. -/
def decode (bytes : List UInt8) : Except DecodeFault String :=
  (decodeOnto [] bytes).map String.ofList

/-- The UTF-8 form of a text. -/
def encode (text : String) : List UInt8 :=
  text.toUTF8.toList

end Primer.Text
