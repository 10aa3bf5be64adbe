import TokenApproval.Text

/-!
# Hexadecimal texts

Bytes are written as two lower-case digits each, with a leading `0x` where a text is shown to a
reader. They are read from digits of either case, after at most one leading `0x` or `0X`. Reading
works on the UTF-8 bytes of the text, so positions in errors are byte offsets past the marker.
-/

namespace TokenApproval

/-- Why a text is not hexadecimal. -/
inductive HexError where
  /-- The digits do not pair up. -/
  | oddLength
  /-- The byte at this offset is not a digit. -/
  | invalidDigit (byte : UInt8) (position : Nat)
deriving DecidableEq, Repr

/-- The wording of a hexadecimal error; the byte is shown as the character of that code. -/
def HexError.message : HexError → String
  | .oddLength => "Odd number of digits"
  | .invalidDigit byte position =>
    "Invalid character " ++ Text.quotedChar (Char.ofNat byte.toNat) ++ " at position "
      ++ toString position

namespace Hex

def digit (value : Nat) : Char :=
  if value < 10 then Char.ofNat (48 + value) else Char.ofNat (87 + value)

/-- The value of a digit, given as an ASCII byte. -/
def value? (byte : UInt8) : Option Nat :=
  let b := byte.toNat
  if 48 ≤ b ∧ b ≤ 57 then some (b - 48)
  else if 97 ≤ b ∧ b ≤ 102 then some (b - 87)
  else if 65 ≤ b ∧ b ≤ 70 then some (b - 55)
  else none

/-- The two digits of each byte, in order. -/
def digits (bytes : Bytes) : List Char :=
  bytes.flatMap fun b => [digit (b.toNat / 16), digit (b.toNat % 16)]

/-- Two lower-case digits for each byte. -/
def encode (bytes : Bytes) : String := String.ofList (digits bytes)

/-- The digits behind a `0x`. -/
def prefixed (bytes : Bytes) : String := "0x" ++ encode bytes

/-- What follows one leading `0x` or `0X`, if there is one. -/
def dropMarker : Bytes → Bytes
  | 48 :: 120 :: rest => rest
  | 48 :: 88 :: rest => rest
  | bytes => bytes

/-- Reads pairs of digits; `position` is the offset of the first byte. A lone last byte, which
callers rule out, reads as odd length. -/
def decodePairs (position : Nat) : Bytes → Except HexError Bytes
  | [] => .ok []
  | [_] => .error .oddLength
  | high :: low :: rest =>
    match value? high with
    | none => .error (.invalidDigit high position)
    | some h =>
      match value? low with
      | none => .error (.invalidDigit low (position + 1))
      | some l =>
        match decodePairs (position + 2) rest with
        | .error e => .error e
        | .ok bytes => .ok (UInt8.ofNat (h * 16 + l) :: bytes)

/-- Reads the bytes of a hexadecimal text that has no marker. -/
def decodeDigits (text : Bytes) : Except HexError Bytes :=
  if text.length % 2 = 1 then .error .oddLength else decodePairs 0 text

/-- The bytes that a text spells, with or without a leading `0x` or `0X`. -/
def decode (text : String) : Except HexError Bytes :=
  decodeDigits (dropMarker (Text.bytes text))

end Hex

/-! ## Byte strings of fixed length in hexadecimal

An identifier or a hash is written as `0x` and its digits, and read from a text of exactly as many
bytes. -/

/-- Why a text is not a byte string of the length asked for. -/
inductive OctetsError where
  | hex (cause : HexError)
  /-- The text spells another number of bytes. -/
  | length (expected got : Nat)
deriving DecidableEq, Repr

def OctetsError.message : OctetsError → String
  | .hex cause => cause.message
  | .length expected got => "expected " ++ toString expected ++ " bytes, got " ++ toString got

namespace Octets

/-- The `n` bytes that a text spells, with or without a leading `0x` or `0X`. -/
def ofHex (n : Nat) (text : String) : Except OctetsError (Octets n) :=
  match Hex.decode text with
  | .error cause => .error (.hex cause)
  | .ok bytes =>
    match ofBytes? bytes with
    | none => .error (.length n bytes.length)
    | some octets => .ok octets

def hex {n : Nat} (octets : Octets n) : String := Hex.prefixed octets.bytes

end Octets

end TokenApproval
