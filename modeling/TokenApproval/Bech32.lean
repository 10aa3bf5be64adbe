import TokenApproval.Text

/-!
# Bech32

A bech32 text is a human-readable part, the separator `1`, and characters that stand for five bits
each, the last six of them a checksum over all the rest. Two checksums exist, which differ in one
constant; texts are written with the older one and read with either. Letters may be of either case
but not of both in one text.
-/

namespace TokenApproval.Bech32

/-- Five bits. -/
abbrev Symbol := BitVec 5

/-! ## Characters -/

/-- The characters that stand for the symbols 0 to 31. -/
def alphabet : List Char := "qpzry9x8gf2tvdw0s3jn54khce6mua7l".toList

def char (symbol : Symbol) : Char := alphabet.getD symbol.toNat 'q'

/-- The symbol of a character of either case. -/
def symbol? (c : Char) : Option Symbol :=
  (alphabet.findIdx? (· == c.toLower)).map (BitVec.ofNat 5)

def isMixedCase (chars : List Char) : Bool := chars.any Char.isUpper && chars.any Char.isLower

/-- The part of a text before the separator, with a rule for what may stand in it. -/
structure HumanPart where
  chars : List Char
deriving DecidableEq, Repr

namespace HumanPart

/-- Accepts from 1 to 83 printable ASCII characters, without letters of both cases. -/
def ofChars? (chars : List Char) : Option HumanPart :=
  if chars.isEmpty || decide (83 < chars.length)
      || chars.any (fun c => decide (c.toNat < 33) || decide (126 < c.toNat))
      || isMixedCase chars then none
  else some ⟨chars⟩

/-- The part as text, in the case it was given in. -/
def text (part : HumanPart) : String := String.ofList part.chars

/-- The part in lower case, as it is written and enters the checksum. -/
def lower (part : HumanPart) : List Char := part.chars.map Char.toLower

end HumanPart

/-! ## The checksum -/

/-- What a set bit among the five that leave the register adds to it. -/
def generators : List (BitVec 30) := [0x3b6a57b2, 0x26508e6d, 0x1ea119fa, 0x3d4233dd, 0x2a1462b3]

/-- Takes one symbol into the 30-bit register. -/
def step (register : BitVec 30) (symbol : Symbol) : BitVec 30 :=
  let next := (register <<< 5) ^^^ symbol.setWidth 30
  (generators.zipIdx.foldl
    (fun acc g => if register.getLsbD (25 + g.2) then acc ^^^ g.1 else acc) next)

/-- The register after a list of symbols. -/
def register (symbols : List Symbol) : BitVec 30 := symbols.foldl step 1

/-- The symbols by which a human-readable part enters the checksum. -/
def expand (part : HumanPart) : List Symbol :=
  part.lower.map (fun c => BitVec.ofNat 5 (c.toNat / 32)) ++ [0]
    ++ part.lower.map (fun c => BitVec.ofNat 5 (c.toNat % 32))

/-- The constant of the checksum that is written. -/
def residue : BitVec 30 := 1

/-- The constant of the other checksum. -/
def modifiedResidue : BitVec 30 := 0x2bc830a3

/-- The six symbols that bring the register to `residue`. -/
def checksum (part : HumanPart) (data : List Symbol) : List Symbol :=
  let final := register (expand part ++ data ++ List.replicate 6 0) ^^^ residue
  [25, 20, 15, 10, 5, 0].map fun shift => (final >>> shift).setWidth 5

/-- Whether the symbols behind a human-readable part end in one of the two checksums. -/
def hasChecksum (part : HumanPart) (symbols : List Symbol) : Bool :=
  let final := register (expand part ++ symbols)
  final == residue || final == modifiedResidue

/-! ## Bytes in groups of five bits -/

/-- The bits of a byte, highest first. -/
def byteBits (byte : UInt8) : List Bool := (List.range 8).map fun i => byte.toNat.testBit (7 - i)

def symbolBits (symbol : Symbol) : List Bool := (List.range 5).map fun i => symbol.getLsbD (4 - i)

/-- The number spelled by bits, highest first. -/
def bitsToNat (bits : List Bool) : Nat := bits.foldl (fun acc bit => 2 * acc + bit.toNat) 0

/-- The symbols that spell bytes, the last one filled up with zero bits. -/
def symbolsOfBytes (bytes : Bytes) : List Symbol :=
  (Bytes.chunks 5 (bytes.flatMap byteBits)).map fun bits =>
    BitVec.ofNat 5 (bitsToNat (bits ++ List.replicate (5 - bits.length) false))

/-- The bytes that symbols spell; bits that do not fill a byte are dropped. -/
def bytesOfSymbols (symbols : List Symbol) : Bytes :=
  ((Bytes.chunks 8 (symbols.flatMap symbolBits)).filter (·.length == 8)).map fun bits =>
    UInt8.ofNat (bitsToNat bits)

/-! ## Texts -/

/-- Why a text is not bech32. -/
inductive Error where
  /-- Its characters do not have the form. -/
  | form
  /-- It ends in neither checksum. -/
  | checksum
deriving DecidableEq, Repr

def Error.message : Error → String
  | .form => "parsing failed"
  | .checksum => "no valid bech32 or bech32m checksum"

/-- The most characters that a checksum is good for. -/
def maxLength : Nat := 1023

/-- The text for bytes behind a human-readable part, in lower case. -/
def encode (part : HumanPart) (bytes : Bytes) : String :=
  let data := symbolsOfBytes bytes
  String.ofList (part.lower ++ ['1'] ++ (data ++ checksum part data).map char)

/-- The text for bytes behind a human-readable part, unless it is too long for its checksum. -/
def encode? (part : HumanPart) (bytes : Bytes) : Option String :=
  if maxLength < part.chars.length + 7 + (symbolsOfBytes bytes).length then none
  else some (encode part bytes)

/-- Splits a text at its last separator. -/
def splitLast? (chars : List Char) : Option (List Char × List Char) :=
  let tail := chars.reverse.takeWhile (· ≠ '1')
  match chars.reverse.dropWhile (· ≠ '1') with
  | [] => none
  | _ :: head => some (head.reverse, tail.reverse)

/-- The human-readable part and the symbols of a text. -/
def parts? (text : String) : Option (HumanPart × List Symbol) := do
  let chars := text.toList
  let (head, tail) ← splitLast? chars
  let symbols ← tail.mapM symbol?
  if isMixedCase chars then none
  else
    let part ← HumanPart.ofChars? head
    return (part, symbols)

def decode (text : String) : Except Error (HumanPart × Bytes) :=
  match parts? text with
  | none => .error .form
  | some (part, symbols) =>
    if symbols.length < 6 ∨ maxLength < part.chars.length + 1 + symbols.length
        ∨ !hasChecksum part symbols then .error .checksum
    else .ok (part, bytesOfSymbols (symbols.take (symbols.length - 6)))

end TokenApproval.Bech32
