import TokenApproval.Bytes

/-!
# RIPEMD-160

Two lines of 80 rounds over 64-byte blocks of little-endian words, giving 20 bytes.
-/

namespace TokenApproval.Ripemd160

/-- Turns a word to the left by `0 < n < 32` bits. -/
def rotate (x n : UInt32) : UInt32 := (x <<< n) ||| (x >>> (32 - n))

/-- The five words that the blocks are chained through. -/
structure State where
  a : UInt32
  b : UInt32
  c : UInt32
  d : UInt32
  e : UInt32

/-- The chaining words before the first block. -/
def initial : State := ⟨0x67452301, 0xefcdab89, 0x98badcfe, 0x10325476, 0xc3d2e1f0⟩

/-- One of the five ways to combine three words. -/
def combine (kind : Nat) (x y z : UInt32) : UInt32 :=
  match kind with
  | 0 => x ^^^ y ^^^ z
  | 1 => (x &&& y) ||| (~~~x &&& z)
  | 2 => (x ||| ~~~y) ^^^ z
  | 3 => (x &&& z) ||| (y &&& ~~~z)
  | _ => x ^^^ (y ||| ~~~z)

/-- The words of a block in the order in which the left line takes them. -/
def leftOrder : List Nat :=
  [0, 1, 2, 3, 4, 5, 6, 7, 8, 9, 10, 11, 12, 13, 14, 15,
   7, 4, 13, 1, 10, 6, 15, 3, 12, 0, 9, 5, 2, 14, 11, 8,
   3, 10, 14, 4, 9, 15, 8, 1, 2, 7, 0, 6, 13, 11, 5, 12,
   1, 9, 11, 10, 0, 8, 12, 4, 13, 3, 7, 15, 14, 5, 6, 2,
   4, 0, 5, 9, 7, 12, 2, 10, 14, 1, 3, 8, 11, 6, 15, 13]

def rightOrder : List Nat :=
  [5, 14, 7, 0, 9, 2, 11, 4, 13, 6, 15, 8, 1, 10, 3, 12,
   6, 11, 3, 7, 0, 13, 5, 10, 14, 15, 8, 12, 4, 9, 1, 2,
   15, 5, 1, 3, 7, 14, 6, 9, 11, 8, 12, 2, 10, 0, 4, 13,
   8, 6, 4, 1, 3, 11, 15, 0, 5, 12, 2, 13, 9, 7, 10, 14,
   12, 15, 10, 4, 1, 5, 8, 7, 6, 2, 13, 14, 0, 3, 9, 11]

/-- The turns of the left line's rounds. -/
def leftTurns : List UInt32 :=
  [11, 14, 15, 12, 5, 8, 7, 9, 11, 13, 14, 15, 6, 7, 9, 8,
   7, 6, 8, 13, 11, 9, 7, 15, 7, 12, 15, 9, 11, 7, 13, 12,
   11, 13, 6, 7, 14, 9, 13, 15, 14, 8, 13, 6, 5, 12, 7, 5,
   11, 12, 14, 15, 14, 15, 9, 8, 9, 14, 5, 6, 8, 6, 5, 12,
   9, 15, 5, 11, 6, 8, 13, 12, 5, 12, 13, 14, 11, 8, 5, 6]

def rightTurns : List UInt32 :=
  [8, 9, 9, 11, 13, 15, 15, 5, 7, 7, 8, 11, 14, 14, 12, 6,
   9, 13, 15, 7, 12, 8, 9, 11, 7, 7, 12, 7, 6, 15, 13, 11,
   9, 7, 15, 11, 8, 6, 6, 14, 12, 13, 5, 14, 13, 13, 7, 5,
   15, 5, 8, 11, 14, 14, 6, 14, 6, 9, 12, 9, 12, 5, 15, 8,
   8, 5, 12, 9, 12, 5, 14, 6, 8, 13, 6, 5, 15, 13, 11, 11]

/-- The constants of the left line, one for every sixteen rounds. -/
def leftConstants : List UInt32 := [0x00000000, 0x5a827999, 0x6ed9eba1, 0x8f1bbcdc, 0xa953fd4e]

def rightConstants : List UInt32 := [0x50a28be6, 0x5c4dd124, 0x6d703ef3, 0x7a6d76e9, 0x00000000]

/-- One round: which combination, the word with its constant, and the turn. -/
def round (s : State) (kind : Nat) (word turn : UInt32) : State :=
  ⟨s.e, rotate (s.a + combine kind s.b s.c s.d + word) turn + s.e, s.b, rotate s.c 10, s.d⟩

/-- The 80 rounds of a line. `kindOf` gives the combination for each group of sixteen. -/
def line (kindOf : Nat → Nat) (constants : List UInt32) (order : List Nat) (turns : List UInt32)
    (words : Array UInt32) (s : State) : State :=
  ((order.zip turns).zipIdx).foldl (fun s step =>
    let group := step.2 / 16
    round s (kindOf group) (words.getD step.1.1 0 + constants.getD group 0) step.1.2) s

/-- The word spelled by four bytes, least significant first. -/
def wordOfBytes (bytes : Bytes) : UInt32 :=
  bytes.foldr (fun b acc => (acc <<< 8) ||| b.toUInt32) 0

def wordBytes (x : UInt32) : Bytes :=
  [x.toUInt8, (x >>> 8).toUInt8, (x >>> 16).toUInt8, (x >>> 24).toUInt8]

/-- Chains one block. -/
def compress (s : State) (block : Bytes) : State :=
  let words := ((Bytes.chunks 4 block).map wordOfBytes).toArray
  let l := line (fun group => group) leftConstants leftOrder leftTurns words s
  let r := line (fun group => 4 - group) rightConstants rightOrder rightTurns words s
  ⟨s.b + l.c + r.d, s.c + l.d + r.e, s.d + l.e + r.a, s.e + l.a + r.b, s.a + l.b + r.c⟩

/-- Fills a message up to a whole number of blocks: a one bit, zeros, and its length in bits. -/
def pad (message : Bytes) : Bytes :=
  let gap := (119 - message.length % 64) % 64
  message ++ [0x80] ++ Bytes.zeros gap ++ (Bytes.ofNat 8 (message.length * 8)).reverse

/-- The bytes of the chaining words. -/
def finish (s : State) : Octets 20 :=
  ⟨wordBytes s.a ++ wordBytes s.b ++ wordBytes s.c ++ wordBytes s.d ++ wordBytes s.e, rfl⟩

end TokenApproval.Ripemd160

namespace TokenApproval

def ripemd160 (message : Bytes) : Octets 20 :=
  Ripemd160.finish
    ((Bytes.chunks 64 (Ripemd160.pad message)).foldl Ripemd160.compress Ripemd160.initial)

end TokenApproval
