import TokenApproval.Bytes
import TokenApproval.Hash.Ripemd160
import TokenApproval.Hash.Sha256
import TokenApproval.Text

/-!
# Hashes

Keccak-256, and the hashes that are composed of simpler ones.
-/

/-! ## Keccak-256

The sponge with a rate of 136 bytes over the 24-round permutation of 25 lanes, with the padding
`1 0* 1` on bits and no domain bits, giving 32 bytes. A lane is a 64-bit word, read and written with
its least significant byte first; lane `x + 5 * y` stands in column `x` and row `y`. -/

namespace TokenApproval.Keccak

/-- The 25 lanes of the sponge. -/
abbrev State := Array UInt64

/-- The lane at a position, zero outside the state. -/
def lane (s : State) (i : Nat) : UInt64 := s.getD i 0

/-- Turns a lane to the left by `n < 64` bits. -/
def rotate (x : UInt64) (n : UInt64) : UInt64 :=
  if n = 0 then x else (x <<< n) ||| (x >>> (64 - n))

/-- The words that break the symmetry of the rounds. -/
def roundConstants : List UInt64 :=
  [0x0000000000000001, 0x0000000000008082, 0x800000000000808A, 0x8000000080008000,
   0x000000000000808B, 0x0000000080000001, 0x8000000080008081, 0x8000000000008009,
   0x000000000000008A, 0x0000000000000088, 0x0000000080008009, 0x000000008000000A,
   0x000000008000808B, 0x800000000000008B, 0x8000000000008089, 0x8000000000008003,
   0x8000000000008002, 0x8000000000000080, 0x000000000000800A, 0x800000008000000A,
   0x8000000080008081, 0x8000000000008080, 0x0000000080000001, 0x8000000080008008]

/-- For each lane after the shuffle: the lane it comes from and by how many bits that lane turns. -/
def shuffle : List (Nat × UInt64) :=
  [(0, 0), (6, 44), (12, 43), (18, 21), (24, 14),
   (3, 28), (9, 20), (10, 3), (16, 45), (22, 61),
   (1, 1), (7, 6), (13, 25), (19, 8), (20, 18),
   (4, 27), (5, 36), (11, 10), (17, 15), (23, 56),
   (2, 62), (8, 55), (14, 39), (15, 41), (21, 2)]

def columnParity (s : State) (x : Nat) : UInt64 :=
  lane s x ^^^ lane s (x + 5) ^^^ lane s (x + 10) ^^^ lane s (x + 15) ^^^ lane s (x + 20)

/-- Adds to every lane the parities of the two columns beside its own. -/
def mixColumns (s : State) : State :=
  let parity : State := (Array.range 5).map (columnParity s)
  let change : State := (Array.range 5).map fun x =>
    lane parity ((x + 4) % 5) ^^^ rotate (lane parity ((x + 1) % 5)) 1
  (Array.range 25).map fun i => lane s i ^^^ lane change (i % 5)

/-- Turns the lanes and moves them to their new places. -/
def shuffleLanes (s : State) : State :=
  (shuffle.map fun move => rotate (lane s move.1) move.2).toArray

/-- Combines every lane with the two that follow it in its row. -/
def mixRows (s : State) : State :=
  (Array.range 25).map fun i =>
    let row := i / 5 * 5
    lane s i ^^^ (~~~lane s (row + (i + 1) % 5) &&& lane s (row + (i + 2) % 5))

def round (s : State) (constant : UInt64) : State :=
  let mixed := mixRows (shuffleLanes (mixColumns s))
  mixed.setIfInBounds 0 (lane mixed 0 ^^^ constant)

def permute (s : State) : State := roundConstants.foldl round s

/-- The number of message bytes that each application of the permutation takes in. -/
def rate : Nat := 136

/-- Fills a message up to a whole number of blocks. -/
def pad (message : Bytes) : Bytes :=
  let gap := rate - message.length % rate
  message ++ (if gap = 1 then [0x81] else [0x01] ++ Bytes.zeros (gap - 2) ++ [0x80])

def laneOfBytes (bytes : Bytes) : UInt64 :=
  bytes.foldr (fun b acc => (acc <<< 8) ||| b.toUInt64) 0

/-- Takes one block into the state. -/
def absorb (s : State) (block : Bytes) : State :=
  let words : State := ((Bytes.chunks 8 block).map laneOfBytes).toArray
  permute ((Array.range 25).map fun i => lane s i ^^^ lane words i)

def laneBytes (x : UInt64) : Bytes :=
  [x.toUInt8, (x >>> 8).toUInt8, (x >>> 16).toUInt8, (x >>> 24).toUInt8,
   (x >>> 32).toUInt8, (x >>> 40).toUInt8, (x >>> 48).toUInt8, (x >>> 56).toUInt8]

/-- The state after the whole message. -/
def sponge (message : Bytes) : State :=
  (Bytes.chunks rate (pad message)).foldl absorb (Array.replicate 25 0)

/-- The first 32 bytes of a state. -/
def squeeze (s : State) : Octets 32 :=
  ⟨laneBytes (lane s 0) ++ laneBytes (lane s 1) ++ laneBytes (lane s 2) ++ laneBytes (lane s 3),
    rfl⟩

end TokenApproval.Keccak

namespace TokenApproval

def keccak256 (message : Bytes) : Octets 32 := Keccak.squeeze (Keccak.sponge message)

end TokenApproval

/-! ## Composed hashes

`hash160` shortens a key to an account identifier. `personalMessage` is what a wallet hashes when it
signs a message on its owner's behalf: a fixed lead, the message's length in decimal, and the
message. -/

namespace TokenApproval

/-- RIPEMD-160 over SHA-256. -/
def hash160 (data : Bytes) : Octets 20 := ripemd160 (sha256 data).bytes

/-- The bytes that stand before every personally signed message. -/
def personalMessageLead : Bytes := 0x19 :: Text.bytes "Ethereum Signed Message:\n"

/-- A message behind the lead and its own length in decimal. -/
def personalMessage (message : Bytes) : Bytes :=
  personalMessageLead ++ Text.bytes (toString message.length) ++ message

/-- The hash that a wallet signs for a personal message. -/
def personalMessageHash (message : Bytes) : Octets 32 := keccak256 (personalMessage message)

end TokenApproval
