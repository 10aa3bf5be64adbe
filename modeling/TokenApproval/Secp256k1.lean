import TokenApproval.Bytes
import TokenApproval.Hash.Sha256

/-!
# Signatures on the curve secp256k1

The arithmetic of the curve, its keys, and signatures with and without a recovery identifier.
-/

/-! ## Arithmetic modulo a number

Numbers below a modulus, with powers by repeated squaring. For a prime modulus `inverse` is the
multiplicative inverse, and for one of the form `4 k + 3` `squareRoot` is a root of every square;
both are powers. -/

namespace TokenApproval.Secp256k1

def subMod (m a b : Nat) : Nat := (a + (m - b % m)) % m

def mulMod (m a b : Nat) : Nat := a * b % m

/-- The power `base ^ exponent` modulo `m`, for an exponent of at most `bits` bits. -/
def powMod (m base : Nat) : (bits : Nat) → (exponent : Nat) → Nat
  | 0, _ => 1 % m
  | bits + 1, exponent =>
    let root := powMod m base bits (exponent / 2)
    let square := mulMod m root root
    if exponent % 2 = 1 then mulMod m square base else square

/-- The inverse of a number modulo a prime below `2 ^ 256`; zero for a multiple of the prime. -/
def inverse (m a : Nat) : Nat := powMod m a 256 (m - 2)

/-- A square root modulo a prime `m = 4 k + 3` below `2 ^ 256`, of a number that has one. -/
def squareRoot (m a : Nat) : Nat := powMod m a 256 ((m + 1) / 4)

/-! ## Points of the curve secp256k1

The curve is `y² = x³ + 7` over the field of `fieldOrder` elements. A point is computed with in
Jacobian coordinates, where `(x, y, z)` stands for the affine point `(x / z², y / z³)` and `z = 0`
for the point at infinity, so that sums need no division. -/

/-- The number of elements of the field of coordinates. -/
def fieldOrder : Nat := 0xFFFFFFFFFFFFFFFFFFFFFFFFFFFFFFFFFFFFFFFFFFFFFFFFFFFFFFFEFFFFFC2F

/-- The number of points of the curve. -/
def groupOrder : Nat := 0xFFFFFFFFFFFFFFFFFFFFFFFFFFFFFFFEBAAEDCE6AF48A03BBFD25E8CD0364141

def onCurve (x y : Nat) : Bool :=
  mulMod fieldOrder y y == (mulMod fieldOrder (mulMod fieldOrder x x) x + 7) % fieldOrder

/-- The ordinate of the given parity above an abscissa, if the curve has a point there. -/
def lift? (x : Nat) (odd : Bool) : Option Nat :=
  let root := squareRoot fieldOrder ((mulMod fieldOrder (mulMod fieldOrder x x) x + 7) % fieldOrder)
  if onCurve x root then
    some (if (root % 2 == 1) == odd then root else fieldOrder - root)
  else none

/-- A point in Jacobian coordinates, each below `fieldOrder`. -/
structure Point where
  x : Nat
  y : Nat
  z : Nat
deriving DecidableEq

namespace Point

/-- The point at infinity, the zero of addition. -/
def infinity : Point := ⟨1, 1, 0⟩

def ofAffine (x y : Nat) : Point := ⟨x, y, 1⟩

def generator : Point :=
  ofAffine 0x79BE667EF9DCBBAC55A06295CE870B07029BFCDB2DCE28D959F2815B16F81798
    0x483ADA7726A3C4655DA4FBFC0E1108A8FD17B448A68554199C47D08FFB10D4B8

def isInfinity (point : Point) : Bool := point.z == 0

/-- The affine coordinates; the point at infinity, which has none, gives the origin. -/
def affine (point : Point) : Nat × Nat :=
  let i := inverse fieldOrder point.z
  let i2 := mulMod fieldOrder i i
  (mulMod fieldOrder point.x i2, mulMod fieldOrder point.y (mulMod fieldOrder i2 i))

def double (point : Point) : Point :=
  let y2 := mulMod fieldOrder point.y point.y
  let s := mulMod fieldOrder 4 (mulMod fieldOrder point.x y2)
  let m := mulMod fieldOrder 3 (mulMod fieldOrder point.x point.x)
  let x := subMod fieldOrder (mulMod fieldOrder m m) (2 * s)
  let y := subMod fieldOrder (mulMod fieldOrder m (subMod fieldOrder s x))
    (mulMod fieldOrder 8 (mulMod fieldOrder y2 y2))
  ⟨x, y, mulMod fieldOrder 2 (mulMod fieldOrder point.y point.z)⟩

def add (p q : Point) : Point :=
  if p.isInfinity then q
  else if q.isInfinity then p
  else
    let pz2 := mulMod fieldOrder p.z p.z
    let qz2 := mulMod fieldOrder q.z q.z
    let u1 := mulMod fieldOrder p.x qz2
    let u2 := mulMod fieldOrder q.x pz2
    let s1 := mulMod fieldOrder p.y (mulMod fieldOrder qz2 q.z)
    let s2 := mulMod fieldOrder q.y (mulMod fieldOrder pz2 p.z)
    if u1 = u2 then
      if s1 = s2 then double p else infinity
    else
      let h := subMod fieldOrder u2 u1
      let r := subMod fieldOrder s2 s1
      let h2 := mulMod fieldOrder h h
      let h3 := mulMod fieldOrder h2 h
      let v := mulMod fieldOrder u1 h2
      let x := subMod fieldOrder (mulMod fieldOrder r r) (h3 + 2 * v)
      let y := subMod fieldOrder (mulMod fieldOrder r (subMod fieldOrder v x))
        (mulMod fieldOrder s1 h3)
      ⟨x, y, mulMod fieldOrder h (mulMod fieldOrder p.z q.z)⟩

/-- The multiple of a point by a number of at most `bits` bits. -/
def multiply (point : Point) : (bits : Nat) → (factor : Nat) → Point
  | 0, _ => infinity
  | bits + 1, factor =>
    let even := double (multiply point bits (factor / 2))
    if factor % 2 = 1 then add even point else even

/-- The multiple of a point by a number below `2 ^ 256`. -/
def scale (factor : Nat) (point : Point) : Point := multiply point 256 factor

end Point

end TokenApproval.Secp256k1

/-! ## Secret and public keys

A secret key is a positive number below the order of the group, read from 32 bytes. A public key is
a point of the curve other than infinity. It is read from the compressed form (a tag with the
ordinate's parity, then the abscissa), the full form, and the hybrid form, whose tag also repeats
the parity; it is written in the first two. -/

namespace TokenApproval.Secp256k1

structure SecretKey where
  scalar : Nat
  scalar_pos : 0 < scalar
  scalar_lt : scalar < groupOrder
deriving DecidableEq

def SecretKey.ofBytes? (bytes : Bytes) : Option SecretKey :=
  if bytes.length = 32 then
    if h : 0 < bytes.toNat ∧ bytes.toNat < groupOrder then some ⟨bytes.toNat, h.1, h.2⟩ else none
  else none

def SecretKey.bytes (key : SecretKey) : Bytes := Bytes.ofNat 32 key.scalar

/-- The affine coordinates of a public key. -/
structure PublicKey where
  x : Nat
  y : Nat
deriving DecidableEq

namespace PublicKey

def compressedLength : Nat := 33

def uncompressedLength : Nat := 65

def ofSecret (key : SecretKey) : PublicKey :=
  let (x, y) := (Point.scale key.scalar Point.generator).affine
  ⟨x, y⟩

/-- The key as a point to compute with. -/
def point (key : PublicKey) : Point := Point.ofAffine key.x key.y

def compressed (key : PublicKey) : Bytes :=
  (if key.y % 2 = 1 then 3 else 2) :: Bytes.ofNat 32 key.x

def uncompressed (key : PublicKey) : Bytes :=
  4 :: (Bytes.ofNat 32 key.x ++ Bytes.ofNat 32 key.y)

/-- Reads the abscissa of a compressed key. -/
def ofCompressed? (odd : Bool) (body : Bytes) : Option PublicKey :=
  let x := body.toNat
  if x < fieldOrder then (lift? x odd).map (⟨x, ·⟩) else none

/-- Reads the coordinates of a full key. -/
def ofCoordinates? (body : Bytes) : Option PublicKey :=
  let x := Bytes.toNat (body.take 32)
  let y := Bytes.toNat (body.drop 32)
  if x < fieldOrder ∧ y < fieldOrder ∧ onCurve x y then some ⟨x, y⟩ else none

/-- The public key that a byte string spells, in any of the three forms. -/
def ofBytes? : Bytes → Option PublicKey
  | [] => none
  | tag :: body =>
    if body.length = 32 then
      if tag = 2 then ofCompressed? false body
      else if tag = 3 then ofCompressed? true body
      else none
    else if body.length = 64 then
      if tag = 4 then ofCoordinates? body
      else if tag = 6 then (ofCoordinates? body).filter (·.y % 2 == 0)
      else if tag = 7 then (ofCoordinates? body).filter (·.y % 2 == 1)
      else none
    else none

end PublicKey

/-! ## Compact signatures

A compact signature is two numbers `r` and `s` below the order of the group, 32 bytes each. For
every signature there is a second one with `s` negated; the one in the lower half is the normal
form. `verify` is the verification equation of ECDSA. -/

/-- A pair of numbers below the order of the group. -/
structure Signature where
  r : Nat
  s : Nat
  r_lt : r < groupOrder
  s_lt : s < groupOrder

instance : DecidableEq Signature := fun a b =>
  decidable_of_iff (a.r = b.r ∧ a.s = b.s)
    ⟨fun h => by cases a; cases b; simp_all, fun h => by simp [h]⟩

namespace Signature

def compactLength : Nat := 64

def ofBytes? (bytes : Bytes) : Option Signature :=
  if bytes.length = compactLength then
    let r := Bytes.toNat (bytes.take 32)
    let s := Bytes.toNat (bytes.drop 32)
    if h : r < groupOrder ∧ s < groupOrder then some ⟨r, s, h.1, h.2⟩ else none
  else none

def bytes (signature : Signature) : Bytes :=
  Bytes.ofNat 32 signature.r ++ Bytes.ofNat 32 signature.s

/-- Whether `s` lies in the upper half. -/
def isHigh (signature : Signature) : Bool := groupOrder / 2 < signature.s

/-- The number that a digest stands for in the signature equations. -/
def scalarOf (digest : Octets 32) : Nat := digest.toNat % groupOrder

/-- Whether the signature is one of the digest by the key's owner. -/
def verify (key : PublicKey) (digest : Octets 32) (signature : Signature) : Bool :=
  if signature.r = 0 ∨ signature.s = 0 then false
  else
    let w := inverse groupOrder signature.s
    let u1 := mulMod groupOrder (scalarOf digest) w
    let u2 := mulMod groupOrder signature.r w
    let point := Point.add (Point.scale u1 Point.generator) (Point.scale u2 key.point)
    if point.isInfinity then false else point.affine.1 % groupOrder == signature.r

end Signature

/-! ## Deterministic nonces

The nonces of a signature are drawn from a keyed-hash generator seeded with the secret key and the
digest, the digest reduced by the order of the group. So digests that stand for the same number have
the same nonces, and with them the same signature. -/

/-- The state of the generator. -/
structure NonceSource where
  key : Octets 32
  value : Octets 32

namespace NonceSource

/-- Replaces the key by a hash of the value, a separator and more bytes, then the value. -/
def stir (separator : UInt8) (more : Bytes) (source : NonceSource) : NonceSource :=
  let key := hmacSha256 source.key.bytes (source.value.bytes ++ [separator] ++ more)
  ⟨key, hmacSha256 key.bytes source.value.bytes⟩

/-- The generator for a secret key and a digest. -/
def seeded (secret : SecretKey) (digest : Octets 32) : NonceSource :=
  let seed := secret.bytes ++ Bytes.ofNat 32 (Signature.scalarOf digest)
  stir 1 seed (stir 0 seed ⟨Octets.zero 32, ⟨List.replicate 32 1, by simp⟩⟩)

/-- The generator with its next value. -/
def next (source : NonceSource) : NonceSource :=
  ⟨source.key, hmacSha256 source.key.bytes source.value.bytes⟩

/-- The first answer that `use` has for one of the next `count` values. -/
def first? {α : Type} (use : Nat → Option α) : (count : Nat) → NonceSource → Option α
  | 0, _ => none
  | count + 1, source =>
    let drawn := next source
    match use drawn.value.toNat with
    | some answer => some answer
    | none => first? use count (stir 0 [] drawn)

end NonceSource

/-! ## Signatures that name their signer

A recoverable signature carries, beside `r` and `s`, which of the four points with that `r` the
nonce gave. From it and the digest the signer's public key can be computed. -/

/-- A signature with the identifier, from 0 to 3, of its nonce point. -/
structure RecoverableSignature where
  signature : Signature
  recovery : Nat
deriving DecidableEq

namespace RecoverableSignature

/-- The identifier of a nonce point: its ordinate's parity, and whether its abscissa was reduced. -/
def recoveryOf (x y : Nat) : Nat := (if groupOrder ≤ x then 2 else 0) + y % 2

/-- The signature that one nonce gives, in normal form; some nonces give none. -/
def signWith? (secret : SecretKey) (digest : Octets 32) (nonce : Nat) :
    Option RecoverableSignature :=
  if nonce = 0 ∨ groupOrder ≤ nonce then none
  else
    let (x, y) := (Point.scale nonce Point.generator).affine
    let r := x % groupOrder
    let s := mulMod groupOrder (inverse groupOrder nonce)
      (Signature.scalarOf digest + r * secret.scalar)
    if h : 0 < r ∧ 0 < s ∧ r < groupOrder ∧ s < groupOrder then
      if groupOrder / 2 < s then
        some ⟨⟨r, groupOrder - s, h.2.2.1, Nat.sub_lt (Nat.lt_trans h.2.1 h.2.2.2) h.2.1⟩,
          recoveryOf x (y + 1)⟩
      else some ⟨⟨r, s, h.2.2.1, h.2.2.2⟩, recoveryOf x y⟩
    else none

/-- How many nonces are drawn before signing is given up; one is enough but for a chance of one in
`2 ^ 127`. -/
def attempts : Nat := 64

/-- Signs a digest with the first of the deterministic nonces that gives a signature. -/
def sign? (secret : SecretKey) (digest : Octets 32) : Option RecoverableSignature :=
  (NonceSource.seeded secret digest).first? (signWith? secret digest) attempts

/-- The public key of the signer of a digest. -/
def recover? (digest : Octets 32) (input : RecoverableSignature) : Option PublicKey :=
  let r := input.signature.r
  let s := input.signature.s
  let x := if input.recovery / 2 % 2 = 1 then r + groupOrder else r
  if r = 0 ∨ s = 0 ∨ fieldOrder ≤ x then none
  else
    match lift? x (input.recovery % 2 == 1) with
    | none => none
    | some y =>
      let w := inverse groupOrder r
      let u1 := mulMod groupOrder (subMod groupOrder 0 (Signature.scalarOf digest)) w
      let u2 := mulMod groupOrder s w
      let point := Point.add (Point.scale u1 Point.generator) (Point.scale u2 (Point.ofAffine x y))
      if point.isInfinity then none
      else
        let (kx, ky) := point.affine
        some ⟨kx, ky⟩

end RecoverableSignature

end TokenApproval.Secp256k1
