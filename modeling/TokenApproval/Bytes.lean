/-!
# Byte strings

`Bytes` is a list of bytes, the form in which leaves, payloads, keys and JSON texts are read and
written. `Octets n` is a byte string of exactly `n` bytes. The big-endian reading `Bytes.toNat` and
writing `Bytes.ofNat` of natural numbers undo each other on numbers that fit.
-/

namespace TokenApproval

/-- A byte string of any length. -/
abbrev Bytes := List UInt8

namespace Bytes

/-- The number that `bytes` spells in base 256, most significant byte first. -/
def toNat (bytes : Bytes) : Nat :=
  bytes.foldl (fun acc b => acc * 256 + b.toNat) 0

/-- The last `width` base-256 digits of `n`, most significant first. -/
def ofNat : (width : Nat) → (n : Nat) → Bytes
  | 0, _ => []
  | width + 1, n => ofNat width (n / 256) ++ [UInt8.ofNat (n % 256)]

@[simp] theorem length_ofNat (width n : Nat) : (ofNat width n).length = width := by
  induction width generalizing n with
  | zero => rfl
  | succ width ih => simp [ofNat, ih]

theorem toNat_append_singleton (bytes : Bytes) (b : UInt8) :
    toNat (bytes ++ [b]) = toNat bytes * 256 + b.toNat := by
  simp [toNat, List.foldl_append]

/-- Writing a number that fits in `width` bytes and reading it back gives the number. -/
theorem toNat_ofNat {width n : Nat} (h : n < Nat.pow 256 width) :
    toNat (ofNat width n) = n := by
  induction width generalizing n with
  | zero =>
    have hn : n = 0 := Nat.lt_one_iff.mp h
    subst hn
    rfl
  | succ width ih =>
    have hdiv : n / 256 < Nat.pow 256 width :=
      Nat.div_lt_of_lt_mul (by rw [Nat.mul_comm]; exact h)
    rw [ofNat, toNat_append_singleton, ih hdiv]
    have hmod : (UInt8.ofNat (n % 256)).toNat = n % 256 := by
      simp [UInt8.toNat_ofNat']
    rw [hmod]
    omega

/-- Numbers that fit in `width` bytes are written differently. -/
theorem ofNat_inj {width m n : Nat} (hm : m < Nat.pow 256 width) (hn : n < Nat.pow 256 width) :
    ofNat width m = ofNat width n ↔ m = n := by
  constructor
  · intro h
    rw [← toNat_ofNat hm, h, toNat_ofNat hn]
  · rintro rfl
    rfl

/-- Cuts a list into pieces of `size` elements, the last one possibly shorter; at most `count`
pieces are cut. -/
def cut {α : Type} (size : Nat) : (count : Nat) → List α → List (List α)
  | 0, _ => []
  | _, [] => []
  | count + 1, list => list.take size :: cut size count (list.drop size)

/-- Cuts a list into pieces of `size` elements, the last one possibly shorter. -/
def chunks {α : Type} (size : Nat) (list : List α) : List (List α) :=
  cut size list.length list

def zeros (width : Nat) : Bytes := List.replicate width 0

end Bytes

/-- A byte string of exactly `n` bytes. -/
structure Octets (n : Nat) where
  bytes : Bytes
  length_bytes : bytes.length = n
deriving DecidableEq

namespace Octets

def ofBytes? {n : Nat} (bytes : Bytes) : Option (Octets n) :=
  if h : bytes.length = n then some ⟨bytes, h⟩ else none

def ofNat (n value : Nat) : Octets n := ⟨Bytes.ofNat n value, Bytes.length_ofNat n value⟩

def zero (n : Nat) : Octets n := ⟨Bytes.zeros n, by simp [Bytes.zeros]⟩

def toNat {n : Nat} (o : Octets n) : Nat := o.bytes.toNat

@[ext] theorem ext {n : Nat} {a b : Octets n} (h : a.bytes = b.bytes) : a = b := by
  cases a; cases b; simp_all

theorem ofBytes?_eq_some {n : Nat} {bytes : Bytes} {o : Octets n} :
    ofBytes? bytes = some o ↔ bytes = o.bytes := by
  constructor
  · intro h
    rw [ofBytes?] at h
    split at h
    · injection h with h; subst h; rfl
    · simp at h
  · rintro rfl
    rw [ofBytes?, dif_pos o.length_bytes]

end Octets

end TokenApproval
