import Mathlib.Data.List.Prime
import Mathlib.FieldTheory.Finite.Basic
import Mathlib.NumberTheory.LucasPrimality
import Mathlib.Tactic.NormNum.Prime
import TokenApproval.Secp256k1

/-!
# Arithmetic modulo a prime

Taken modulo `m`, the operations on numbers are those of the ring `ZMod m`, and over a prime, where
this is a field, `inverse` and `squareRoot` are what they are called.
-/

namespace TokenApproval.Secp256k1

variable {m : ℕ}

/-! ## Operations of the ring -/

theorem mulMod_lt (hm : 0 < m) (a b : ℕ) : mulMod m a b < m := Nat.mod_lt _ hm

theorem cast_mulMod (a b : ℕ) : (mulMod m a b : ZMod m) = a * b := by
  rw [mulMod, ZMod.natCast_mod, Nat.cast_mul]

theorem cast_subMod (hm : 0 < m) (a b : ℕ) : (subMod m a b : ZMod m) = a - b := by
  rw [subMod, ZMod.natCast_mod, Nat.cast_add, Nat.cast_sub (Nat.mod_lt b hm).le, ZMod.natCast_self,
    ZMod.natCast_mod, zero_sub, sub_eq_add_neg]

/-- Squaring and multiplying, bit by bit, gives a power. -/
theorem powMod_eq (m base : ℕ) {bits exponent : ℕ} (h : exponent < 2 ^ bits) :
    powMod m base bits exponent = base ^ exponent % m := by
  induction bits generalizing exponent with
  | zero =>
    obtain rfl : exponent = 0 := Nat.lt_one_iff.mp h
    rfl
  | succ bits ih =>
    have hhalf : exponent / 2 < 2 ^ bits := Nat.div_lt_of_lt_mul (by rwa [pow_succ'] at h)
    have hsquare : mulMod m (powMod m base bits (exponent / 2)) (powMod m base bits (exponent / 2))
        = base ^ (2 * (exponent / 2)) % m := by
      rw [ih hhalf, mulMod, ← Nat.mul_mod, ← pow_add, two_mul]
    have hexponent := Nat.div_add_mod exponent 2
    rw [powMod]
    simp only [hsquare]
    split
    · next hodd =>
      rw [hodd] at hexponent
      rw [mulMod, Nat.mod_mul_mod, ← pow_succ, hexponent]
    · next heven =>
      rw [Nat.mod_two_ne_one.mp heven, add_zero] at hexponent
      rw [hexponent]

theorem cast_powMod (base : ℕ) {bits exponent : ℕ} (h : exponent < 2 ^ bits) :
    (powMod m base bits exponent : ZMod m) = (base : ZMod m) ^ exponent := by
  rw [powMod_eq m base h, ZMod.natCast_mod, Nat.cast_pow]

theorem powMod_lt (hm : 0 < m) (base bits exponent : ℕ) : powMod m base bits exponent < m := by
  cases bits with
  | zero => exact Nat.mod_lt _ hm
  | succ bits =>
    rw [powMod]
    split
    · exact mulMod_lt hm _ _
    · exact mulMod_lt hm _ _

/-- Reduced numbers are equal if they are equal in the ring. -/
theorem eq_of_cast_eq {a b : ℕ} (ha : a < m) (hb : b < m) (h : (a : ZMod m) = b) : a = b := by
  rwa [ZMod.natCast_eq_natCast_iff', Nat.mod_eq_of_lt ha, Nat.mod_eq_of_lt hb] at h

/-! ## Operations of the field -/

variable [Fact m.Prime]

theorem cast_inverse (hm : 2 < m) (hbits : m ≤ 2 ^ 256) (a : ℕ) :
    (inverse m a : ZMod m) = (a : ZMod m)⁻¹ := by
  rw [inverse, cast_powMod a (by omega : m - 2 < 2 ^ 256)]
  by_cases ha : (a : ZMod m) = 0
  · rw [ha, zero_pow (by omega : m - 2 ≠ 0), inv_zero]
  · have hpred : m - 2 + 1 = m - 1 := by omega
    exact eq_inv_of_mul_eq_one_left (by rw [← pow_succ, hpred, ZMod.pow_card_sub_one_eq_one ha])

/-- Of a square, the root is one. -/
theorem squareRoot_sq (hmod : m % 4 = 3) (hbits : m ≤ 2 ^ 256) {a : ℕ}
    (h : IsSquare (a : ZMod m)) : (squareRoot m a : ZMod m) ^ 2 = a := by
  obtain ⟨b, hb⟩ := h
  have hquarter : (m + 1) / 4 * 2 * 2 = m - 1 + 2 := by omega
  rw [squareRoot, cast_powMod a (by omega : (m + 1) / 4 < 2 ^ 256), hb, ← sq, ← pow_mul, ← pow_mul,
    Nat.mul_comm 2, Nat.mul_right_comm, hquarter, pow_add]
  by_cases hzero : b = 0
  · rw [hzero, zero_pow two_ne_zero, mul_zero]
  · rw [ZMod.pow_card_sub_one_eq_one hzero, one_mul]

theorem squareRoot_lt (a : ℕ) : squareRoot m a < m := powMod_lt (Fact.out : m.Prime).pos a 256 _

end TokenApproval.Secp256k1

/-! ## The two orders are prime

Lucas's test shows that a number is prime by a witness whose order is the number less one, which
needs the prime factors of the latter. Their primality is shown in the same way, down to factors
that trial division settles. -/

namespace TokenApproval.Secp256k1

/-! ### Certificates -/

/-- A number, a witness for Lucas's test, and the factors of the number less one. -/
structure LucasCertificate where
  number : ℕ
  witness : ℕ
  /-- Each prime factor, as often as it divides. -/
  factors : List ℕ

namespace LucasCertificate

/-- The power of the witness modulo the number. -/
def power (certificate : LucasCertificate) (exponent : ℕ) : ℕ :=
  powMod certificate.number certificate.witness 256 exponent

/-- Whether Lucas's test succeeds, with factors that are among known ones. -/
def passes (known : List ℕ) (certificate : LucasCertificate) : Bool :=
  decide (1 < certificate.number) && decide (certificate.number ≤ 2 ^ 256)
    && certificate.factors.all (known.contains ·)
    && certificate.factors.prod == certificate.number - 1
    && certificate.power (certificate.number - 1) == 1
    && certificate.factors.all fun q => certificate.power ((certificate.number - 1) / q) != 1

/-- Whether each certificate passes when the numbers of those before it are known. -/
def allPass : List ℕ → List LucasCertificate → Bool
  | _, [] => true
  | known, certificate :: more =>
    certificate.passes known && allPass (certificate.number :: known) more

theorem cast_pow_eq_one_iff {p : ℕ} (hp : 1 < p) (a n : ℕ) :
    (a : ZMod p) ^ n = 1 ↔ a ^ n % p = 1 := by
  rw [← Nat.cast_pow, ← Nat.cast_one, ZMod.natCast_eq_natCast_iff', Nat.mod_eq_of_lt hp]

/-- A number that passes Lucas's test is prime if the factors are. -/
theorem prime_of_passes {known : List ℕ} (hknown : ∀ q ∈ known, q.Prime)
    {certificate : LucasCertificate} (h : certificate.passes known = true) :
    certificate.number.Prime := by
  simp only [passes, Bool.and_eq_true, decide_eq_true_eq, List.all_eq_true, List.contains_iff_mem,
    beq_iff_eq, bne_iff_ne] at h
  obtain ⟨⟨⟨⟨⟨hone, hbits⟩, hfactors⟩, hproduct⟩, hfull⟩, hpart⟩ := h
  have hpower : ∀ n, n ≤ certificate.number - 1 →
      certificate.power n = certificate.witness ^ n % certificate.number :=
    fun n hn => powMod_eq _ _ (by omega)
  refine lucas_primality certificate.number (certificate.witness : ZMod certificate.number) ?_ ?_
  · rw [cast_pow_eq_one_iff hone, ← hpower _ le_rfl, hfull]
  · intro q hq hdvd
    have hmem : q ∈ certificate.factors :=
      mem_list_primes_of_dvd_prod hq.prime (fun r hr => (hknown r (hfactors r hr)).prime)
        (hproduct ▸ hdvd)
    rw [Ne, cast_pow_eq_one_iff hone, ← hpower _ (Nat.div_le_self _ _)]
    exact hpart q hmem

theorem prime_of_allPass {known : List ℕ} (hknown : ∀ q ∈ known, q.Prime)
    {certificates : List LucasCertificate} (h : allPass known certificates = true) :
    ∀ certificate ∈ certificates, certificate.number.Prime := by
  induction certificates generalizing known with
  | nil => exact fun _ hmem => absurd hmem List.not_mem_nil
  | cons certificate more ih =>
    obtain ⟨hfirst, hmore⟩ := Bool.and_eq_true_iff.mp h
    have hprime := prime_of_passes hknown hfirst
    exact List.forall_mem_cons.mpr ⟨hprime, ih (List.forall_mem_cons.mpr ⟨hprime, hknown⟩) hmore⟩

end LucasCertificate

/-! ### The orders -/

def smallPrimes : List ℕ :=
  [2, 3, 5, 7, 11, 17, 29, 31, 41, 53, 59, 109, 149, 293, 461, 631, 797, 1627, 2621, 2657, 4051,
  4423, 5323, 7723, 9349, 13441, 16699, 24809, 28181, 41201, 85831, 96557, 120233, 305873, 1627771,
  4681609, 7240687, 13331831]

theorem prime_of_mem_smallPrimes : ∀ q ∈ smallPrimes, q.Prime := by
  simp only [smallPrimes, List.forall_mem_cons, List.not_mem_nil, false_imp_iff, implies_true,
    and_true]
  norm_num

/-- The primes between those and the orders, and the orders. -/
def certificates : List LucasCertificate := [
  ⟨173378833005251801, 6, [2, 2, 2, 5, 5, 2621, 24809, 13331831]⟩,
  ⟨22149492674086928081353, 5, [2, 2, 2, 3, 5323, 173378833005251801]⟩,
  ⟨132896956044521568488119, 6, [2, 3, 22149492674086928081353]⟩,
  ⟨107590001, 3, [2, 2, 2, 2, 5, 5, 5, 5, 7, 29, 53]⟩,
  ⟨255515944373312847190720520512484175977, 3, [2, 2, 2, 7, 7, 11, 1627, 2657, 4423, 41201, 96557,
    7240687, 107590001]⟩,
  ⟨205115282021455665897114700593932402728804164701536103180137503955397371, 10, [2, 3, 5, 29, 29,
    31, 7723, 132896956044521568488119, 255515944373312847190720520512484175977]⟩,
  ⟨fieldOrder, 3, [2, 3, 7, 13441,
    205115282021455665897114700593932402728804164701536103180137503955397371]⟩,
  ⟨107361793816595537, 3, [2, 2, 2, 2, 16699, 85831, 4681609]⟩,
  ⟨44706919, 6, [2, 3, 797, 9349]⟩,
  ⟨174723607534414371449, 3, [2, 2, 2, 17, 59, 4051, 120233, 44706919]⟩,
  ⟨545358713, 5, [2, 2, 2, 41, 59, 28181]⟩,
  ⟨297159362677, 2, [2, 2, 3, 3, 11, 461, 1627771]⟩,
  ⟨29047611873442575647497758179, 2, [2, 293, 305873, 545358713, 297159362677]⟩,
  ⟨341948486974166000522343609283189, 2, [2, 2, 3, 3, 3, 109, 29047611873442575647497758179]⟩,
  ⟨groupOrder, 7, [2, 2, 2, 2, 2, 2, 3, 149, 631, 107361793816595537, 174723607534414371449,
    341948486974166000522343609283189]⟩]

theorem certificates_pass : LucasCertificate.allPass smallPrimes certificates = true := by
  decide +kernel

theorem prime_of_mem_certificates {p : ℕ} (h : p ∈ certificates.map LucasCertificate.number) :
    p.Prime := by
  obtain ⟨certificate, hmem, rfl⟩ := List.mem_map.mp h
  exact LucasCertificate.prime_of_allPass prime_of_mem_smallPrimes certificates_pass _ hmem

instance fieldOrder_prime : Fact fieldOrder.Prime :=
  ⟨prime_of_mem_certificates (by decide)⟩

instance groupOrder_prime : Fact groupOrder.Prime :=
  ⟨prime_of_mem_certificates (by decide)⟩

end TokenApproval.Secp256k1
