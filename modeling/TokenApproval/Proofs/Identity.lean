import TokenApproval.Identity
import TokenApproval.Proofs.Outcome
import TokenApproval.Proofs.Secp256k1.Signature

/-!
# Keys and ownership signatures

A scheme finds an account for a byte string exactly if it takes keys of that length and the bytes
spell a key; the account is the one that the key controls. Faults of keys are found there only, and
not where a signature is checked.
-/

namespace TokenApproval

open Secp256k1 (PublicKey Signature)
open Outcome (ErrsOnly errsOnly_ok errsOnly_error)

def IdentityError.OfKey : IdentityError → Prop
  | .invalidPublicKey _ => True
  | _ => False

namespace Scheme

theorem identify_eq_ok_iff {scheme : Scheme} {bytes : Bytes} {account : AccountId}
    {key : PublicKey} :
    scheme.identify bytes = .ok (account, key) ↔
      scheme.lengthFault? bytes.length = none ∧ PublicKey.ofBytes? bytes = some key
        ∧ account = scheme.accountOf key := by
  unfold identify
  constructor
  · intro h
    split at h
    · cases h
    · next hlength =>
      split at h
      · cases h
      · next found hfound =>
        obtain ⟨rfl, rfl⟩ := Prod.mk.inj (Except.ok.inj h)
        exact ⟨hlength, hfound, rfl⟩
  · rintro ⟨hlength, hkey, rfl⟩
    simp only [hlength, hkey]

theorem errsOnly_identify (scheme : Scheme) (bytes : Bytes) :
    ErrsOnly IdentityError.OfKey (scheme.identify bytes) := by
  unfold identify
  split
  · exact errsOnly_error True.intro
  · split
    · exact errsOnly_error True.intro
    · exact errsOnly_ok _ _

end Scheme

theorem errsOnly_checkSignature (key : PublicKey) (signature : Bytes) (digest : Octets 32) :
    ErrsOnly (¬ IdentityError.OfKey ·) (checkSignature key signature digest) := by
  unfold checkSignature
  split
  · exact errsOnly_error id
  · split
    · exact errsOnly_error id
    · split
      · exact errsOnly_error id
      · split
        · exact errsOnly_ok _ _
        · exact errsOnly_error id

/-! ## The one form in which a signature is accepted

An ownership signature goes through three checks, and each has its own refusal: that the bytes spell
a signature, that `s` is in the lower half, and that the signature is one of the digest. Of a
signature and its complement, which the key's owner need not have made, at most one passes the
second check, whether or not they pass the third. -/

open Secp256k1 (PublicKey Signature groupOrder)

variable {key : PublicKey} {bytes : Bytes} {digest : Octets 32} {signature : Signature}

/-- The checks of 64 bytes that spell a signature. -/
theorem checkSignature_bytes (key : PublicKey) (signature : Signature) (digest : Octets 32) :
    checkSignature key signature.bytes digest =
      if signature.isHigh then .error .malleable
      else if signature.verify key digest then .ok () else .error .mismatch := by
  rw [checkSignature, if_neg (not_not_intro signature.length_bytes)]
  simp only [Signature.ofBytes?_eq_some_iff.mpr rfl]

theorem checkSignature_of_not_fits (h : ¬ Signature.Fits bytes) :
    ∃ fault, checkSignature key bytes digest = .error (.invalidEncoding fault) := by
  unfold checkSignature
  split
  · exact ⟨_, rfl⟩
  · simp only [Signature.ofBytes?_eq_none_iff.mpr h]
    exact ⟨_, rfl⟩

/-- What does not spell a signature is refused for its encoding, and nothing else is. -/
theorem checkSignature_invalidEncoding_iff :
    (∃ fault, checkSignature key bytes digest = .error (.invalidEncoding fault)) ↔
      ¬ Signature.Fits bytes := by
  refine ⟨?_, checkSignature_of_not_fits⟩
  rintro ⟨fault, hcheck⟩ hfits
  obtain ⟨signature, rfl⟩ := Signature.fits_iff_exists.mp hfits
  rw [checkSignature_bytes] at hcheck
  split at hcheck
  · cases hcheck
  · split at hcheck
    · cases hcheck
    · cases hcheck

/-- An outcome other than a fault of the encoding is that of the signature which the bytes spell. -/
theorem checkSignature_eq_iff (outcome : Except IdentityError Unit)
    (houtcome : ∀ fault, outcome ≠ .error (.invalidEncoding fault)) :
    checkSignature key bytes digest = outcome ↔
      ∃ signature : Signature, signature.bytes = bytes
        ∧ (if signature.isHigh then .error .malleable
          else if signature.verify key digest then .ok () else .error .mismatch) = outcome := by
  by_cases hfits : Signature.Fits bytes
  · obtain ⟨signature, rfl⟩ := Signature.fits_iff_exists.mp hfits
    rw [checkSignature_bytes]
    constructor
    · exact fun h => ⟨signature, rfl, h⟩
    · rintro ⟨other, hbytes, h⟩
      obtain rfl := Option.some.inj ((Signature.ofBytes?_eq_some_iff.mpr hbytes).symm.trans
        (Signature.ofBytes?_eq_some_iff.mpr rfl))
      exact h
  · obtain ⟨fault, hfault⟩ :
        ∃ fault, checkSignature key bytes digest = .error (.invalidEncoding fault) :=
      checkSignature_of_not_fits hfits
    rw [hfault]
    constructor
    · exact fun h => absurd h.symm (houtcome fault)
    · rintro ⟨signature, hbytes, -⟩
      exact absurd (Signature.fits_iff_exists.mpr ⟨signature, hbytes⟩) hfits

theorem isHigh_iff : signature.isHigh = true ↔ (groupOrder - 1) / 2 < signature.s := by
  rw [← Secp256k1.half_groupOrder]
  exact decide_eq_true_iff

theorem checkSignature_malleable_iff :
    checkSignature key bytes digest = .error .malleable ↔
      ∃ signature : Signature, signature.bytes = bytes ∧ (groupOrder - 1) / 2 < signature.s := by
  rw [checkSignature_eq_iff (.error .malleable) nofun]
  refine exists_congr fun signature => and_congr_right fun _ => ?_
  rw [← isHigh_iff]
  cases signature.isHigh <;> cases signature.verify key digest <;> simp

theorem checkSignature_ok_iff :
    checkSignature key bytes digest = .ok () ↔
      ∃ signature : Signature, signature.bytes = bytes ∧ signature.s ≤ (groupOrder - 1) / 2
        ∧ signature.verify key digest = true := by
  rw [checkSignature_eq_iff (.ok ()) nofun]
  refine exists_congr fun signature => and_congr_right fun _ => ?_
  rw [← Nat.not_lt, ← isHigh_iff]
  cases signature.isHigh <;> cases signature.verify key digest <;> simp

theorem checkSignature_mismatch_iff :
    checkSignature key bytes digest = .error .mismatch ↔
      ∃ signature : Signature, signature.bytes = bytes ∧ signature.s ≤ (groupOrder - 1) / 2
        ∧ signature.verify key digest = false := by
  rw [checkSignature_eq_iff (.error .mismatch) nofun]
  refine exists_congr fun signature => and_congr_right fun _ => ?_
  rw [← Nat.not_lt, ← isHigh_iff]
  cases signature.isHigh <;> cases signature.verify key digest <;> simp

/-- The complement of an accepted signature is refused, by whichever key and for whichever digest
it is checked. -/
theorem complement_refused (h : checkSignature key bytes digest = .ok ()) (other : PublicKey)
    (more : Octets 32) :
    checkSignature other (Signature.complement bytes) more = .error .malleable := by
  obtain ⟨signature, rfl, hlow, hverified⟩ := checkSignature_ok_iff.mp h
  obtain ⟨-, hpos⟩ := Signature.pos_of_verify hverified
  have hlower : signature.isHigh = false := by
    rw [Bool.eq_false_iff, Ne, isHigh_iff, Nat.not_lt]
    exact hlow
  obtain ⟨twin, hbytes, hhigh⟩ := Signature.complement_spec hpos hlower
  exact checkSignature_malleable_iff.mpr ⟨twin, hbytes, isHigh_iff.mp hhigh⟩

end TokenApproval
