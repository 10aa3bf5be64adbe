import TokenApproval.Proofs.Secp256k1.Curve
import TokenApproval.Proofs.Text
import TokenApproval.Secp256k1

/-!
# Compact signatures and the signature equation

64 bytes spell at most one signature, and spell it exactly if both their halves are below the order
of the group. The order is odd, so of a positive number and its complement to the order one lies in
the lower half and the other one above it.
-/

namespace TokenApproval.Secp256k1

theorem groupOrder_lt_width : groupOrder < Nat.pow 256 32 := by decide

/-- The largest number of the lower half. -/
theorem half_groupOrder : groupOrder / 2 = (groupOrder - 1) / 2 := by decide

namespace Signature

variable {bytes : Bytes} {signature : Signature}

theorem length_bytes (signature : Signature) : signature.bytes.length = compactLength := by
  rw [Signature.bytes, List.length_append, Bytes.length_ofNat, Bytes.length_ofNat]
  rfl

theorem take_bytes (signature : Signature) :
    signature.bytes.take 32 = Bytes.ofNat 32 signature.r := by
  rw [Signature.bytes, List.take_left' (Bytes.length_ofNat 32 _)]

theorem drop_bytes (signature : Signature) :
    signature.bytes.drop 32 = Bytes.ofNat 32 signature.s := by
  rw [Signature.bytes, List.drop_left' (Bytes.length_ofNat 32 _)]

theorem toNat_take_bytes (signature : Signature) :
    Bytes.toNat (signature.bytes.take 32) = signature.r := by
  rw [take_bytes, Bytes.toNat_ofNat (Nat.lt_trans signature.r_lt groupOrder_lt_width)]

theorem toNat_drop_bytes (signature : Signature) :
    Bytes.toNat (signature.bytes.drop 32) = signature.s := by
  rw [drop_bytes, Bytes.toNat_ofNat (Nat.lt_trans signature.s_lt groupOrder_lt_width)]

/-- Both halves of the bytes are below the order of the group. -/
def Fits (bytes : Bytes) : Prop :=
  bytes.length = compactLength ∧ Bytes.toNat (bytes.take 32) < groupOrder
    ∧ Bytes.toNat (bytes.drop 32) < groupOrder

/-- Bytes spell the signature whose compact form they are, and no other. -/
theorem ofBytes?_eq_some_iff : ofBytes? bytes = some signature ↔ signature.bytes = bytes := by
  constructor
  · intro h
    obtain ⟨hlength, h⟩ := Option.ite_none_right_eq_some.mp h
    obtain ⟨hfits, h⟩ := Option.dite_none_right_eq_some.mp h
    obtain rfl := Option.some.inj h
    have htake : (bytes.take 32).length = 32 := by
      rw [List.length_take, hlength]
      rfl
    have hdrop : (bytes.drop 32).length = 32 := by
      rw [List.length_drop, hlength]
      rfl
    rw [Signature.bytes, Bytes.ofNat_toNat htake, Bytes.ofNat_toNat hdrop, List.take_append_drop]
  · rintro rfl
    have hfits : Bytes.toNat (signature.bytes.take 32) < groupOrder
        ∧ Bytes.toNat (signature.bytes.drop 32) < groupOrder := by
      rw [toNat_take_bytes, toNat_drop_bytes]
      exact ⟨signature.r_lt, signature.s_lt⟩
    rw [ofBytes?, if_pos signature.length_bytes, dif_pos hfits]
    simp only [toNat_take_bytes, toNat_drop_bytes]

theorem fits_iff_exists : Fits bytes ↔ ∃ signature : Signature, signature.bytes = bytes := by
  constructor
  · rintro ⟨hlength, hfits⟩
    exact ⟨_, ofBytes?_eq_some_iff.mp (by rw [ofBytes?, if_pos hlength, dif_pos hfits])⟩
  · rintro ⟨signature, rfl⟩
    refine ⟨signature.length_bytes, ?_, ?_⟩
    · rw [toNat_take_bytes]
      exact signature.r_lt
    · rw [toNat_drop_bytes]
      exact signature.s_lt

theorem ofBytes?_eq_none_iff : ofBytes? bytes = none ↔ ¬ Fits bytes := by
  rw [fits_iff_exists, Option.eq_none_iff_forall_ne_some]
  constructor
  · rintro h ⟨signature, hbytes⟩
    exact h signature (ofBytes?_eq_some_iff.mpr hbytes)
  · intro h signature hsome
    exact h ⟨signature, ofBytes?_eq_some_iff.mp hsome⟩

/-- No signature with a zero for `r` or `s` is one of any digest. -/
theorem pos_of_verify {key : PublicKey} {digest : Octets 32}
    (h : signature.verify key digest = true) : 0 < signature.r ∧ 0 < signature.s := by
  unfold verify at h
  split at h
  · cases h
  · next hzero => exact ⟨by omega, by omega⟩

/-! ## Complements -/

/-- A signature's bytes with `s` replaced by its complement to the order of the group. -/
def complement (bytes : Bytes) : Bytes :=
  bytes.take 32 ++ Bytes.ofNat 32 (groupOrder - Bytes.toNat (bytes.drop 32))

/-- The complement of a signature of the lower half whose `s` is not zero lies in the upper half. -/
theorem complement_spec (hpos : 0 < signature.s) (hlow : signature.isHigh = false) :
    ∃ other : Signature, other.bytes = complement signature.bytes ∧ other.isHigh = true := by
  have hle : signature.s ≤ groupOrder / 2 := Nat.not_lt.mp (of_decide_eq_false hlow)
  have hs := signature.s_lt
  refine ⟨⟨signature.r, groupOrder - signature.s, signature.r_lt, by omega⟩, ?_, ?_⟩
  · rw [complement, take_bytes, toNat_drop_bytes, Signature.bytes]
  · have hodd : groupOrder = 2 * (groupOrder / 2) + 1 := by decide
    exact decide_eq_true (show groupOrder / 2 < groupOrder - signature.s by omega)

end Signature

/-! ## The signature equation

A signature `(r, s)` of a digest `m` by the key `d` has a nonce `k` with `s * k = m + r * d` modulo
the order of the group, where `r` is the reduced abscissa of the multiple `k`. The verifier solves
the equation for the multiple, so it accepts these signatures and no others, and recovery solves it
for the key. Negating `s` negates the nonce, which changes the ordinate of its multiple only, and
with it the recovery identifier's parity. -/

open RecoverableSignature (recoveryOf)

open WeierstrassCurve.Affine.Point (some_ne_zero)

variable {secret : SecretKey} {digest : Octets 32}

/-! ### Keys -/

theorem SecretKey.scalar_ne_zero (secret : SecretKey) : (secret.scalar : Scalar) ≠ 0 :=
  Secp256k1.scalar_ne_zero secret.scalar_pos secret.scalar_lt

/-- Coordinates that stand for the secret's multiple have the public key as affine ones. -/
theorem affine_of_secret {p : Point} (h : StandsFor p (multiples secret.scalar)) :
    p.affine = ((PublicKey.ofSecret secret).x, (PublicKey.ofSecret secret).y) := by
  obtain ⟨x, y, hxy, hpoint⟩ := exists_multiples secret.scalar_ne_zero
  have hkey := standsFor_scale_generator secret.scalar_lt
  rw [hpoint] at h hkey
  rw [h.affine, PublicKey.ofSecret, hkey.affine]

theorem standsFor_publicKey (secret : SecretKey) :
    StandsFor (PublicKey.ofSecret secret).point (multiples secret.scalar) := by
  obtain ⟨x, y, hxy, hpoint⟩ := exists_multiples secret.scalar_ne_zero
  have hkey := standsFor_scale_generator secret.scalar_lt
  rw [hpoint] at hkey ⊢
  rw [PublicKey.ofSecret, hkey.affine]
  exact standsFor_ofAffine (ZMod.natCast_zmod_val x) (ZMod.natCast_zmod_val y) hxy

/-! ### Nonces -/

/-- The equation of a signature with a nonce, and the coordinates of the nonce's multiple. -/
structure SignedWith (secret : SecretKey) (digest : Octets 32) (signature : Signature)
    (nonce : Scalar) (x y : Coordinate) : Prop where
  r_pos : 0 < signature.r
  s_pos : 0 < signature.s
  equation : (signature.s : Scalar) * nonce =
    Signature.scalarOf digest + signature.r * secret.scalar
  multiple : ∃ h : curve.Nonsingular x y, multiples nonce = .some x y h
  r_eq : signature.r = x.val % groupOrder

/-- A signature of a digest whose identifier names the multiple of its nonce. -/
def Recovers (secret : SecretKey) (digest : Octets 32) (signed : RecoverableSignature) : Prop :=
  ∃ nonce x y, SignedWith secret digest signed.signature nonce x y
    ∧ signed.recovery = recoveryOf x.val y.val

theorem fieldOrder_odd : fieldOrder % 2 = 1 := by decide

/-- The opposite ordinate has the other parity. -/
theorem val_neg_mod_two {y : Coordinate} (hy : y ≠ 0) : (-y).val % 2 = (y.val + 1) % 2 := by
  have hlt := ZMod.val_lt y
  have hodd := fieldOrder_odd
  rw [ZMod.neg_val, if_neg hy]
  omega

theorem recoveryOf_neg (x : ℕ) {y : Coordinate} (hy : y ≠ 0) :
    recoveryOf x (-y).val = recoveryOf x (y.val + 1) := by
  rw [recoveryOf, recoveryOf, val_neg_mod_two hy]

/-- What a nonce gives is a signature with this nonce or its opposite, in normal form. -/
theorem recovers_of_signWith? {nonce : ℕ} {signed : RecoverableSignature}
    (h : RecoverableSignature.signWith? secret digest nonce = some signed) :
    Recovers secret digest signed ∧ signed.signature.s ≤ groupOrder / 2 := by
  unfold RecoverableSignature.signWith? at h
  split at h
  · cases h
  · next hrange =>
    obtain ⟨hzero, hlt⟩ := not_or.mp hrange
    have hnonce : (nonce : Scalar) ≠ 0 :=
      Secp256k1.scalar_ne_zero (Nat.pos_of_ne_zero hzero) (Nat.not_le.mp hlt)
    obtain ⟨x, y, hxy, hpoint⟩ := exists_multiples hnonce
    have hy := ordinate_ne_zero hpoint
    have hmultiple := standsFor_scale_generator (Nat.not_le.mp hlt)
    rw [hpoint] at hmultiple
    simp only [hmultiple.affine] at h
    split at h
    · next hbounds =>
      have hequation : (mulMod groupOrder (inverse groupOrder nonce)
          (Signature.scalarOf digest + x.val % groupOrder * secret.scalar) : Scalar) * nonce =
            Signature.scalarOf digest + (x.val % groupOrder : ℕ) * secret.scalar := by
        rw [cast_mulMod, cast_inverse (by decide) (by decide), mul_right_comm,
          inv_mul_cancel₀ hnonce, one_mul, Nat.cast_add, Nat.cast_mul]
      split at h
      · next hhigh =>
        obtain rfl := Option.some.inj h
        refine ⟨⟨-nonce, x, -y, ⟨hbounds.1, Nat.sub_pos_of_lt hbounds.2.2.2, ?_,
          multiples_neg hpoint, rfl⟩, (recoveryOf_neg x.val hy).symm⟩, ?_⟩
        · rw [Nat.cast_sub hbounds.2.2.2.le, ZMod.natCast_self, zero_sub, neg_mul_neg, hequation]
        · show groupOrder - _ ≤ groupOrder / 2
          omega
      · next hlow =>
        obtain rfl := Option.some.inj h
        exact ⟨⟨nonce, x, y, ⟨hbounds.1, hbounds.2.1, hequation, ⟨hxy, hpoint⟩, rfl⟩, rfl⟩,
          Nat.not_lt.mp hlow⟩
    · cases h

/-- An answer that is drawn is one for some value. -/
theorem exists_of_first? {α : Type} {use : ℕ → Option α} {answer : α} {count : ℕ}
    {source : NonceSource} (h : NonceSource.first? use count source = some answer) :
    ∃ value, use value = some answer := by
  induction count generalizing source with
  | zero => cases h
  | succ count ih =>
    rw [NonceSource.first?] at h
    split at h
    · next found hfound => exact ⟨_, hfound.trans h⟩
    · exact ih h

theorem recovers_of_sign? {signed : RecoverableSignature}
    (h : RecoverableSignature.sign? secret digest = some signed) :
    Recovers secret digest signed ∧ signed.signature.s ≤ groupOrder / 2 := by
  obtain ⟨nonce, hnonce⟩ := exists_of_first? h
  exact recovers_of_signWith? hnonce

/-! ### Verifying -/

/-- The verifier looks at the multiple by the nonce that the equation asks for. -/
theorem verify_iff_multiple {signature : Signature} (hr : 0 < signature.r)
    (hs : 0 < signature.s) :
    signature.verify (PublicKey.ofSecret secret) digest = true ↔
      ∃ x y, ∃ h : curve.Nonsingular x y,
        multiples ((signature.s : Scalar)⁻¹ *
          (Signature.scalarOf digest + signature.r * secret.scalar)) = .some x y h
        ∧ signature.r = x.val % groupOrder := by
  have hsum := standsFor_combination (standsFor_publicKey secret)
    (k := mulMod groupOrder (Signature.scalarOf digest) (inverse groupOrder signature.s))
    (l := mulMod groupOrder signature.r (inverse groupOrder signature.s))
    (mulMod_lt groupOrder_pos _ _) (mulMod_lt groupOrder_pos _ _)
  have hnonce : (mulMod groupOrder (Signature.scalarOf digest)
        (inverse groupOrder signature.s) : Scalar) +
      mulMod groupOrder signature.r (inverse groupOrder signature.s) * secret.scalar =
        (signature.s : Scalar)⁻¹ *
          (Signature.scalarOf digest + signature.r * secret.scalar) := by
    rw [cast_mulMod, cast_mulMod, cast_inverse (by decide) (by decide), mul_right_comm, ← add_mul,
      mul_comm]
  rw [hnonce] at hsum
  rw [Signature.verify, if_neg (not_or.mpr ⟨hr.ne', hs.ne'⟩)]
  cases hpoint : multiples ((signature.s : Scalar)⁻¹ *
      (Signature.scalarOf digest + signature.r * secret.scalar)) with
  | zero =>
    simp only [hsum.isInfinity_iff.mpr hpoint, if_true]
    exact ⟨nofun, fun ⟨_, _, _, h, _⟩ => nomatch h⟩
  | some x y hxy =>
    rw [hpoint] at hsum
    have hfinite : ¬ (Point.isInfinity _ = true) := fun hzero =>
      some_ne_zero hxy (hsum.isInfinity_iff.mp hzero)
    simp only [if_neg hfinite, hsum.affine, beq_iff_eq]
    constructor
    · intro h
      exact ⟨x, y, hxy, rfl, h.symm⟩
    · rintro ⟨x', y', _, hsame, h⟩
      obtain ⟨rfl, rfl⟩ := WeierstrassCurve.Affine.Point.some.inj hsame
      exact h.symm

/-- The owner's key verifies the signatures of a digest that satisfy the equation with some nonce,
and no others. -/
theorem verify_iff {signature : Signature} :
    signature.verify (PublicKey.ofSecret secret) digest = true ↔
      ∃ nonce x y, SignedWith secret digest signature nonce x y := by
  have hs (hpos : 0 < signature.s) : (signature.s : Scalar) ≠ 0 :=
    Secp256k1.scalar_ne_zero hpos signature.s_lt
  constructor
  · intro h
    obtain ⟨hrpos, hspos⟩ := Signature.pos_of_verify h
    obtain ⟨x, y, hxy, hpoint, hr⟩ := (verify_iff_multiple hrpos hspos).mp h
    exact ⟨_, x, y, hrpos, hspos, mul_inv_cancel_left₀ (hs hspos) _, ⟨hxy, hpoint⟩, hr⟩
  · rintro ⟨nonce, x, y, h⟩
    obtain ⟨hxy, hpoint⟩ := h.multiple
    refine (verify_iff_multiple h.r_pos h.s_pos).mpr ⟨x, y, hxy, ?_, h.r_eq⟩
    rw [← h.equation, inv_mul_cancel_left₀ (hs h.s_pos), hpoint]

/-! ### Recovering -/

/-- A root of a square ordinate is the ordinate or its opposite. -/
theorem eq_or_eq_of_sq_eq {y : Coordinate} {root : ℕ} (hroot : root < fieldOrder)
    (h : (root : Coordinate) ^ 2 = y ^ 2) : root = y.val ∨ root = (-y).val := by
  refine (sq_eq_sq_iff_eq_or_eq_neg.mp h).imp (fun heq => ?_) (fun heq => ?_)
  · exact eq_of_cast_eq hroot (ZMod.val_lt y) (heq.trans (ZMod.natCast_zmod_val y).symm)
  · exact eq_of_cast_eq hroot (ZMod.val_lt (-y)) (heq.trans (ZMod.natCast_zmod_val (-y)).symm)

/-- A point of the curve is found from its abscissa and the parity of its ordinate. -/
theorem lift?_val {x y : Coordinate} (h : curve.Nonsingular x y) (hy : y ≠ 0) :
    lift? x.val (y.val % 2 == 1) = some y.val := by
  have hcube : (((mulMod fieldOrder (mulMod fieldOrder x.val x.val) x.val + 7) % fieldOrder : ℕ) :
      Coordinate) = y ^ 2 := by
    rw [ZMod.natCast_mod, Nat.cast_add, cast_mulMod, cast_mulMod, ZMod.natCast_zmod_val,
      curve_nonsingular_iff.mp h, Nat.cast_ofNat]
    ring
  rw [lift?]
  generalize (mulMod fieldOrder (mulMod fieldOrder x.val x.val) x.val + 7) % fieldOrder = cube
    at hcube
  have hroot : (squareRoot fieldOrder cube : Coordinate) ^ 2 = y ^ 2 := by
    rw [squareRoot_sq (by decide) (by decide) (hcube ▸ IsSquare.sq y), hcube]
  have hcurve : onCurve x.val (squareRoot fieldOrder cube) = true := by
    rw [onCurve_iff, hroot, ZMod.natCast_zmod_val, curve_nonsingular_iff.mp h]
  have hparity := val_neg_mod_two hy
  simp only [hcurve, if_true]
  obtain heq | heq := eq_or_eq_of_sq_eq (squareRoot_lt cube) hroot
  · rw [heq, beq_self_eq_true, if_pos rfl]
  · have hother : ((-y).val % 2 == 1) ≠ (y.val % 2 == 1) := by
      rw [hparity]
      rcases Nat.mod_two_eq_zero_or_one y.val with hmod | hmod <;> simp [Nat.add_mod, hmod]
    have hback : fieldOrder - (-y).val = y.val := by
      have hlt := ZMod.val_lt y
      rw [ZMod.neg_val, if_neg hy]
      omega
    rw [heq, if_neg (by simpa using hother), hback]

theorem recoveryOf_mod_two (x y : ℕ) : recoveryOf x y % 2 = y % 2 := by
  unfold recoveryOf
  split <;> omega

theorem recoveryOf_div_two (x y : ℕ) :
    recoveryOf x y / 2 % 2 = 1 ↔ groupOrder ≤ x := by
  unfold recoveryOf
  split <;> omega

theorem recoveryOf_le (x y : ℕ) : recoveryOf x y ≤ 3 := by
  unfold recoveryOf
  split <;> omega

theorem Recovers.recovery_le {signed : RecoverableSignature}
    (h : Recovers secret digest signed) : signed.recovery ≤ 3 := by
  obtain ⟨nonce, x, y, -, hrecovery⟩ := h
  rw [hrecovery]
  exact recoveryOf_le x.val y.val

/-- The abscissa is restored from its residue and the second bit of the identifier. -/
theorem abscissa_eq {x : ℕ} (hx : x < fieldOrder) (y : ℕ) :
    (if recoveryOf x y / 2 % 2 = 1 then x % groupOrder + groupOrder else x % groupOrder) = x := by
  have htwice : fieldOrder < 2 * groupOrder := by decide
  simp only [recoveryOf_div_two]
  split
  · next hle =>
    have hsub : x % groupOrder = x - groupOrder := by
      rw [Nat.mod_eq_sub_mod hle, Nat.mod_eq_of_lt (by omega)]
    omega
  · next hlt => exact Nat.mod_eq_of_lt (Nat.not_le.mp hlt)

/-- The signer's key is recovered from the signature and its identifier. -/
theorem Recovers.recover? {signed : RecoverableSignature}
    (hrecovers : Recovers secret digest signed) :
    RecoverableSignature.recover? digest signed = some (PublicKey.ofSecret secret) := by
  obtain ⟨nonce, x, y, h, hrecovery⟩ := hrecovers
  obtain ⟨hxy, hpoint⟩ := h.multiple
  have hrne : (signed.signature.r : Scalar) ≠ 0 :=
    Secp256k1.scalar_ne_zero h.r_pos signed.signature.r_lt
  have hx : (if signed.recovery / 2 % 2 = 1 then signed.signature.r + groupOrder
      else signed.signature.r) = x.val := by
    rw [h.r_eq, hrecovery, abscissa_eq (ZMod.val_lt x)]
  have hlift : lift? x.val (signed.recovery % 2 == 1) = some y.val := by
    rw [hrecovery, recoveryOf_mod_two, lift?_val hxy (ordinate_ne_zero hpoint)]
  have hnoncePoint : StandsFor (Point.ofAffine x.val y.val) (multiples nonce) := by
    rw [hpoint]
    exact standsFor_ofAffine (ZMod.natCast_zmod_val x) (ZMod.natCast_zmod_val y) hxy
  have hsum := standsFor_combination hnoncePoint
    (k := mulMod groupOrder (subMod groupOrder 0 (Signature.scalarOf digest))
      (inverse groupOrder signed.signature.r))
    (l := mulMod groupOrder signed.signature.s (inverse groupOrder signed.signature.r))
    (mulMod_lt groupOrder_pos _ _) (mulMod_lt groupOrder_pos _ _)
  have hsecret : (mulMod groupOrder (subMod groupOrder 0 (Signature.scalarOf digest))
        (inverse groupOrder signed.signature.r) : Scalar) +
      mulMod groupOrder signed.signature.s (inverse groupOrder signed.signature.r) * nonce =
        secret.scalar := by
    rw [cast_mulMod, cast_mulMod, cast_subMod groupOrder_pos, cast_inverse (by decide) (by decide),
      mul_right_comm, h.equation, ← add_mul, Nat.cast_zero, zero_sub, neg_add_cancel_left, mul_comm,
      inv_mul_cancel_left₀ hrne]
  rw [hsecret] at hsum
  have hfinite : ¬ (Point.isInfinity _ = true) := fun hzero =>
    secret.scalar_ne_zero (multiples_eq_zero_iff.mp (hsum.isInfinity_iff.mp hzero))
  rw [RecoverableSignature.recover?]
  simp only [hx, hlift, hfinite, affine_of_secret hsum]
  rw [if_neg (not_or.mpr ⟨h.r_pos.ne', not_or.mpr ⟨h.s_pos.ne', Nat.not_le.mpr (ZMod.val_lt x)⟩⟩),
    if_neg Bool.false_ne_true]

end TokenApproval.Secp256k1
