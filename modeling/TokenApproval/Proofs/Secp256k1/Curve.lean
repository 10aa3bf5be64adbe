import Mathlib.AlgebraicGeometry.EllipticCurve.Affine.Point
import Mathlib.GroupTheory.OrderOfElement
import Mathlib.Tactic.FieldSimp
import TokenApproval.Proofs.Secp256k1.Modular

/-!
# Jacobian coordinates and the group of the curve

Jacobian coordinates stand for a point of the curve, and the operations on them for those of its
group. The sum of two points is read off the line through them, or the tangent: if its slope is `ℓ`
and the sum's third coordinate is `w`, then the quantities that `double` and `add` compute on the
way are `ℓ * w` and the given abscissas times `w ^ 2`, so no division is left over.
-/

namespace TokenApproval.Secp256k1

open WeierstrassCurve.Affine (slope_of_Y_ne slope_of_X_ne Y_eq_of_X_eq)

open WeierstrassCurve.Affine.Point (some_ne_zero add_of_X_ne add_of_Y_eq add_self_of_Y_eq
  add_self_of_Y_ne)

/-! ## The curve -/

abbrev Coordinate := ZMod fieldOrder

theorem fieldOrder_pos : 0 < fieldOrder := by decide

theorem cast_ne_zero {n : ℕ} (hpos : 0 < n) (hlt : n < fieldOrder) : (n : Coordinate) ≠ 0 := by
  rw [Ne, ZMod.natCast_eq_zero_iff]
  exact Nat.not_dvd_of_pos_of_lt hpos hlt

theorem coordinate_two_ne_zero : (2 : Coordinate) ≠ 0 :=
  cast_ne_zero (n := 2) (by decide) (by decide)

/-- The curve `y² = x³ + 7`. -/
def curve : WeierstrassCurve.Affine Coordinate := ⟨0, 0, 0, 0, 7⟩

theorem curve_discriminant_ne_zero : curve.Δ ≠ 0 := by
  have hvalue : curve.Δ = -(21168 : ℕ) := by
    simp only [WeierstrassCurve.Δ, WeierstrassCurve.b₂, WeierstrassCurve.b₄, WeierstrassCurve.b₆,
      WeierstrassCurve.b₈, curve]
    norm_num
  rw [hvalue, neg_ne_zero]
  exact cast_ne_zero (by decide) (by decide)

theorem curve_equation_iff {x y : Coordinate} : curve.Equation x y ↔ y ^ 2 = x ^ 3 + 7 := by
  rw [WeierstrassCurve.Affine.equation_iff]
  simp only [curve, zero_mul, add_zero]

theorem curve_nonsingular_iff {x y : Coordinate} : curve.Nonsingular x y ↔ y ^ 2 = x ^ 3 + 7 := by
  rw [← WeierstrassCurve.Affine.equation_iff_nonsingular_of_Δ_ne_zero curve_discriminant_ne_zero,
    curve_equation_iff]

theorem curve_negY (x y : Coordinate) : curve.negY x y = -y := by
  simp only [WeierstrassCurve.Affine.negY, curve, zero_mul, sub_zero]

theorem curve_addX (x₁ x₂ ℓ : Coordinate) : curve.addX x₁ x₂ ℓ = ℓ ^ 2 - x₁ - x₂ := by
  simp only [WeierstrassCurve.Affine.addX, curve, zero_mul, add_zero, sub_zero]

theorem curve_addY (x₁ x₂ y₁ ℓ : Coordinate) :
    curve.addY x₁ x₂ y₁ ℓ = ℓ * (x₁ - (ℓ ^ 2 - x₁ - x₂)) - y₁ := by
  rw [WeierstrassCurve.Affine.addY, curve_negY, WeierstrassCurve.Affine.negAddY, curve_addX]
  ring

theorem ne_curve_negY {x y : Coordinate} (hy : y ≠ 0) : y ≠ curve.negY x y := by
  rw [curve_negY, Ne, eq_neg_iff_add_eq_zero, ← two_mul, mul_eq_zero, not_or]
  exact ⟨coordinate_two_ne_zero, hy⟩

theorem curve_slope_self {x y : Coordinate} (hy : y ≠ 0) :
    curve.slope x x y y * (2 * y) = 3 * x ^ 2 := by
  rw [slope_of_Y_ne rfl (ne_curve_negY hy), curve_negY, sub_neg_eq_add, ← two_mul,
    div_mul_cancel₀ _ (mul_ne_zero coordinate_two_ne_zero hy)]
  simp only [curve, mul_zero, zero_mul, add_zero, sub_zero]

theorem curve_slope_of_ne {x₁ x₂ y₁ y₂ : Coordinate} (hx : x₁ ≠ x₂) :
    curve.slope x₁ x₂ y₁ y₂ * (x₂ - x₁) = y₂ - y₁ := by
  rw [slope_of_X_ne hx, ← neg_sub x₁ x₂, mul_neg, div_mul_cancel₀ _ (sub_ne_zero.mpr hx), neg_sub]

/-! ## Coordinates that stand for a point -/

/-- The points of the curve, infinity among them. -/
abbrev CurvePoint := WeierstrassCurve.Affine.Point curve

/-- Whether Jacobian coordinates stand for a point. -/
def StandsFor (point : Point) : CurvePoint → Prop
  | .zero => point.z = 0
  | .some x y _ => (point.z : Coordinate) ≠ 0
      ∧ (point.x : Coordinate) = x * (point.z : Coordinate) ^ 2
      ∧ (point.y : Coordinate) = y * (point.z : Coordinate) ^ 3

theorem standsFor_infinity : StandsFor Point.infinity 0 := rfl

theorem StandsFor.isInfinity_iff {point : Point} {a : CurvePoint} (h : StandsFor point a) :
    point.isInfinity = true ↔ a = 0 := by
  cases a with
  | zero => exact ⟨fun _ => rfl, fun _ => beq_iff_eq.mpr h⟩
  | some x y hxy =>
    refine ⟨fun hzero => absurd ?_ h.1, fun hzero => absurd hzero (some_ne_zero hxy)⟩
    rw [beq_iff_eq.mp hzero, Nat.cast_zero]

/-! ## Sums -/

/-- Coordinates that are read off a line stand for the sum on it. -/
theorem StandsFor.of_line {p : Point} {x₁ x₂ y₁ ℓ : Coordinate}
    {h : curve.Nonsingular (curve.addX x₁ x₂ ℓ) (curve.addY x₁ x₂ y₁ ℓ)}
    (hz : (p.z : Coordinate) ≠ 0)
    (hx : (p.x : Coordinate) =
      (ℓ * p.z) ^ 2 - (x₁ * (p.z : Coordinate) ^ 2 + x₂ * (p.z : Coordinate) ^ 2))
    (hy : (p.y : Coordinate) =
      ℓ * p.z * (x₁ * (p.z : Coordinate) ^ 2 - p.x) - y₁ * (p.z : Coordinate) ^ 3) :
    StandsFor p (.some _ _ h) := by
  refine ⟨hz, ?_, ?_⟩
  · rw [curve_addX, hx]
    ring
  · rw [curve_addY, hy, hx]
    ring

theorem cast_double_x (p : Point) :
    ((p.double).x : Coordinate) = 3 * (p.x * p.x) * (3 * (p.x * p.x)) -
      2 * (4 * (p.x * (p.y * p.y))) := by
  simp only [Point.double, cast_mulMod, cast_subMod fieldOrder_pos, Nat.cast_mul, Nat.cast_ofNat]

theorem cast_double_y (p : Point) :
    ((p.double).y : Coordinate) = 3 * (p.x * p.x) * (4 * (p.x * (p.y * p.y)) - (p.double).x) -
      8 * (p.y * p.y * (p.y * p.y)) := by
  simp only [Point.double, cast_mulMod, cast_subMod fieldOrder_pos, Nat.cast_mul, Nat.cast_ofNat]

theorem cast_double_z (p : Point) : ((p.double).z : Coordinate) = 2 * (p.y * p.z) := by
  simp only [Point.double, cast_mulMod, Nat.cast_ofNat]

/-- Doubling coordinates doubles the point. -/
theorem StandsFor.double {p : Point} {a : CurvePoint} (h : StandsFor p a) :
    StandsFor p.double (a + a) := by
  have hinfinity : (2 * (p.y * p.z) : Coordinate) = 0 → StandsFor p.double 0 := by
    intro hzero
    refine eq_of_cast_eq (mulMod_lt fieldOrder_pos _ _) fieldOrder_pos ?_
    rw [Nat.cast_zero, ← hzero, ← cast_double_z]
  cases a with
  | zero =>
    have hz : p.z = 0 := h
    exact hinfinity (by rw [hz, Nat.cast_zero, mul_zero, mul_zero])
  | some x y hxy =>
    obtain ⟨hz, hpx, hpy⟩ := h
    by_cases hy : y = 0
    · have hself : y = curve.negY x y := by rw [curve_negY, hy, neg_zero]
      rw [add_self_of_Y_eq hself]
      exact hinfinity (by rw [hpy, hy, zero_mul, zero_mul, mul_zero])
    · rw [add_self_of_Y_ne (ne_curve_negY hy)]
      have hslope := curve_slope_self (x := x) hy
      have hw : ((p.double).z : Coordinate) = 2 * y * (p.z : Coordinate) ^ 4 := by
        rw [cast_double_z, hpy]
        ring
      have hm : 3 * ((p.x : Coordinate) * p.x) = curve.slope x x y y * (p.double).z := by
        rw [hw, hpx]
        linear_combination -(p.z : Coordinate) ^ 4 * hslope
      have hs : 4 * ((p.x : Coordinate) * (p.y * p.y)) = x * ((p.double).z : Coordinate) ^ 2 := by
        rw [hw, hpx, hpy]
        ring
      have hfourth : 8 * ((p.y : Coordinate) * p.y * (p.y * p.y)) =
          y * ((p.double).z : Coordinate) ^ 3 := by
        rw [hw, hpy]
        ring
      refine .of_line ?_ ?_ ?_
      · rw [hw]
        exact mul_ne_zero (mul_ne_zero coordinate_two_ne_zero hy) (pow_ne_zero 4 hz)
      · rw [cast_double_x, hm, hs]
        ring
      · rw [cast_double_y, hm, hs, hfourth]

/-- The abscissa of a point over the denominator that it has in common with another. -/
def commonX (p q : Point) : ℕ := mulMod fieldOrder p.x (mulMod fieldOrder q.z q.z)

/-- The ordinate of a point over the denominator that it has in common with another. -/
def commonY (p q : Point) : ℕ :=
  mulMod fieldOrder p.y (mulMod fieldOrder (mulMod fieldOrder q.z q.z) q.z)

def chordSum (p q : Point) : Point :=
  let h := subMod fieldOrder (commonX q p) (commonX p q)
  let r := subMod fieldOrder (commonY q p) (commonY p q)
  let h2 := mulMod fieldOrder h h
  let h3 := mulMod fieldOrder h2 h
  let v := mulMod fieldOrder (commonX p q) h2
  let x := subMod fieldOrder (mulMod fieldOrder r r) (h3 + 2 * v)
  let y := subMod fieldOrder (mulMod fieldOrder r (subMod fieldOrder v x))
    (mulMod fieldOrder (commonY p q) h3)
  ⟨x, y, mulMod fieldOrder h (mulMod fieldOrder p.z q.z)⟩

theorem add_eq {p q : Point} (hp : ¬ p.isInfinity) (hq : ¬ q.isInfinity) :
    p.add q = if commonX p q = commonX q p then
      if commonY p q = commonY q p then p.double else Point.infinity
    else chordSum p q := by
  rw [Point.add, if_neg hp, if_neg hq]
  rfl

theorem cast_chordSum_z (p q : Point) :
    ((chordSum p q).z : Coordinate) = (commonX q p - commonX p q) * (p.z * q.z) := by
  simp only [chordSum, cast_mulMod, cast_subMod fieldOrder_pos]

theorem cast_chordSum_x (p q : Point) :
    ((chordSum p q).x : Coordinate) =
      ((commonY q p : Coordinate) - commonY p q) * (commonY q p - commonY p q) -
        ((commonX q p - commonX p q) * (commonX q p - commonX p q) * (commonX q p - commonX p q) +
          2 * (commonX p q * ((commonX q p - commonX p q) * (commonX q p - commonX p q)))) := by
  simp only [chordSum, cast_mulMod, cast_subMod fieldOrder_pos, Nat.cast_add, Nat.cast_mul,
    Nat.cast_ofNat]

theorem cast_chordSum_y (p q : Point) :
    ((chordSum p q).y : Coordinate) =
      ((commonY q p : Coordinate) - commonY p q) *
        (commonX p q * ((commonX q p - commonX p q) * (commonX q p - commonX p q)) -
          (chordSum p q).x) -
        commonY p q * ((commonX q p - commonX p q) * (commonX q p - commonX p q) *
          (commonX q p - commonX p q)) := by
  simp only [chordSum, cast_mulMod, cast_subMod fieldOrder_pos, Nat.cast_add, Nat.cast_mul,
    Nat.cast_ofNat]

section

variable {p q : Point} {x₁ y₁ x₂ y₂ : Coordinate} {h₁ : curve.Nonsingular x₁ y₁}
  {h₂ : curve.Nonsingular x₂ y₂}

theorem cast_commonX (hp : StandsFor p (.some x₁ y₁ h₁)) :
    (commonX p q : Coordinate) = x₁ * (p.z * q.z : Coordinate) ^ 2 := by
  rw [commonX, cast_mulMod, cast_mulMod, hp.2.1]
  ring

theorem cast_commonY (hp : StandsFor p (.some x₁ y₁ h₁)) :
    (commonY p q : Coordinate) = y₁ * (p.z * q.z : Coordinate) ^ 3 := by
  rw [commonY, cast_mulMod, cast_mulMod, cast_mulMod, hp.2.2]
  ring

theorem commonX_eq_iff (hp : StandsFor p (.some x₁ y₁ h₁)) (hq : StandsFor q (.some x₂ y₂ h₂)) :
    commonX p q = commonX q p ↔ x₁ = x₂ := by
  have hw : (p.z * q.z : Coordinate) ^ 2 ≠ 0 := pow_ne_zero 2 (mul_ne_zero hp.1 hq.1)
  rw [← mul_left_inj' hw, ← cast_commonX hp, mul_comm (p.z : Coordinate), ← cast_commonX hq]
  exact ⟨congrArg _, eq_of_cast_eq (mulMod_lt fieldOrder_pos _ _) (mulMod_lt fieldOrder_pos _ _)⟩

theorem commonY_eq_iff (hp : StandsFor p (.some x₁ y₁ h₁)) (hq : StandsFor q (.some x₂ y₂ h₂)) :
    commonY p q = commonY q p ↔ y₁ = y₂ := by
  have hw : (p.z * q.z : Coordinate) ^ 3 ≠ 0 := pow_ne_zero 3 (mul_ne_zero hp.1 hq.1)
  rw [← mul_left_inj' hw, ← cast_commonY hp, mul_comm (p.z : Coordinate), ← cast_commonY hq]
  exact ⟨congrArg _, eq_of_cast_eq (mulMod_lt fieldOrder_pos _ _) (mulMod_lt fieldOrder_pos _ _)⟩

theorem standsFor_chordSum (hp : StandsFor p (.some x₁ y₁ h₁)) (hq : StandsFor q (.some x₂ y₂ h₂))
    (hx : x₁ ≠ x₂) : StandsFor (chordSum p q) (.some x₁ y₁ h₁ + .some x₂ y₂ h₂) := by
  have hslope : curve.slope x₁ x₂ y₁ y₂ * (x₂ - x₁) = y₂ - y₁ := curve_slope_of_ne hx
  have hdx : (commonX q p : Coordinate) - commonX p q =
      (x₂ - x₁) * (p.z * q.z : Coordinate) ^ 2 := by
    rw [cast_commonX hp, cast_commonX hq]
    ring
  have hw : ((chordSum p q).z : Coordinate) = (x₂ - x₁) * (p.z * q.z : Coordinate) ^ 3 := by
    rw [cast_chordSum_z, hdx]
    ring
  have hdy : (commonY q p : Coordinate) - commonY p q =
      curve.slope x₁ x₂ y₁ y₂ * (chordSum p q).z := by
    rw [cast_commonY hp, cast_commonY hq, hw]
    linear_combination -(p.z * q.z : Coordinate) ^ 3 * hslope
  rw [add_of_X_ne hx]
  refine .of_line ?_ ?_ ?_
  · rw [hw]
    exact mul_ne_zero (sub_ne_zero.mpr hx.symm) (pow_ne_zero 3 (mul_ne_zero hp.1 hq.1))
  · rw [cast_chordSum_x, hdy, hdx, cast_commonX hp, hw]
    ring
  · rw [cast_chordSum_y, hdy, hdx, cast_commonX hp, cast_commonY hp, hw]
    ring

end

/-- Adding coordinates adds the points. -/
theorem StandsFor.add {p q : Point} {a b : CurvePoint} (hp : StandsFor p a) (hq : StandsFor q b) :
    StandsFor (p.add q) (a + b) := by
  by_cases hpzero : p.isInfinity
  · rw [Point.add, if_pos hpzero, hp.isInfinity_iff.mp hpzero, zero_add]
    exact hq
  by_cases hqzero : q.isInfinity
  · rw [Point.add, if_neg hpzero, if_pos hqzero, hq.isInfinity_iff.mp hqzero, add_zero]
    exact hp
  rw [add_eq hpzero hqzero]
  cases a with
  | zero => exact absurd (hp.isInfinity_iff.mpr rfl) hpzero
  | some x₁ y₁ h₁ =>
    cases b with
    | zero => exact absurd (hq.isInfinity_iff.mpr rfl) hqzero
    | some x₂ y₂ h₂ =>
      simp only [commonX_eq_iff hp hq, commonY_eq_iff hp hq]
      by_cases hx : x₁ = x₂
      · subst hx
        by_cases hy : y₁ = y₂
        · subst hy
          rw [if_pos rfl, if_pos rfl]
          exact hp.double
        · have hopposite : y₁ = curve.negY x₁ y₂ :=
            (Y_eq_of_X_eq h₁.1 h₂.1 rfl).resolve_left hy
          rw [if_pos rfl, if_neg hy, add_of_Y_eq rfl hopposite]
          exact standsFor_infinity
      · rw [if_neg hx]
        exact standsFor_chordSum hp hq hx

/-! ## Multiples -/

/-- Doubling and adding, bit by bit, gives a multiple. -/
theorem StandsFor.multiply {p : Point} {a : CurvePoint} (h : StandsFor p a) {bits factor : ℕ}
    (hfactor : factor < 2 ^ bits) : StandsFor (p.multiply bits factor) (factor • a) := by
  induction bits generalizing factor with
  | zero =>
    obtain rfl : factor = 0 := Nat.lt_one_iff.mp hfactor
    rw [zero_nsmul]
    exact standsFor_infinity
  | succ bits ih =>
    have hhalf : factor / 2 < 2 ^ bits := Nat.div_lt_of_lt_mul (by rwa [pow_succ'] at hfactor)
    have heven : StandsFor (p.multiply bits (factor / 2)).double ((2 * (factor / 2)) • a) := by
      rw [two_mul, add_nsmul]
      exact (ih hhalf).double
    have hsplit := Nat.div_add_mod factor 2
    rw [Point.multiply]
    split
    · next hodd =>
      have hsum : factor • a = (2 * (factor / 2)) • a + a := by
        rw [← succ_nsmul, ← hodd, hsplit]
      rw [hsum]
      exact heven.add h
    · next hnot =>
      rw [Nat.mod_two_ne_one.mp hnot, add_zero] at hsplit
      rwa [hsplit] at heven

theorem StandsFor.scale {p : Point} {a : CurvePoint} (h : StandsFor p a) {factor : ℕ}
    (hfactor : factor < 2 ^ 256) : StandsFor (p.scale factor) (factor • a) :=
  h.multiply hfactor

/-! ## Affine coordinates -/

theorem standsFor_ofAffine {a b : ℕ} {x y : Coordinate} (hx : (a : Coordinate) = x)
    (hy : (b : Coordinate) = y) (h : curve.Nonsingular x y) :
    StandsFor (Point.ofAffine a b) (.some x y h) := by
  refine ⟨?_, ?_, ?_⟩
  · rw [Point.ofAffine, Nat.cast_one]
    exact one_ne_zero
  · rw [Point.ofAffine, Nat.cast_one, one_pow, mul_one, hx]
  · rw [Point.ofAffine, Nat.cast_one, one_pow, mul_one, hy]

/-- Affine coordinates are those of the point. -/
theorem StandsFor.affine {p : Point} {x y : Coordinate} {h : curve.Nonsingular x y}
    (hp : StandsFor p (.some x y h)) : p.affine = (x.val, y.val) := by
  have hinverse : (inverse fieldOrder p.z : Coordinate) = (p.z : Coordinate)⁻¹ :=
    cast_inverse (by decide) (by decide) p.z
  obtain ⟨hz, hpx, hpy⟩ := hp
  have hx : (p.affine.1 : Coordinate) = x := by
    simp only [Point.affine, cast_mulMod, hinverse, hpx]
    field_simp
  have hy : (p.affine.2 : Coordinate) = y := by
    simp only [Point.affine, cast_mulMod, hinverse, hpy]
    field_simp
  refine Prod.ext (eq_of_cast_eq (mulMod_lt fieldOrder_pos _ _) (ZMod.val_lt x) ?_)
    (eq_of_cast_eq (mulMod_lt fieldOrder_pos _ _) (ZMod.val_lt y) ?_)
  · rw [ZMod.natCast_zmod_val]
    exact hx
  · rw [ZMod.natCast_zmod_val]
    exact hy

/-! ## Multiples of the generator

The order of the generator is the prime `groupOrder`, so its multiples are told by their factors in
the field of that many elements, and none of them but infinity is its own opposite. -/

open WeierstrassCurve.Affine.Point (some_ne_zero neg_some add_self_of_Y_eq)

/-! ### The generator -/

theorem onCurve_iff {x y : ℕ} :
    onCurve x y = true ↔ (y : Coordinate) ^ 2 = (x : Coordinate) ^ 3 + 7 := by
  have hsquare : ((mulMod fieldOrder y y : ℕ) : Coordinate) = (y : Coordinate) ^ 2 := by
    rw [cast_mulMod, sq]
  have hcube : (((mulMod fieldOrder (mulMod fieldOrder x x) x + 7) % fieldOrder : ℕ) : Coordinate) =
      (x : Coordinate) ^ 3 + 7 := by
    rw [ZMod.natCast_mod, Nat.cast_add, cast_mulMod, cast_mulMod, Nat.cast_ofNat, pow_succ, sq]
  rw [onCurve, beq_iff_eq, ← hsquare, ← hcube]
  exact ⟨congrArg _, eq_of_cast_eq (mulMod_lt fieldOrder_pos _ _) (Nat.mod_lt _ fieldOrder_pos)⟩

theorem generator_nonsingular :
    curve.Nonsingular (Point.generator.x : Coordinate) (Point.generator.y : Coordinate) :=
  curve_nonsingular_iff.mpr (onCurve_iff.mp (by decide +kernel))

/-- The generator as a point of the curve. -/
def base : CurvePoint := .some _ _ generator_nonsingular

theorem standsFor_generator : StandsFor Point.generator base :=
  standsFor_ofAffine rfl rfl generator_nonsingular

theorem groupOrder_nsmul_base : groupOrder • base = 0 :=
  (standsFor_generator.scale (by decide)).isInfinity_iff.mp (by decide +kernel)

theorem addOrderOf_base : addOrderOf base = groupOrder :=
  addOrderOf_eq_prime groupOrder_nsmul_base
    (some_ne_zero generator_nonsingular)

/-! ### Its multiples -/

abbrev Scalar := ZMod groupOrder

/-- The multiples of the generator. -/
def multiples : Scalar →+ CurvePoint :=
  ZMod.lift groupOrder ⟨zmultiplesHom CurvePoint base, by
    rw [zmultiplesHom_apply, natCast_zsmul, groupOrder_nsmul_base]⟩

theorem multiples_natCast (k : ℕ) : multiples (k : Scalar) = k • base := by
  rw [← Int.cast_natCast, multiples, ZMod.lift_coe]
  exact natCast_zsmul base k

theorem groupOrder_pos : 0 < groupOrder := by decide

theorem scalar_ne_zero {k : ℕ} (hpos : 0 < k) (hlt : k < groupOrder) : (k : Scalar) ≠ 0 := by
  rw [Ne, ZMod.natCast_eq_zero_iff]
  exact Nat.not_dvd_of_pos_of_lt hpos hlt

theorem multiples_eq_zero_iff {k : Scalar} : multiples k = 0 ↔ k = 0 := by
  have hdvd : addOrderOf base ∣ k.val ↔ k.val • base = 0 := addOrderOf_dvd_iff_nsmul_eq_zero
  rw [addOrderOf_base] at hdvd
  rw [← ZMod.natCast_zmod_val k, multiples_natCast, ZMod.natCast_eq_zero_iff, hdvd]

/-- Each multiple but infinity has coordinates. -/
theorem exists_multiples {k : Scalar} (hk : k ≠ 0) :
    ∃ x y, ∃ h : curve.Nonsingular x y, multiples k = .some x y h := by
  match hpoint : multiples k with
  | .zero => exact absurd (multiples_eq_zero_iff.mp hpoint) hk
  | .some x y h => exact ⟨x, y, h, rfl⟩

/-- No multiple is its own opposite, so none has a zero ordinate. -/
theorem ordinate_ne_zero {k : Scalar} {x y : Coordinate} {h : curve.Nonsingular x y}
    (hpoint : multiples k = .some x y h) : y ≠ 0 := by
  rintro rfl
  have hself : (0 : Coordinate) = curve.negY x 0 := by rw [curve_negY, neg_zero]
  have hdouble : multiples (k + k) = 0 := by rw [map_add, hpoint, add_self_of_Y_eq hself]
  have htwo : (2 : Scalar) ≠ 0 := scalar_ne_zero (k := 2) (by decide) (by decide)
  rw [multiples_eq_zero_iff, ← two_mul, mul_eq_zero, or_iff_right htwo,
    ← multiples_eq_zero_iff, hpoint] at hdouble
  exact some_ne_zero h hdouble

/-- The opposite factor gives the opposite ordinate. -/
theorem multiples_neg {k : Scalar} {x y : Coordinate} {h : curve.Nonsingular x y}
    (hpoint : multiples k = .some x y h) :
    ∃ h : curve.Nonsingular x (-y), multiples (-k) = .some x (-y) h := by
  have hopposite : curve.Nonsingular x (-y) := by
    rw [curve_nonsingular_iff, neg_sq]
    exact curve_nonsingular_iff.mp h
  refine ⟨hopposite, ?_⟩
  rw [map_neg, hpoint, neg_some]
  simp only [curve_negY]

/-! ### Coordinates of multiples -/

/-- The multiple of the generator by a number. -/
theorem standsFor_scale_generator {k : ℕ} (hk : k < groupOrder) :
    StandsFor (Point.generator.scale k) (multiples k) := by
  rw [multiples_natCast]
  exact standsFor_generator.scale (lt_trans hk (by decide))

/-- The multiple of a multiple. -/
theorem StandsFor.scale_multiples {p : Point} {a : Scalar} (h : StandsFor p (multiples a)) {k : ℕ}
    (hk : k < groupOrder) : StandsFor (p.scale k) (multiples (k * a)) := by
  rw [← nsmul_eq_mul, map_nsmul]
  exact h.scale (lt_trans hk (by decide))

/-- The sum of a multiple of the generator and one of another point. -/
theorem standsFor_combination {p : Point} {a : Scalar} (h : StandsFor p (multiples a)) {k l : ℕ}
    (hk : k < groupOrder) (hl : l < groupOrder) :
    StandsFor ((Point.generator.scale k).add (p.scale l)) (multiples (k + l * a)) := by
  rw [map_add]
  exact (standsFor_scale_generator hk).add (h.scale_multiples hl)

end TokenApproval.Secp256k1
