import Keyring.Proofs.Curve.Field
import Mathlib.AlgebraicGeometry.EllipticCurve.Affine.Point

/-!
# Coordinates compute in the group of the curve

Mathlib has the points of `y² = x³ + 7` as a commutative group. `Weighted.Represents` says which
element of it some coordinates stand for. Doubling and addition keep this relation
(`represents_double`, `represents_add`), in all cases and not only for points in general position,
so multiples are those of the group.
-/

namespace Keyring.Curve

open WeierstrassCurve WeierstrassCurve.Affine Residue

/-- The curve `y² = x³ + 7`. -/
def secp : WeierstrassCurve.Affine (ZMod prime) := ⟨0, 0, 0, 0, 7⟩

theorem negY_secp (x y : ZMod prime) : secp.negY x y = -y := by
  simp [negY, secp]

theorem nonsingular_secp {x y : ZMod prime} : secp.Nonsingular x y ↔ y * y = x * x * x + 7 := by
  have hΔ : secp.Δ ≠ 0 := by
    have h : secp.Δ = -((21168 : ℕ) : ZMod prime) := by
      simp only [Δ, b₂, b₄, b₆, b₈, secp]
      norm_num
    rw [h, neg_ne_zero, Ne, ZMod.natCast_eq_zero_iff]
    decide
  rw [← equation_iff_nonsingular_of_Δ_ne_zero hΔ, equation_iff]
  simp [secp, pow_succ]

theorem two_ne_zero : (2 : ZMod prime) ≠ 0 := by
  have h : ((2 : ℕ) : ZMod prime) ≠ 0 := by
    rw [Ne, ZMod.natCast_eq_zero_iff]
    decide
  exact_mod_cast h

/-! ### Coordinates -/

namespace Weighted

/-- The element of the group that coordinates stand for. -/
def Represents (p : Weighted) : secp.Point → Prop
  | .zero => p.z = 0
  | .some x y _ => p.z ≠ 0 ∧ toZMod p.x = x * toZMod p.z ^ 2 ∧ toZMod p.y = y * toZMod p.z ^ 3

theorem represents_zero {p : Weighted} : p.Represents 0 ↔ p.z = 0 := Iff.rfl

theorem represents_some {p : Weighted} {x y : ZMod prime} {h : secp.Nonsingular x y} :
    p.Represents (.some x y h) ↔
      toZMod p.z ≠ 0 ∧ toZMod p.x = x * toZMod p.z ^ 2 ∧ toZMod p.y = y * toZMod p.z ^ 3 := by
  rw [map_ne_zero_iff toZMod toZMod.injective]
  rfl

/-- The third point on a line of slope `ℓ` through two points, reflected, is their sum. -/
theorem represents_some_add_some {p : Weighted} {x₁ y₁ x₂ y₂ ℓ x : ZMod prime}
    (h₁ : secp.Nonsingular x₁ y₁) (h₂ : secp.Nonsingular x₂ y₂) (hne : ¬(x₁ = x₂ ∧ y₁ = -y₂))
    (hℓ : secp.slope x₁ x₂ y₁ y₂ = ℓ) (hx : x = ℓ ^ 2 - x₁ - x₂) (hz : toZMod p.z ≠ 0)
    (hpx : toZMod p.x = x * toZMod p.z ^ 2)
    (hpy : toZMod p.y = (ℓ * (x₁ - x) - y₁) * toZMod p.z ^ 3) :
    p.Represents (.some x₁ y₁ h₁ + .some x₂ y₂ h₂) := by
  rw [← negY_secp x₂ y₂] at hne
  have haddX : secp.addX x₁ x₂ ℓ = x := by simp [secp, hx]
  have haddY : secp.addY x₁ x₂ y₁ ℓ = ℓ * (x₁ - x) - y₁ := by
    rw [addY, negY_secp, negAddY, haddX]
    ring
  rw [Affine.Point.add_some hne, represents_some, hℓ, haddX, haddY]
  exact ⟨hz, hpx, hpy⟩

/-- Doubling coordinates doubles the element they stand for. -/
theorem represents_double {p : Weighted} {P : secp.Point} (h : p.Represents P) :
    p.double.Represents (P + P) := by
  cases P with
  | zero =>
    have hpz : p.z = 0 := h
    show p.double.z = 0
    rw [double, hpz, mul_zero]
  | some x y hns =>
    obtain ⟨hpz, hpx, hpy⟩ := represents_some.1 h
    have hz : toZMod p.double.z = 2 * y * toZMod p.z ^ 4 := by
      simp only [double, map_mul, toZMod_ofNat, hpy]
      ring
    by_cases hy : y = 0
    · rw [Affine.Point.add_self_of_Y_eq (by rw [negY_secp, hy, neg_zero]), represents_zero,
        ← map_eq_zero_iff toZMod toZMod.injective, hz, hy, mul_zero, zero_mul]
    · have h2y : 2 * y ≠ 0 := mul_ne_zero two_ne_zero hy
      have hyy : y ≠ -y := fun h => h2y (by rw [two_mul, ← eq_neg_iff_add_eq_zero, ← h])
      have hslope : secp.slope x x y y * (2 * y) = 3 * x ^ 2 := by
        rw [slope_of_Y_ne rfl (by rwa [negY_secp]), negY_secp, div_mul_eq_mul_div, sub_neg_eq_add,
          ← two_mul]
        simp [secp, h2y]
      have hz0 : toZMod p.double.z ≠ 0 := by
        rw [hz]
        exact mul_ne_zero h2y (pow_ne_zero 4 hpz)
      refine represents_some_add_some hns hns (fun h => hyy h.2) rfl rfl hz0 ?_ ?_
      · rw [hz]
        simp only [double, map_mul, map_sub, toZMod_ofNat, hpx, hpy]
        linear_combination (-toZMod p.z ^ 8 * (3 * x ^ 2 + secp.slope x x y y * (2 * y))) * hslope
      · rw [hz]
        simp only [double, map_mul, map_sub, toZMod_ofNat, hpx, hpy]
        generalize secp.slope x x y y = ℓ at hslope ⊢
        have hm : 3 * (x * toZMod p.z ^ 2 * (x * toZMod p.z ^ 2)) =
            ℓ * (2 * y * toZMod p.z ^ 4) := by
          linear_combination (-toZMod p.z ^ 4) * hslope
        rw [hm]
        ring

/-- The sum of points with different first coordinates. -/
def chord (p q : Weighted) : Weighted :=
  let u₁ := p.x * (q.z * q.z)
  let h := q.x * (p.z * p.z) - u₁
  let s₁ := p.y * (q.z * q.z * q.z)
  let r := q.y * (p.z * p.z * p.z) - s₁
  let v := u₁ * (h * h)
  let x := r * r - h * h * h - 2 * v
  ⟨x, r * (v - x) - s₁ * (h * h * h), h * p.z * q.z⟩

theorem add_eq (p q : Weighted) : add p q =
    if p.z = 0 then q
    else if q.z = 0 then p
    else if p.x * (q.z * q.z) = q.x * (p.z * p.z) then
      if p.y * (q.z * q.z * q.z) = q.y * (p.z * p.z * p.z) then double p else neutral
    else chord p q := rfl

section Add

variable {p q : Weighted} {x₁ y₁ x₂ y₂ : ZMod prime} {h₁ : secp.Nonsingular x₁ y₁}
  {h₂ : secp.Nonsingular x₂ y₂}

/-- The chord through points with different first coordinates. -/
theorem represents_chord (hp : p.Represents (.some x₁ y₁ h₁)) (hq : q.Represents (.some x₂ y₂ h₂))
    (hx : x₁ ≠ x₂) : (p.chord q).Represents (.some x₁ y₁ h₁ + .some x₂ y₂ h₂) := by
  obtain ⟨hpz, hpx, hpy⟩ := represents_some.1 hp
  obtain ⟨hqz, hqx, hqy⟩ := represents_some.1 hq
  have hsub : x₁ - x₂ ≠ 0 := sub_ne_zero.2 hx
  have hslope : secp.slope x₁ x₂ y₁ y₂ * (x₁ - x₂) = y₁ - y₂ := by
    rw [slope_of_X_ne hx, div_mul_cancel₀ _ hsub]
  have hz : toZMod (p.chord q).z = (x₂ - x₁) * (toZMod p.z * toZMod q.z) ^ 3 := by
    simp only [chord, map_mul, map_sub, hpx, hqx]
    ring
  have hz0 : toZMod (p.chord q).z ≠ 0 := by
    rw [hz]
    exact mul_ne_zero (sub_ne_zero.2 hx.symm) (pow_ne_zero 3 (mul_ne_zero hpz hqz))
  have hr : y₂ * toZMod q.z ^ 3 * (toZMod p.z * toZMod p.z * toZMod p.z) -
      y₁ * toZMod p.z ^ 3 * (toZMod q.z * toZMod q.z * toZMod q.z) =
        secp.slope x₁ x₂ y₁ y₂ * ((x₂ - x₁) * (toZMod p.z * toZMod q.z) ^ 3) := by
    linear_combination (toZMod p.z * toZMod q.z) ^ 3 * hslope
  refine represents_some_add_some h₁ h₂ (fun h => hx h.1) rfl rfl hz0 ?_ ?_
  · simp only [chord, map_mul, map_sub, toZMod_ofNat, hpx, hpy, hqx, hqy, hr]
    ring
  · simp only [chord, map_mul, map_sub, toZMod_ofNat, hpx, hpy, hqx, hqy, hr]
    ring

theorem cross_x_eq_iff (hp : p.Represents (.some x₁ y₁ h₁)) (hq : q.Represents (.some x₂ y₂ h₂)) :
    p.x * (q.z * q.z) = q.x * (p.z * p.z) ↔ x₁ = x₂ := by
  obtain ⟨hpz, hpx, -⟩ := represents_some.1 hp
  obtain ⟨hqz, hqx, -⟩ := represents_some.1 hq
  have hl : toZMod (p.x * (q.z * q.z)) = x₁ * (toZMod p.z * toZMod q.z) ^ 2 := by
    rw [map_mul, map_mul, hpx]
    ring
  have hr : toZMod (q.x * (p.z * p.z)) = x₂ * (toZMod p.z * toZMod q.z) ^ 2 := by
    rw [map_mul, map_mul, hqx]
    ring
  rw [← toZMod.injective.eq_iff, hl, hr, mul_left_inj' (pow_ne_zero 2 (mul_ne_zero hpz hqz))]

theorem cross_y_eq_iff (hp : p.Represents (.some x₁ y₁ h₁)) (hq : q.Represents (.some x₂ y₂ h₂)) :
    p.y * (q.z * q.z * q.z) = q.y * (p.z * p.z * p.z) ↔ y₁ = y₂ := by
  obtain ⟨hpz, -, hpy⟩ := represents_some.1 hp
  obtain ⟨hqz, -, hqy⟩ := represents_some.1 hq
  have hl : toZMod (p.y * (q.z * q.z * q.z)) = y₁ * (toZMod p.z * toZMod q.z) ^ 3 := by
    rw [map_mul, map_mul, map_mul, hpy]
    ring
  have hr : toZMod (q.y * (p.z * p.z * p.z)) = y₂ * (toZMod p.z * toZMod q.z) ^ 3 := by
    rw [map_mul, map_mul, map_mul, hqy]
    ring
  rw [← toZMod.injective.eq_iff, hl, hr, mul_left_inj' (pow_ne_zero 3 (mul_ne_zero hpz hqz))]

end Add

/-- Adding coordinates adds the elements they stand for, also in the special cases. -/
theorem represents_add {p q : Weighted} {P Q : secp.Point} (hp : p.Represents P)
    (hq : q.Represents Q) : (p.add q).Represents (P + Q) := by
  rw [add_eq]
  cases P with
  | zero =>
    have hpz : p.z = 0 := hp
    rw [if_pos hpz]
    rwa [← Affine.Point.zero_def, zero_add]
  | some x₁ y₁ h₁ =>
    rw [if_neg hp.1]
    cases Q with
    | zero =>
      have hqz : q.z = 0 := hq
      rw [if_pos hqz]
      exact hp
    | some x₂ y₂ h₂ =>
      simp only [if_neg hq.1, cross_x_eq_iff hp hq, cross_y_eq_iff hp hq]
      split_ifs with hx hy
      · subst hx hy
        exact represents_double hp
      · -- The coordinates differ in sign only, since both satisfy the equation.
        subst hx
        have hsq : y₁ * y₁ = y₂ * y₂ := (nonsingular_secp.1 h₁).trans (nonsingular_secp.1 h₂).symm
        have hneg : y₁ = -y₂ := (mul_self_eq_mul_self_iff.1 hsq).resolve_left hy
        rw [Affine.Point.add_of_Y_eq rfl (by rw [negY_secp, hneg]), represents_zero]
        rfl
      · exact represents_chord hp hq hx

theorem represents_multiple {p : Weighted} {P : secp.Point} (h : p.Represents P) (k : ℕ) :
    (p.multiple k).Represents (k • P) := by
  refine Radix.foldl_digits (b := 2) (R := fun n q => Represents q (n • P)) le_rfl ?_ ?_ k
  · rw [zero_nsmul]
    rfl
  · intro n q d hd hq
    have hdouble : q.double.Represents ((n * 2) • P) := by
      rw [mul_comm, two_mul, add_nsmul]
      exact represents_double hq
    obtain rfl | rfl : d = 0 ∨ d = 1 := by omega
    · exact hdouble
    · rw [if_pos rfl, add_nsmul, one_nsmul]
      exact represents_add hdouble h

end Weighted

/-! ### Points -/

namespace Point

/-- The element of the group that a point is. -/
def Denotes : Point → secp.Point → Prop
  | neutral, P => P = 0
  | affine x y, P => ∃ h, P = .some (toZMod x) (toZMod y) h

/-- Every point of the curve is an element of the group. -/
theorem exists_denotes {p : Point} (h : p.OnCurve) : ∃ P, p.Denotes P := by
  cases p with
  | neutral => exact ⟨0, rfl⟩
  | affine x y =>
    have heq : y * y = x * x * x + 7 := h
    have hns : secp.Nonsingular (toZMod x) (toZMod y) := by
      rw [nonsingular_secp, ← map_mul, heq, map_add, map_mul, map_mul, toZMod_ofNat]
    exact ⟨_, hns, rfl⟩

theorem onCurve_of_denotes {p : Point} {P : secp.Point} (h : p.Denotes P) : p.OnCurve := by
  cases p with
  | neutral => trivial
  | affine x y =>
    obtain ⟨hns, -⟩ := h
    refine toZMod.injective ?_
    rw [map_mul, nonsingular_secp.1 hns, map_add, map_mul, map_mul, toZMod_ofNat]

theorem eq_of_denotes {p q : Point} {P : secp.Point} (hp : p.Denotes P) (hq : q.Denotes P) :
    p = q := by
  cases p with
  | neutral =>
    obtain rfl : P = 0 := hp
    cases q with
    | neutral => rfl
    | affine x y =>
      obtain ⟨h, heq⟩ := hq
      exact absurd heq.symm (Affine.Point.some_ne_zero h)
  | affine x₁ y₁ =>
    obtain ⟨h₁, rfl⟩ := hp
    cases q with
    | neutral => exact absurd hq (Affine.Point.some_ne_zero h₁)
    | affine x₂ y₂ =>
      obtain ⟨h₂, heq⟩ := hq
      obtain ⟨hx, hy⟩ := Affine.Point.some.inj heq
      rw [toZMod.injective hx, toZMod.injective hy]

theorem represents_ofPoint {p : Point} {P : secp.Point} (h : p.Denotes P) :
    (Weighted.ofPoint p).Represents P := by
  cases p with
  | neutral =>
    obtain rfl : P = 0 := h
    rfl
  | affine x y =>
    obtain ⟨h, rfl⟩ := h
    rw [Weighted.represents_some]
    simp [Weighted.ofPoint]

theorem denotes_toPoint {p : Weighted} {P : secp.Point} (h : p.Represents P) :
    p.toPoint.Denotes P := by
  rw [Weighted.toPoint]
  cases P with
  | zero =>
    rw [if_pos (show p.z = 0 from h)]
    rfl
  | some x y hns =>
    obtain ⟨hz, hx, hy⟩ := Weighted.represents_some.1 h
    rw [if_neg h.1]
    have hx' : toZMod (p.x * (p.z.inverse * p.z.inverse)) = x := by
      rw [map_mul, map_mul, toZMod_inverse, hx]
      field_simp
    have hy' : toZMod (p.y * (p.z.inverse * p.z.inverse * p.z.inverse)) = y := by
      rw [map_mul, map_mul, map_mul, toZMod_inverse, hy]
      field_simp
    subst hx' hy'
    exact ⟨hns, rfl⟩

/-- The multiple of a point of the curve is its multiple in the group. -/
theorem denotes_multiple {p : Point} {P : secp.Point} (h : p.Denotes P) (k : ℕ) :
    (p.multiple k).Denotes (k • P) :=
  denotes_toPoint (Weighted.represents_multiple (represents_ofPoint h) k)

end Point

end Keyring.Curve
