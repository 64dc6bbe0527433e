import Keyring.Proofs.Curve.Point
import Mathlib.GroupTheory.Perm.Cycle.Type

/-!
# Every point has the order of the base point

The sum `x³ + 7` is never zero, so no point has order two (`cube_add_seven_ne_zero`). A point is
determined by its first coordinate and the parity of the second, so there are fewer than three times
as many as the order of the base point, which divides their number. Hence the group has this prime
order (`card_group`), and a scalar below it makes no proper point neutral.
-/

namespace Keyring.Curve

open Residue

/-! ### No point of order two -/

/-- Minus seven is not a cube: its power to a third of `prime - 1` is not one. -/
theorem cube_add_seven_ne_zero (x : Residue) : x * x * x + 7 ≠ 0 := by
  intro h
  have hcube : toZMod (-7) = toZMod x ^ 3 := by
    rw [← eq_neg_of_add_eq_zero_left h, map_mul, map_mul]
    ring
  have hx : toZMod x ≠ 0 := by
    intro hx
    rw [hx, zero_pow three_ne_zero, map_eq_zero_iff toZMod toZMod.injective] at hcube
    exact absurd hcube (by decide +kernel)
  have hpower : power (-7) ((prime - 1) / 3) = 1 := by
    refine toZMod.injective ?_
    rw [toZMod_power, hcube, ← pow_mul, show 3 * ((prime - 1) / 3) = prime - 1 by decide,
      ZMod.pow_card_sub_one_eq_one hx, map_one]
  exact absurd hpower (by decide +kernel)

theorem Point.OnCurve.ne_zero {x y : Residue} (h : (Point.affine x y).OnCurve) : y ≠ 0 := by
  rintro rfl
  have heq : 0 * 0 = x * x * x + 7 := h
  exact cube_add_seven_ne_zero x (heq ▸ mul_zero 0)

namespace Point

/-! ### The number of points -/

/-- A point as first coordinate and parity of the second. -/
def code : Point → Option (Residue × Bool)
  | neutral => none
  | affine x y => some (x, y.isOdd)

/-- The first coordinate and the parity of the second determine a point. -/
theorem eq_of_code {p q : Point} (hp : p.OnCurve) (hq : q.OnCurve) (h : p.code = q.code) :
    p = q := by
  cases p with
  | neutral =>
    cases q with
    | neutral => rfl
    | affine x y => exact (nomatch h)
  | affine x₁ y₁ =>
    cases q with
    | neutral => exact (nomatch h)
    | affine x₂ y₂ =>
      obtain ⟨rfl, hodd⟩ := Prod.mk.inj (Option.some.inj h)
      have hlift := lift?_isOdd hp
      rw [hodd, lift?_isOdd hq] at hlift
      exact (Option.some.inj hlift).symm

/-- The point that an element of the group is. -/
def ofGroup : secp.Point → Point
  | .zero => neutral
  | .some x y _ => affine (toZMod.symm x) (toZMod.symm y)

theorem denotes_ofGroup (P : secp.Point) : (ofGroup P).Denotes P := by
  cases P with
  | zero => rfl
  | some x y h =>
    have hx : toZMod (toZMod.symm x) = x := toZMod.apply_symm_apply x
    have hy : toZMod (toZMod.symm y) = y := toZMod.apply_symm_apply y
    unfold ofGroup Denotes
    simp only [hx, hy]
    exact ⟨h, trivial⟩

theorem ofGroup_injective : Function.Injective ofGroup := by
  intro P Q h
  cases P with
  | zero =>
    cases Q with
    | zero => rfl
    | some x y _ => exact (nomatch h)
  | some x₁ y₁ _ =>
    cases Q with
    | zero => exact (nomatch h)
    | some x₂ y₂ _ =>
      obtain ⟨hx, hy⟩ := Point.affine.inj h
      obtain rfl := toZMod.symm.injective hx
      obtain rfl := toZMod.symm.injective hy
      rfl

theorem code_ofGroup_injective : Function.Injective fun P => (ofGroup P).code := fun P Q h =>
  ofGroup_injective
    (eq_of_code (onCurve_of_denotes (denotes_ofGroup P)) (onCurve_of_denotes (denotes_ofGroup Q)) h)

end Point

instance : Finite secp.Point :=
  Finite.of_injective _ Point.code_ofGroup_injective

/-- There are at most two points for each first coordinate, besides the neutral element. -/
theorem card_group_le : Nat.card secp.Point ≤ 2 * prime + 1 := by
  have hle := Nat.card_le_card_of_injective _ Point.code_ofGroup_injective
  have hcodes : Nat.card (Option (Residue × Bool)) = prime * 2 + 1 := by
    rw [Nat.card_eq_fintype_card, Fintype.card_option, Fintype.card_prod, Fintype.card_fin,
      Fintype.card_bool]
  rw [hcodes] at hle
  omega

theorem not_two_dvd_card_group : ¬2 ∣ Nat.card secp.Point := by
  intro h
  obtain ⟨P, hP⟩ := exists_prime_addOrderOf_dvd_card' 2 h
  cases P with
  | zero =>
    rw [← WeierstrassCurve.Affine.Point.zero_def, addOrderOf_zero] at hP
    exact absurd hP (by decide)
  | some x y hns =>
    have hdouble : (2 : ℕ) • (WeierstrassCurve.Affine.Point.some x y hns) = 0 := by
      rw [← hP, addOrderOf_nsmul_eq_zero]
    -- A point that is its own negative has second coordinate zero.
    have hneg := eq_neg_of_add_eq_zero_left ((two_nsmul _).symm.trans hdouble)
    rw [WeierstrassCurve.Affine.Point.neg_some] at hneg
    obtain ⟨-, hy⟩ := WeierstrassCurve.Affine.Point.some.inj hneg
    rw [negY_secp] at hy
    have hzero : y = 0 := by
      have h2y : 2 * y = 0 := by rw [two_mul, ← eq_neg_iff_add_eq_zero, ← hy]
      exact (mul_eq_zero.1 h2y).resolve_left two_ne_zero
    have hcurve : (Point.ofGroup (.some x y hns)).OnCurve :=
      Point.onCurve_of_denotes (Point.denotes_ofGroup _)
    refine Point.OnCurve.ne_zero hcurve ?_
    rw [hzero, map_zero]

/-- The group has the order of the base point. -/
theorem card_group : Nat.card secp.Point = order := by
  obtain ⟨G, -, hord⟩ := exists_denotes_base
  obtain ⟨m, hm⟩ : order ∣ Nat.card secp.Point := hord ▸ addOrderOf_dvd_natCard G
  have hle := card_group_le
  have hodd := not_two_dvd_card_group
  have hpos : 0 < Nat.card secp.Point := Nat.card_pos
  have hbound : 2 * prime + 1 < order * 3 := by decide
  rw [hm] at hle hodd hpos
  have hlt : m < 3 := Nat.lt_of_mul_lt_mul_left (hle.trans_lt hbound)
  have hne : m ≠ 0 := by
    rintro rfl
    exact absurd hpos (by decide)
  have hne2 : m ≠ 2 := by
    rintro rfl
    exact hodd (Dvd.intro_left order rfl)
  obtain rfl : m = 1 := by omega
  rw [hm, mul_one]

namespace Point

/-- A usable scalar times a proper point of the curve is a proper point. -/
theorem multiple_ne_neutral {p : Point} (h : p.OnCurve) (hne : p ≠ .neutral) {k : ℕ}
    (hk : 0 < k ∧ k < order) : p.multiple k ≠ .neutral := by
  obtain ⟨P, hP⟩ := exists_denotes h
  have hP0 : P ≠ 0 := by
    rintro rfl
    exact hne (eq_of_denotes hP (rfl : neutral.Denotes 0))
  have hord : addOrderOf P = order := by
    refine addOrderOf_eq_prime ?_ hP0
    rw [← card_group]
    exact card_nsmul_eq_zero'
  rw [Ne, multiple_eq_neutral_iff hP, ← addOrderOf_dvd_iff_nsmul_eq_zero, hord]
  exact Nat.not_dvd_of_pos_of_lt hk.1 hk.2

/-! ### The compressed form -/

/-- The second coordinate that is lifted lies on the curve and has the parity that was asked for. -/
theorem lift?_eq_some {x : Residue} {odd : Bool} {p : Point} (h : lift? x odd = some p) :
    ∃ y, p = affine x y ∧ p.OnCurve ∧ y.isOdd = odd := by
  unfold lift? at h
  obtain ⟨y, hy, rfl⟩ := Option.map_eq_some_iff.1 h
  have hcurve : (affine x y).OnCurve := sqrt?_sq hy
  have hneg : (affine x (-y)).OnCurve := by
    show -y * -y = x * x * x + 7
    rw [neg_mul_neg]
    exact hcurve
  by_cases hodd : y.isOdd = odd
  · rw [if_pos hodd]
    exact ⟨y, rfl, hcurve, hodd⟩
  · rw [if_neg hodd]
    refine ⟨-y, rfl, hneg, ?_⟩
    rw [isOdd_neg hcurve.ne_zero]
    exact Bool.not_eq.2 hodd

/-- Bytes are read as a point exactly if they are the compressed form of that point. -/
theorem decompress?_eq_some {bs : Bytes} {p : Point} :
    decompress? bs = some p ↔ p.OnCurve ∧ p ≠ .neutral ∧ p.compress = bs := by
  constructor
  · intro h
    cases bs with
    | nil => exact (nomatch h)
    | cons m bs =>
      unfold decompress? at h
      obtain ⟨⟨hlen, hm⟩, h⟩ := Option.ite_none_right_eq_some.1 h
      obtain ⟨x, hx, hlift⟩ := Option.bind_eq_some_iff.1 h
      obtain ⟨y, rfl, hcurve, hodd⟩ := lift?_eq_some hlift
      refine ⟨hcurve, Point.noConfusion, ?_⟩
      have hmarker : marker y.isOdd = m := by
        rw [hodd]
        rcases hm with rfl | rfl <;> rfl
      rw [compress, hmarker, toBytes_ofBytes? hlen hx]
  · rintro ⟨hcurve, hne, rfl⟩
    exact decompress?_compress hcurve hne

end Point

end Keyring.Curve
