import Keyring.Proofs.Curve.Group

/-!
# Multiples and compressed points

The points of the curve are a group, so multiples of multiples are multiples, and a multiple of the
base point is neutral only for multiples of the group order. A compressed form determines its point.
-/

namespace Keyring.Curve

namespace Point

theorem onCurve_multiple {p : Point} (h : p.OnCurve) (k : ℕ) : (p.multiple k).OnCurve := by
  obtain ⟨P, hP⟩ := exists_denotes h
  exact onCurve_of_denotes (denotes_multiple hP k)

/-- A multiple of a multiple, so two parties arrive at the same point. -/
theorem multiple_multiple {p : Point} (h : p.OnCurve) (a b : ℕ) :
    (p.multiple b).multiple a = p.multiple (a * b) := by
  obtain ⟨P, hP⟩ := exists_denotes h
  refine eq_of_denotes (denotes_multiple (denotes_multiple hP b) a) ?_
  rw [← mul_nsmul']
  exact denotes_multiple hP (a * b)

theorem multiple_eq_neutral_iff {p : Point} {P : secp.Point} (h : p.Denotes P) {k : ℕ} :
    p.multiple k = .neutral ↔ k • P = 0 := by
  constructor
  · intro hk
    have hn := denotes_multiple h k
    rwa [hk] at hn
  · intro hk
    exact eq_of_denotes (denotes_multiple h k) hk

end Point

/-! ### The base point -/

instance : Fact order.Prime := ⟨prime_order⟩

theorem onCurve_base : base.OnCurve := by
  decide +kernel

theorem multiple_order_base : base.multiple order = .neutral := by
  decide +kernel

/-- The element of the group that the base point is has the group order. -/
theorem exists_denotes_base : ∃ G, base.Denotes G ∧ addOrderOf G = order := by
  obtain ⟨G, hG⟩ := Point.exists_denotes onCurve_base
  have hne : G ≠ 0 := by
    obtain ⟨h, rfl⟩ := hG
    exact WeierstrassCurve.Affine.Point.some_ne_zero h
  exact ⟨G, hG, addOrderOf_eq_prime ((Point.multiple_eq_neutral_iff hG).1 multiple_order_base) hne⟩

/-- A multiple of the base point is neutral only for multiples of the group order. -/
theorem multiple_base_eq_neutral {k : ℕ} : base.multiple k = .neutral ↔ order ∣ k := by
  obtain ⟨G, hG, hord⟩ := exists_denotes_base
  rw [Point.multiple_eq_neutral_iff hG, ← addOrderOf_dvd_iff_nsmul_eq_zero, hord]

theorem multiple_base_ne_neutral {k : ℕ} (h : 0 < k ∧ k < order) : base.multiple k ≠ .neutral := by
  rw [Ne, multiple_base_eq_neutral]
  exact Nat.not_dvd_of_pos_of_lt h.1 h.2

/-- Scalars below the order do not cancel each other. -/
theorem multiple_mul_base_ne_neutral {a b : ℕ} (ha : 0 < a ∧ a < order) (hb : 0 < b ∧ b < order) :
    base.multiple (a * b) ≠ .neutral := by
  rw [Ne, multiple_base_eq_neutral, prime_order.dvd_mul]
  rintro (h | h)
  · exact Nat.not_dvd_of_pos_of_lt ha.1 ha.2 h
  · exact Nat.not_dvd_of_pos_of_lt hb.1 hb.2 h

/-! ### The compressed form -/

theorem marker_eq_three (odd : Bool) : (marker odd = 3 : Bool) = odd := by
  cases odd <;> rfl

theorem lift?_isOdd {x y : Residue} (h : (Point.affine x y).OnCurve) :
    lift? x y.isOdd = some (.affine x y) := by
  have heq : x * x * x + 7 = y * y := h.symm
  obtain ⟨r, hr, hry⟩ := Residue.sqrt?_mul_self y
  rw [lift?, heq, hr, Option.map_some]
  rcases hry with rfl | rfl
  · rw [if_pos rfl]
  · by_cases hy : y = 0
    · subst hy
      simp
    · rw [if_neg (by rw [Residue.isOdd_neg hy]; simp), neg_neg]

/-- The compressed form of a point is read back as that point. -/
theorem Point.decompress?_compress {p : Point} (h : p.OnCurve) (hne : p ≠ .neutral) :
    decompress? p.compress = some p := by
  cases p with
  | neutral => exact absurd rfl hne
  | affine x y =>
    have hlen : x.toBytes.length = 32 := Bytes.length_ofNat 32 _
    have hmarker : marker y.isOdd = 2 ∨ marker y.isOdd = 3 := by
      cases y.isOdd <;> simp [marker]
    rw [compress, decompress?, if_pos ⟨hlen, hmarker⟩, Residue.ofBytes?_toBytes, Option.bind_some,
      marker_eq_three, lift?_isOdd h]

end Keyring.Curve
