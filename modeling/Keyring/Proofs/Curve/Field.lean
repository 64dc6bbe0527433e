import Keyring.Proofs.Bytes
import Keyring.Proofs.Curve.Prime

/-!
# The residues are a field

`Residue.toZMod` carries the residues over to Mathlib's field of the same size. Powers, inverses and
square roots of residues are those of the field there.

* `toZMod_power`, `toZMod_inverse`: powers and inverses.
* `sqrt?_mul_self`: a square has a root, the one that it is the square of or its negative.
* `isOdd_neg`: of a residue and its negative exactly one is odd, unless both are zero.
-/

namespace Keyring.Curve

instance : Fact prime.Prime := ⟨prime_prime⟩

namespace Residue

/-- The residues as a field. -/
def toZMod : Residue ≃+* ZMod prime := ZMod.finEquiv prime

theorem finEquiv_eq_natCast {n : ℕ} [NeZero n] (x : Fin n) :
    ZMod.finEquiv n x = (x.val : ZMod n) := by
  cases n with
  | zero => exact absurd rfl (NeZero.ne 0)
  | succ n => exact (Fin.cast_val_eq_self x).symm

theorem toZMod_ofNat (n : ℕ) [n.AtLeastTwo] :
    toZMod (ofNat(n) : Residue) = (ofNat(n) : ZMod prime) := by
  rw [toZMod, finEquiv_eq_natCast, show (ofNat(n) : Residue).val = n % prime from rfl,
    ZMod.natCast_mod]
  rfl

/-! ### Powers -/

theorem toZMod_power (x : Residue) (e : ℕ) : toZMod (power x e) = toZMod x ^ e := by
  refine Radix.foldl_digits (b := 2) (R := fun n y => toZMod y = toZMod x ^ n) le_rfl ?_ ?_ e
  · rw [map_one, pow_zero]
  · intro n y d hd hy
    have hsq : toZMod (y * y) = toZMod x ^ (n * 2) := by rw [map_mul, hy, ← pow_two, pow_mul]
    obtain rfl | rfl : d = 0 ∨ d = 1 := by omega
    · exact hsq
    · rw [if_pos rfl, map_mul, hsq, pow_succ]

theorem toZMod_inverse (x : Residue) : toZMod (inverse x) = (toZMod x)⁻¹ := by
  rw [inverse, toZMod_power]
  by_cases hx : toZMod x = 0
  · rw [hx, zero_pow (by decide), inv_zero]
  · refine eq_inv_of_mul_eq_one_left ?_
    rw [← pow_succ, show prime - 2 + 1 = prime - 1 by decide]
    exact ZMod.pow_card_sub_one_eq_one hx

/-! ### Square roots -/

theorem mul_self_eq_iff {x y : Residue} : x * x = y * y ↔ x = y ∨ x = -y := by
  rw [← toZMod.injective.eq_iff, map_mul, map_mul, mul_self_eq_mul_self_iff, ← map_neg,
    toZMod.injective.eq_iff, toZMod.injective.eq_iff]

/-- The root of a square is found because the prime is one below a multiple of four. -/
theorem sqrt?_mul_self (y : Residue) : ∃ r, sqrt? (y * y) = some r ∧ (r = y ∨ r = -y) := by
  have hroot : power (y * y) ((prime + 1) / 4) * power (y * y) ((prime + 1) / 4) = y * y := by
    refine toZMod.injective ?_
    rw [map_mul, toZMod_power, map_mul]
    by_cases hy : toZMod y = 0
    · rw [hy, mul_zero, zero_pow (by decide), mul_zero]
    · have hexp : 2 * ((prime + 1) / 4 * 2) = prime - 1 + 2 := by decide
      rw [← pow_two, ← pow_two, ← pow_mul, ← pow_mul, hexp, pow_add,
        ZMod.pow_card_sub_one_eq_one hy, one_mul]
  exact ⟨_, by rw [sqrt?, if_pos hroot], mul_self_eq_iff.1 hroot⟩

/-! ### Representatives -/

theorem isOdd_neg {x : Residue} (h : x ≠ 0) : isOdd (-x) = !isOdd x := by
  have hval : (-x).val = prime - x.val := by
    rw [Fin.val_neg, if_neg h]
  have hpos : x.val ≠ 0 := fun h0 => h (Fin.ext h0)
  have hodd : prime % 2 = 1 := by decide
  have hlt := x.isLt
  rw [isOdd, isOdd, hval, ← decide_not]
  congr 1
  refine propext ?_
  omega

theorem ofBytes?_toBytes (x : Residue) : ofBytes? (toBytes x) = some x := by
  have hval : Bytes.toNat (toBytes x) = x.val := by
    rw [toBytes, Bytes.toNat_ofNat]
    exact Nat.mod_eq_of_lt (x.isLt.trans (by decide))
  simp only [ofBytes?, hval]
  rw [dif_pos x.isLt]

/-- A residue that was read from 32 bytes is written as these bytes. -/
theorem toBytes_ofBytes? {bs : Bytes} {x : Residue} (hlen : bs.length = 32)
    (h : ofBytes? bs = some x) : toBytes x = bs := by
  unfold ofBytes? at h
  split_ifs at h with hlt
  obtain rfl := Option.some.inj h
  exact Bytes.ofNat_toNat hlen

end Residue

end Keyring.Curve
