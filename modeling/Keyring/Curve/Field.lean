import Keyring.Bytes

/-!
# The field of the curve

`Residue` holds the residues modulo the prime 2^256 - 2^32 - 977. Powers go through the binary
digits of the exponent, inverses and square roots are powers.
-/

namespace Keyring.Curve

/-- The field prime. -/
def prime : Nat :=
  0xfffffffffffffffffffffffffffffffffffffffffffffffffffffffefffffc2f

instance : @NeZero Nat Zero.ofOfNat0 prime := ⟨by decide⟩

/-- An element of the field. -/
abbrev Residue := Fin prime

namespace Residue

/-- `x` to the power `e`. -/
def power (x : Residue) (e : Nat) : Residue :=
  (Radix.digits 2 e).foldl (fun y d => if d = 1 then y * y * x else y * y) 1

/-- The inverse of `x`, and zero for zero. -/
def inverse (x : Residue) : Residue :=
  power x (prime - 2)

/-- A square root, where there is one. -/
def sqrt? (x : Residue) : Option Residue :=
  let y := power x ((prime + 1) / 4)
  if y * y = x then some y else none

/-- Whether the least non-negative representative is odd. -/
def isOdd (x : Residue) : Bool :=
  x.val % 2 = 1

/-- The 32 bytes of the least non-negative representative. -/
def toBytes (x : Residue) : Bytes :=
  Bytes.ofNat 32 x.val

/-- The residue that a byte string spells, unless the number reaches the prime. -/
def ofBytes? (bs : Bytes) : Option Residue :=
  if h : bs.toNat < prime then some ⟨bs.toNat, h⟩ else none

/-- A root that is returned squares to its argument. -/
theorem sqrt?_sq {x y : Residue} (h : sqrt? x = some y) : y * y = x := by
  unfold sqrt? at h
  generalize power x ((prime + 1) / 4) = r at h
  by_cases hr : r * r = x
  · rw [if_pos hr] at h
    exact Option.some.inj h ▸ hr
  · rw [if_neg hr] at h
    exact absurd h (by simp)

end Residue

end Keyring.Curve
