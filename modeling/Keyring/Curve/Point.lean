import Keyring.Curve.Field

/-!
# Points of the curve y² = x³ + 7

`Point` is the group with its neutral element; `Weighted` holds a point by coordinates X/Z², Y/Z³
that need no division, with Z = 0 for the neutral element. Multiples are formed there by doubling
and adding along the binary digits of the factor. `compress` and `decompress?` write and read the
33-byte form.
-/

namespace Keyring.Curve

/-- A point of the plane, or the neutral element. -/
inductive Point
  | neutral
  | affine (x y : Residue)
  deriving DecidableEq

/-- Whether a point satisfies the curve equation. -/
def Point.OnCurve : Point → Prop
  | .neutral => True
  | .affine x y => y * y = x * x * x + 7

instance (p : Point) : Decidable p.OnCurve := by
  cases p <;> unfold Point.OnCurve <;> infer_instance

/-! ### Coordinates without division -/

/-- The point (X/Z², Y/Z³), or the neutral element if Z is zero. -/
structure Weighted where
  x : Residue
  y : Residue
  z : Residue
  deriving DecidableEq

namespace Weighted

/-- The neutral element. -/
def neutral : Weighted := ⟨1, 1, 0⟩

/-- Coordinates of a point. -/
def ofPoint : Point → Weighted
  | .neutral => neutral
  | .affine x y => ⟨x, y, 1⟩

/-- The point with these coordinates. -/
def toPoint (p : Weighted) : Point :=
  if p.z = 0 then .neutral
  else
    let w := p.z.inverse
    .affine (p.x * (w * w)) (p.y * (w * w * w))

/-- Twice a point. -/
def double (p : Weighted) : Weighted :=
  let yy := p.y * p.y
  let s := 4 * p.x * yy
  let m := 3 * (p.x * p.x)
  let x := m * m - 2 * s
  ⟨x, m * (s - x) - 8 * (yy * yy), 2 * p.y * p.z⟩

/-- The sum of two points. -/
def add (p q : Weighted) : Weighted :=
  if p.z = 0 then q
  else if q.z = 0 then p
  else
    let pzz := p.z * p.z
    let qzz := q.z * q.z
    let u₁ := p.x * qzz
    let u₂ := q.x * pzz
    let s₁ := p.y * (qzz * q.z)
    let s₂ := q.y * (pzz * p.z)
    if u₁ = u₂ then
      if s₁ = s₂ then double p else neutral
    else
      let h := u₂ - u₁
      let r := s₂ - s₁
      let hh := h * h
      let hhh := hh * h
      let v := u₁ * hh
      let x := r * r - hhh - 2 * v
      ⟨x, r * (v - x) - s₁ * hhh, h * p.z * q.z⟩

/-- `k` times a point. -/
def multiple (k : Nat) (p : Weighted) : Weighted :=
  (Radix.digits 2 k).foldl (fun q d => if d = 1 then add (double q) p else double q) neutral

end Weighted

/-! ### The group -/

/-- `k` times a point. -/
def Point.multiple (k : Nat) (p : Point) : Point :=
  ((Weighted.ofPoint p).multiple k).toPoint

/-- The order of the group, a prime. -/
def order : Nat :=
  0xfffffffffffffffffffffffffffffffebaaedce6af48a03bbfd25e8cd0364141

/-- The base point. -/
def base : Point :=
  .affine
    ⟨0x79be667ef9dcbbac55a06295ce870b07029bfcdb2dce28d959f2815b16f81798, by decide⟩
    ⟨0x483ada7726a3c4655da4fbfc0e1108a8fd17b448a68554199c47d08ffb10d4b8, by decide⟩

/-- The 32 bytes of the first coordinate; zeros for the neutral element. -/
def Point.xBytes : Point → Bytes
  | .neutral => Bytes.zeros 32
  | .affine x _ => x.toBytes

/-! ### The compressed form -/

/-- The marker byte of a point by the parity of its second coordinate. -/
def marker (odd : Bool) : UInt8 :=
  if odd then 3 else 2

/-- A marker for the parity of the second coordinate, then the first coordinate. -/
def Point.compress : Point → Bytes
  | .neutral => Bytes.zeros 33
  | .affine x y => marker y.isOdd :: x.toBytes

/-- The point of first coordinate `x` whose second coordinate is odd or even as asked. -/
def lift? (x : Residue) (odd : Bool) : Option Point :=
  (x * x * x + 7).sqrt?.map fun y => .affine x (if y.isOdd = odd then y else -y)

/-- Read a compressed point. -/
def Point.decompress? : Bytes → Option Point
  | m :: bs =>
    if bs.length = 32 ∧ (m = 2 ∨ m = 3) then
      (Residue.ofBytes? bs).bind fun x => lift? x (m = 3)
    else none
  | [] => none

@[simp] theorem Point.length_compress (p : Point) : p.compress.length = 33 := by
  cases p <;> simp [compress, Bytes.zeros, Residue.toBytes]

end Keyring.Curve
