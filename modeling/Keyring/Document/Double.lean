/-!
# Binary floating point of 64 bits

A finite `Double` is `m · 2^e` with a sign and m below 2^53. `ofDecimal` rounds a decimal number to
the nearest one, ties to even m, and does not divide where the outcome shows in the sizes; `toInt?`
tells whether a number is an integer.
-/

namespace Keyring

/-- A floating point number by its exact value. -/
inductive Double
  | finite (negative : Bool) (m : Nat) (e : Int)
  | infinite (negative : Bool)
  | nan
  deriving DecidableEq, Repr

namespace Double

/-- The least exponent. -/
def minExponent : Int := -1074

/-- The greatest exponent. -/
def maxExponent : Int := 971

/-- `num / den` to the nearest integer, ties to the even one. -/
def roundDiv (num den : Nat) : Nat :=
  let q := num / den
  let r := num % den
  if 2 * r > den ∨ (2 * r = den ∧ q % 2 = 1) then q + 1 else q

/-- The quotient of `num` and `den` by `2^e`, as a fraction. -/
def scaled (num den : Nat) (e : Int) : Nat × Nat :=
  if e ≥ 0 then (num, den <<< e.toNat) else (num <<< (-e).toNat, den)

/-- The floating point number next to `num / den`, where `num` is not zero. -/
def ofRatio (negative : Bool) (num den : Nat) : Double :=
  let guess : Int := (num.log2 : Int) - den.log2 - 52
  let (n, d) := scaled num den guess
  let e := max (if n / d < 1 <<< 52 then guess - 1 else guess) minExponent
  let (n, d) := scaled num den e
  let m := roundDiv n d
  let (m, e) := if m = 1 <<< 53 then (1 <<< 52, e + 1) else (m, e)
  if e > maxExponent then infinite negative else finite negative m e

/-- The floating point number next to `m · 10^e`. -/
def ofDecimal (negative : Bool) (m : Nat) (e : Int) : Double :=
  if m = 0 then finite negative 0 0
  else if e > 400 then infinite negative
  else if e < -(400 + (m.log2 : Int)) then finite negative 0 0
  else if e ≥ 0 then ofRatio negative (m * Nat.pow 10 e.toNat) 1
  else ofRatio negative m (Nat.pow 10 (-e).toNat)

/-- Whether a number is finite. -/
def isFinite : Double → Bool
  | finite .. => true
  | _ => false

/-- The value of a number that is an integer. -/
def toInt? : Double → Option Int
  | finite negative m e =>
    let signed (n : Nat) : Int := if negative then -(n : Int) else n
    if e ≥ 0 then some (signed (m <<< e.toNat))
    else if m % (1 <<< (-e).toNat) = 0 then some (signed (m >>> (-e).toNat))
    else none
  | _ => none

end Double

end Keyring
