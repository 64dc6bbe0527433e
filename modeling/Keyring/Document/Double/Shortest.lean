import Keyring.Document.Double
import Keyring.Text.Blank

/-!
# Shortest decimals

A floating point number is shown by the fewest digits that are read back as it, and by the nearest
such digits if there is a choice. `shortest?` finds them and `toText` lays them out: with a point
between the digits where the number lies between 10^-4 and 10^16, and else with an exponent.
-/

namespace Keyring.Double

/-- The decimal number `digits · 10^exponent`. -/
structure Decimal where
  digits : Nat
  exponent : Int
  deriving DecidableEq, Repr

/-- `num / den` over `10^e`, as a fraction. -/
def scaledTen (num den : Nat) (e : Int) : Nat × Nat :=
  if e ≥ 0 then (num, den * Nat.pow 10 e.toNat) else (num * Nat.pow 10 (-e).toNat, den)

/-- The exponent of the leading decimal digit of `num / den`. -/
def leadingExponent (num den : Nat) : Int :=
  let e : Int := (Text.ofNat num).length - (Text.ofNat den).length
  let (n, d) := scaledTen num den e
  if d ≤ n then e else e - 1

/-- The two decimal numbers of exponent `e` around `num / den`, the nearer one first. -/
def neighbours (num den : Nat) (e : Int) : List Decimal :=
  let (n, d) := scaledTen num den e
  let q := n / d
  let r := n % d
  let low : Decimal := ⟨q, e⟩
  let high : Decimal := ⟨q + 1, e⟩
  if 2 * r < d ∨ (2 * r = d ∧ q % 2 = 0) then [low, high] else [high, low]

/-- Whether a decimal number is read as `m · 2^e`. -/
def readsBack (m : Nat) (e : Int) (d : Decimal) : Bool :=
  ofDecimal false d.digits d.exponent = finite false m e

/-- The shortest decimal that is read as `m · 2^e`, where `m` is not zero. -/
def shortest? (m : Nat) (e : Int) : Option Decimal :=
  let (num, den) := if e ≥ 0 then (m <<< e.toNat, 1) else (m, 1 <<< (-e).toNat)
  let lead := leadingExponent num den
  (List.range 17).findSome? fun k : Nat => (neighbours num den (lead - k)).find? (readsBack m e)

/-! ### Layout -/

/-- The digits of a decimal number with a point between them, or with an exponent. -/
def Decimal.layout (d : Decimal) : Text :=
  let written := Text.ofNat d.digits
  let ds := Text.trimEndBy (· = '0') written
  let lead := d.exponent + written.length - 1
  let zeros (n : Int) : Text := List.replicate n.toNat '0'
  if lead < -4 ∨ 16 ≤ lead then
    let size := Text.ofNat lead.natAbs
    ds.take 1 ++ (if ds.length = 1 then [] else '.' :: ds.drop 1) ++ ['e',
      if lead < 0 then '-' else '+'] ++ zeros (2 - size.length) ++ size
  else if lead < 0 then '0' :: '.' :: zeros (-lead - 1) ++ ds
  else
    let whole := lead.toNat + 1
    let fraction := if ds.length ≤ whole then ['0'] else ds.drop whole
    ds.take whole ++ zeros (whole - ds.length) ++ '.' :: fraction

/-- The text of a number. -/
def toText : Double → Text
  | nan => "nan".toList
  | infinite negative => (if negative then "-inf" else "inf").toList
  | finite negative m e =>
    let sign := if negative then ['-'] else []
    if m = 0 then sign ++ "0.0".toList
    else sign ++ ((shortest? m e).map Decimal.layout).getD []

end Keyring.Double
