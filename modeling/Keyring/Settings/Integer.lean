import Keyring.Settings.Numeral

/-!
# Integer settings

An integer setting may be written as an integer, a truth value, a floating point number without a
fraction, or text. A floating point number has to lie between -2^63 and 2^63, both excluded. The
integer has to lie below a bound.
-/

namespace Keyring.Setting

/-- The integer that a floating point number stands for. -/
def ofDouble (x : Double) : Except Defect Int :=
  match x.toInt? with
  | some n => if n.natAbs < 0x8000000000000000 then .ok n else .error .integerSize
  | none => .error (if x.isFinite then .fraction else .notFinite)

/-- The integer that a value stands for. -/
def integer : Value → Except Defect Int
  | .scalar (.int n) => .ok n
  | .scalar (.bool b) => .ok b.toNat
  | .scalar (.float x) => ofDouble x
  | .scalar (.text t) => ofText t
  | _ => .error .notInteger

/-- An integer from zero up to below a bound. -/
def bounded (bound : Nat) (n : Int) : Except Defect (Fin bound) :=
  if n < 0 then .error .belowRange
  else if h : n.toNat < bound then .ok ⟨n.toNat, h⟩
  else .error .aboveRange

/-- Read an integer below a bound. -/
def index (bound : Nat) (v : Value) : Except Defect (Fin bound) := do
  bounded bound (← integer v)

end Keyring.Setting
