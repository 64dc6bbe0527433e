import Keyring.Key.Extended
import Keyring.Text.Decimal

/-!
# Derivation paths

A path is text such as `m/44'/235'/0'/0/5`. Its parts stand between slashes; an empty part and the
letter `m` of either case name no child. Any other part is an index below 2^31, and a mark `'`, `h`
or `H` at its end makes it hardened. `ExtendedKey.derive` walks a path from a key, and the first
part that fails decides the outcome.
-/

namespace Keyring

namespace Path

/-- A mark of a hardened index. -/
def isMark (c : Char) : Bool :=
  c = '\'' || c = 'h' || c = 'H'

/-- A part that names no child. -/
def isIdle (part : Text) : Bool :=
  part = [] || part = ['m'] || part = ['M']

/-- The parts of a path that name children. -/
def parts (path : Text) : List Text :=
  (path.trim.splitOn '/').filter (!isIdle ·)

/-- The index that a part names. -/
def index (part : Text) : Outcome Nat :=
  let body := Text.trimEndBy isMark part
  match Text.Decimal.excess? body, Text.Decimal.integer? body with
  | some digits, _ => .error (.literalTooLong digits)
  | none, none => .error (.notAnInteger body)
  | none, some v =>
    if 0 ≤ v ∧ v < ExtendedKey.hardenedOffset then
      .ok (if part.getLast?.any isMark then v.toNat + ExtendedKey.hardenedOffset else v.toNat)
    else .error (.pathIndex part)

end Path

namespace ExtendedKey

/-- The child that a part of a path names. -/
def step (k : ExtendedKey) (part : Text) : Outcome ExtendedKey := do
  k.child (← Path.index part)

/-- The key at the end of a path. -/
def derive (k : ExtendedKey) (path : Text) : Outcome ExtendedKey :=
  (Path.parts path).foldlM step k

/-- A path without parts stays at the key. -/
theorem derive_of_parts_nil {k : ExtendedKey} {path : Text} (h : Path.parts path = []) :
    k.derive path = .ok k := by
  rw [derive, h]
  rfl

end ExtendedKey

end Keyring
