import Keyring.Base58.Checked
import Keyring.Curve.Point
import Keyring.Text.Blank

/-!
# Private keys

A private key is 32 bytes; it is usable where they spell a scalar between 1 and the group order. The
wallet import format writes it as checked Base58 text behind a version byte, with a flag byte at the
end in its compressed form.
-/

namespace Keyring.SecretKey

/-- The version byte of the main network. -/
def version : UInt8 := 0x80

/-- The byte at the end of the compressed form. -/
def flag : UInt8 := 1

/-- A private key in wallet import format. -/
def toWif (secret : Bytes) (compressed : Bool) : Outcome Text := do
  if secret.length ≠ 32 then throw (.secretLength secret.length)
  return Base58.Checked.encode (version :: secret ++ if compressed then [flag] else [])

/-- Read wallet import format of either form, blanks around it ignored. -/
def ofWif (wif : Text) : Outcome Bytes := do
  let payload ← Base58.Checked.decode wif.trim
  if payload.length ≠ 33 ∧ payload.length ≠ 34 then throw (.wifLength payload.length)
  let first := payload.headD 0
  if first ≠ version then throw (.wifVersion first)
  if payload.length = 34 ∧ payload.getLast? ≠ some flag then throw .wifFlag
  return payload.tail.take 32

/-- The scalar that a private key stands for. -/
def scalar? (secret : Bytes) : Option Nat :=
  if secret.length = 32 ∧ 0 < secret.toNat ∧ secret.toNat < Curve.order then
    some secret.toNat
  else none

/-- The scalar of a private key that has to have one. -/
def scalar (secret : Bytes) : Outcome Nat :=
  match scalar? secret with
  | some k => .ok k
  | none => .error .secretRange

/-- The compressed public key of a private key. -/
def publicKey (secret : Bytes) : Outcome Bytes := do
  return (Curve.base.multiple (← scalar secret)).compress

/-- Which byte strings are usable, and what they stand for. -/
theorem scalar?_eq_some {secret : Bytes} {k : Nat} :
    scalar? secret = some k ↔ secret.length = 32 ∧ secret.toNat = k ∧ 0 < k ∧ k < Curve.order := by
  unfold scalar?
  split
  · rename_i h
    rw [Option.some.injEq]
    exact ⟨fun e => e ▸ ⟨h.1, rfl, h.2⟩, fun e => e.2.1⟩
  · rename_i h
    exact ⟨fun e => by simp at e, fun e => absurd ⟨e.1, e.2.1 ▸ e.2.2⟩ h⟩

end Keyring.SecretKey
