import Keyring.Bytes

/-!
# Hexadecimal text

`encode` writes two lower-case digits for each byte. `decode?` reads digits of either case and
allows ASCII blanks around the pairs, though never inside one.
-/

namespace Keyring.Text.Hex

/-- The value of a hexadecimal digit. -/
def digit? (c : Char) : Option Nat :=
  if '0' ≤ c ∧ c ≤ '9' then some (c.toNat - 48)
  else if 'a' ≤ c ∧ c ≤ 'f' then some (c.toNat - 87)
  else if 'A' ≤ c ∧ c ≤ 'F' then some (c.toNat - 55)
  else none

/-- A blank that may stand between two pairs of digits. -/
def isGap (c : Char) : Bool :=
  c = ' ' || (0x09 ≤ c.toNat && c.toNat ≤ 0x0d)

/-- The two digits of a byte. -/
def encodeByte (b : UInt8) : Text :=
  [digitChar (b.toNat / 16), digitChar (b.toNat % 16)]

/-- A byte string in hexadecimal. -/
def encode (bs : Bytes) : Text :=
  bs.flatMap encodeByte

/-- Read hexadecimal text. -/
def decode? : Text → Option Bytes
  | [] => some []
  | [c] => if isGap c then some [] else none
  | c :: d :: cs =>
    if isGap c then decode? (d :: cs)
    else match digit? c, digit? d with
      | some h, some l => (decode? cs).map (UInt8.ofNat (h * 16 + l) :: ·)
      | _, _ => none

theorem decode?_encodeByte (b : UInt8) (t : Text) :
    decode? (encodeByte b ++ t) = (decode? t).map (b :: ·) := by
  have h : ∀ n < 16, isGap (digitChar n) = false ∧ digit? (digitChar n) = some n := by decide
  obtain ⟨hg, hh⟩ := h (b.toNat / 16) (by have := b.toNat_lt; omega)
  obtain ⟨-, hl⟩ := h (b.toNat % 16) (Nat.mod_lt _ (by decide))
  have hb : UInt8.ofNat (b.toNat / 16 * 16 + b.toNat % 16) = b := by
    rw [Nat.div_add_mod' b.toNat 16, UInt8.ofNat_toNat]
  simp [encodeByte, decode?, hg, hh, hl, hb]

/-- What is written can be read. -/
theorem decode?_encode (bs : Bytes) : decode? (encode bs) = some bs := by
  induction bs with
  | nil => rfl
  | cons b bs ih => rw [encode, List.flatMap_cons, decode?_encodeByte, ← encode, ih]; rfl

end Keyring.Text.Hex
