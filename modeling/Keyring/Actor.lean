import Keyring.Key.Public

/-!
# Actor names

The name of an account follows from its public key. The bytes behind the parity byte are scanned for
fields: the lowest five bits of a byte, where they are not all zero. Twelve such fields, and the
lowest four bits of a thirteenth, are packed into a 64-bit name from its highest bit on, and the
name is spelled out five bits at a time.
-/

namespace Keyring.Actor

/-- The characters of names in the order of their values. -/
def alphabet : Text :=
  ".12345abcdefghijklmnopqrstuvwxyz".toList

/-- The number of characters of a name. -/
def length : Nat := 12

/-- The last byte of a key that a scan may read. -/
def scanLimit : Nat := 32

/-- The character of a value below 32. -/
def symbol (n : Nat) : Char :=
  alphabet.getD n '.'

/-- The bits that a byte contributes to a name with `found` fields already: five bits right below
those of the field before, or four bits at the end for the thirteenth field. -/
def placed (found : Nat) (b : UInt8) : Nat :=
  if found = length then b.toNat &&& 0x0f else (b.toNat &&& 0x1f) <<< (5 * (length - found) - 1)

/-- Scan bytes until thirteen fields are in the name; a byte that contributes nothing is passed
over. -/
def scan (found name : Nat) : Bytes → Outcome Nat
  | [] => if length < found then .ok name else .error .fieldsExhausted
  | b :: bs =>
    if length < found then .ok name
    else if placed found b = 0 then scan found name bs
    else scan (found + 1) (name ||| placed found b) bs

/-- The fields of a key in a number of 64 bits. -/
def packed (key : Bytes) : Outcome Nat :=
  scan 0 0 ((key.drop 1).take scanLimit)

/-- Put the characters of the lowest `n` fields of five bits in front of `tail`. -/
def spellOnto : (n name : Nat) → (tail : Text) → Text
  | 0, _, tail => tail
  | n + 1, name, tail => spellOnto n (name >>> 5) (symbol (name &&& 0x1f) :: tail)

/-- The characters of a name, without the last one, which its lowest four bits stand for. -/
def spell (name : Nat) : Text :=
  (spellOnto length (name >>> 4) [symbol (name &&& 0x0f)]).take length

/-- The name of the account of a decoded public key. -/
def ofKey (key : Bytes) : Outcome Text := do
  return spell (← packed key)

/-- The name of the account of a public key text. -/
def ofText (text : Text) : Outcome Text := do
  ofKey (← PublicKey.ofText text PublicKey.usualLabels)

end Keyring.Actor
