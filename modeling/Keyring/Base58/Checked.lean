import Keyring.Base58
import Keyring.Hash.Ripemd160

/-!
# Checked Base58

Two codecs put a four-byte checksum behind the payload. `Checked` uses double SHA-256 and serves
private keys and extended keys; `KeyText` uses RIPEMD-160 over the payload and a suffix and serves
public keys.
-/

namespace Keyring.Base58

/-- A byte string without its last four bytes, and those. -/
def splitTail (raw : Bytes) : Bytes × Bytes :=
  raw.splitAt (raw.length - 4)

/-- The checksum is split off where it was put on. -/
theorem splitTail_append {payload sum : Bytes} (h : sum.length = 4) :
    splitTail (payload ++ sum) = (payload, sum) := by
  simp [splitTail, List.splitAt_eq, h]

namespace Checked

/-- The checksum of a payload. -/
def checksum (payload : Bytes) : Bytes :=
  (Hash.sha256d payload).take 4

/-- A payload with its checksum in Base58. -/
def encode (payload : Bytes) : Text :=
  Base58.encode (payload ++ checksum payload)

/-- Read checked text. -/
def decode (t : Text) : Outcome Bytes := do
  let raw ← Base58.decode t
  if raw.length < 4 then throw .checkedTooShort
  let (payload, sum) := splitTail raw
  if sum ≠ checksum payload then throw .checkedMismatch
  return payload

end Checked

namespace KeyText

/-- The checksum of a payload under a suffix, which is hashed but not written. -/
def checksum (payload suffix : Bytes) : Bytes :=
  (Hash.ripemd160 (payload ++ suffix)).take 4

/-- A payload with its checksum in Base58. -/
def encode (payload suffix : Bytes) : Text :=
  Base58.encode (payload ++ checksum payload suffix)

/-- Read checked text with a payload of at least one byte; each of `suffixes` is allowed. -/
def decode (t : Text) (suffixes : List Bytes) : Outcome Bytes := do
  let raw ← Base58.decode t
  if raw.length < 5 then throw .keyTextTooShort
  let (payload, sum) := splitTail raw
  if suffixes.all fun s => checksum payload s ≠ sum then throw .keyTextMismatch
  return payload

end KeyText

end Keyring.Base58
