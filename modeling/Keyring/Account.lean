import Keyring.Actor

/-!
# Accounts

An account is a private key in wallet import format, kept as it was given, with the public key text
and the actor name that follow from it.
-/

namespace Keyring

/-- A private key with what follows from it. -/
structure Account where
  wif : Text
  publicKey : Text
  actor : Text
  deriving DecidableEq, Repr

namespace Account

/-- The account of a private key in wallet import format. -/
def ofWif (wif : Text) : Outcome Account := do
  let publicKey ← PublicKey.ofWif wif PublicKey.fio PublicKey.eos
  return ⟨wif, publicKey, ← Actor.ofText publicKey⟩

/-- The account of a private key. -/
def ofSecret (secret : Bytes) : Outcome Account := do
  ofWif (← SecretKey.toWif secret false)

/-- A description that leaves the private key out. -/
def describe (a : Account) : Text :=
  "Account(actor=".toList ++ Text.quoted a.actor ++
    ", public_key=".toList ++ Text.quoted a.publicKey ++ [')']

end Account

end Keyring
