import Keyring.Key.Path
import Keyring.Key.Public
import Keyring.Mnemonic.Basic

/-!
# Keys of a mnemonic

The keys of a wallet lie next to each other on one branch of the tree,
`m/44'/coin'/account'/change`. `Source.keyAt` gives the pair at an index of the branch and
`Source.keys` the first pairs. A source is a mnemonic or a phrase still to be read as one; indexes
and counts are checked before the phrase.
-/

namespace Keyring

/-- A branch of the tree of keys. -/
structure Branch where
  coinType : Fin ExtendedKey.hardenedOffset
  account : Fin ExtendedKey.hardenedOffset
  change : Fin ExtendedKey.hardenedOffset
  deriving DecidableEq

namespace Branch

/-- The branch of the wallet's own coin type. -/
def usual : Branch :=
  ⟨⟨235, by decide⟩, ⟨0, by decide⟩, ⟨0, by decide⟩⟩

/-- The path of the key at an index of a branch. -/
def path (b : Branch) (index : Int) : Text :=
  "m/44'/".toList ++ Text.ofNat b.coinType ++ "'/".toList ++ Text.ofNat b.account ++ "'/".toList
    ++ Text.ofNat b.change ++ '/' :: Text.ofInt index

end Branch

/-- A key pair at an index of a branch, as text. -/
structure KeyPair where
  index : Int
  wif : Text
  publicKey : Text
  deriving DecidableEq

namespace KeyPair

/-- A description that leaves the private key out. -/
def describe (p : KeyPair) : Text :=
  "KeyPair(index=".toList ++ Text.ofInt p.index ++ ", public_key=".toList ++ Text.quoted p.publicKey
    ++ [')']

/-- The pair at an index of a branch below a root. -/
def ofRoot (root : ExtendedKey) (branch : Branch) (index : Int) : Outcome KeyPair := do
  let child ← root.derive (branch.path index)
  let wif ← SecretKey.toWif child.key false
  let publicKey ← PublicKey.ofWif wif PublicKey.fio PublicKey.eos
  return ⟨index, wif, publicKey⟩

end KeyPair

/-- What keys are derived from. -/
inductive Source
  | mnemonic (m : Mnemonic)
  | phrase (t : Text)

namespace Source

/-- The mnemonic of a source. -/
def resolve : Source → Outcome Mnemonic
  | mnemonic m => .ok m
  | phrase t => Mnemonic.ofPhrase t

/-- Refuse an index that is negative or hardened. -/
def checkIndex (index : Int) : Outcome Unit :=
  if 0 ≤ index ∧ index < ExtendedKey.hardenedOffset then .ok () else .error (.indexRange index)

/-- The pair at an index of a branch. -/
def keyAt (s : Source) (index : Int) (branch : Branch) : Outcome KeyPair := do
  checkIndex index
  let m ← s.resolve
  KeyPair.ofRoot (← m.masterKey) branch index

/-- The first `count` pairs of a branch. -/
def keys (s : Source) (count : Int) (branch : Branch) : Outcome (List KeyPair) := do
  if count < 1 then throw .noKeys
  checkIndex (count - 1)
  let m ← s.resolve
  let root ← m.masterKey
  (List.range count.toNat).mapM fun i : Nat => KeyPair.ofRoot root branch i

/-- The public key texts of the first `count` pairs of a branch. -/
def publicKeys (s : Source) (count : Int) (branch : Branch) : Outcome (List Text) := do
  return (← s.keys count branch).map (·.publicKey)

@[simp] theorem resolve_mnemonic (m : Mnemonic) : (mnemonic m).resolve = .ok m := rfl

end Source

end Keyring
