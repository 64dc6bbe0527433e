import Keyring.Hash.Hmac
import Keyring.Key.Secret

/-!
# Extended keys

An extended key is a private or public key with a chain code and its place in a tree of keys.
`child` derives a private child; indexes from 2^31 on are hardened, which means that the private key
itself goes into the derivation. `master` is the root that a seed determines.
-/

namespace Keyring

/-- A key in a tree of keys. Nothing is assumed about its parts. -/
structure ExtendedKey where
  /-- A private key of 32 bytes or a public key of 33 bytes. -/
  key : Bytes
  chainCode : Bytes
  /-- The distance from the root. -/
  depth : Int
  parentFingerprint : Bytes
  childIndex : Int
  isPrivate : Bool
  deriving DecidableEq, Repr

namespace ExtendedKey

/-- The first hardened index. -/
def hardenedOffset : Nat := 0x80000000

/-- A number in a field of `w` bytes. -/
def field (w : Nat) (n : Int) : Outcome Bytes :=
  if 0 ≤ n ∧ n.toNat < 1 <<< (8 * w) then .ok (Bytes.ofNat w n.toNat) else .error .fieldOverflow

/-! ### Views of a key -/

/-- The version bytes of serialized keys, `xprv` and `xpub` in text. -/
def versionBytes (isPrivate : Bool) : Bytes :=
  if isPrivate then [0x04, 0x88, 0xad, 0xe4] else [0x04, 0x88, 0xb2, 0x1e]

/-- The serialized form, 78 bytes where all parts have their proper lengths. -/
def serialize (k : ExtendedKey) : Outcome Bytes := do
  let depth ← field 1 k.depth
  let index ← field 4 k.childIndex
  return versionBytes k.isPrivate ++ depth ++ k.parentFingerprint ++ index ++ k.chainCode
    ++ (if k.isPrivate then 0 :: k.key else k.key)

/-- The serialized form in Base58Check. -/
def toText (k : ExtendedKey) : Outcome Text := do
  return Base58.Checked.encode (← k.serialize)

/-- The compressed public key. -/
def publicKey (k : ExtendedKey) : Outcome Bytes :=
  if k.isPrivate then SecretKey.publicKey k.key else .ok k.key

/-- The first four bytes of the hash of the public key. -/
def fingerprint (k : ExtendedKey) : Outcome Bytes := do
  return (Hash.hash160 (← k.publicKey)).take 4

/-- The public counterpart; a public key is its own. -/
def neuter (k : ExtendedKey) : Outcome ExtendedKey :=
  if k.isPrivate then do
    return { k with key := ← k.publicKey, isPrivate := false }
  else .ok k

/-! ### Children -/

/-- What a child is derived from: the private key for a hardened index and the public key for
another, then the index. -/
def childSeed (k : ExtendedKey) (index : Int) : Outcome Bytes :=
  if index ≥ hardenedOffset then do
    return 0 :: k.key ++ (← field 4 index)
  else do
    return (← k.publicKey) ++ (← field 4 index)

/-- The private child of an index. -/
def child (k : ExtendedKey) (index : Int) : Outcome ExtendedKey := do
  if !k.isPrivate then throw .publicParent
  let code := Hash.hmacSha512 k.chainCode (← k.childSeed index)
  let shift := Bytes.toNat (code.take 32)
  if shift ≥ Curve.order then throw .childTooLarge
  let scalar := (shift + k.key.toNat) % Curve.order
  if scalar = 0 then throw .childZero
  return {
    key := Bytes.ofNat 32 scalar
    chainCode := code.drop 32
    depth := k.depth + 1
    parentFingerprint := ← k.fingerprint
    childIndex := index
    isPrivate := true }

/-- A public key is its own public counterpart. -/
theorem neuter_of_public {k : ExtendedKey} (h : k.isPrivate = false) : k.neuter = .ok k := by
  simp [neuter, h]

/-- A public key has no children. -/
theorem child_of_public {k : ExtendedKey} (h : k.isPrivate = false) (index : Int) :
    k.child index = .error .publicParent := by
  simp only [child, h]
  rfl

/-- The key that turns a seed into a root. -/
def masterSalt : Bytes :=
  "Bitcoin seed".toList.map fun c => UInt8.ofNat c.toNat

/-- The root that a seed of 16 to 64 bytes determines. -/
def master (seed : Bytes) : Outcome ExtendedKey := do
  if ¬(16 ≤ seed.length ∧ seed.length ≤ 64) then throw (.seedLength seed.length)
  let code := Hash.hmacSha512 masterSalt seed
  let scalar := Bytes.toNat (code.take 32)
  if scalar = 0 ∨ scalar ≥ Curve.order then throw .masterRange
  return {
    key := code.take 32
    chainCode := code.drop 32
    depth := 0
    parentFingerprint := Bytes.zeros 4
    childIndex := 0
    isPrivate := true }

end ExtendedKey

end Keyring
