import Keyring.Hash.Sha2

/-!
# Keyed hashes and password stretching

`Hmac.mac` is HMAC over any hash function; a key is brought to block size once and then used for
many messages. `stretch` is the first block of PBKDF2.
-/

namespace Keyring.Hash

/-- A hash function with the block size that HMAC pads keys to. -/
structure Function where
  blockSize : Nat
  digest : Bytes → Bytes

/-- SHA-256 with its block size. -/
def sha256Function : Function := ⟨64, sha256⟩

/-- SHA-512 with its block size. -/
def sha512Function : Function := ⟨128, sha512⟩

/-- A key in the two masked forms that HMAC puts in front of its inner and outer message. -/
structure HmacKey where
  inner : Bytes
  outer : Bytes

namespace Hmac

/-- Prepare a key: hash one that is longer than a block, fill up with zeros and mask. -/
def prepare (f : Function) (key : Bytes) : HmacKey :=
  let short := if key.length ≤ f.blockSize then key else f.digest key
  let block := short ++ Bytes.zeros (f.blockSize - short.length)
  ⟨block.map (· ^^^ 0x36), block.map (· ^^^ 0x5c)⟩

/-- The code of a message under a prepared key. -/
def macWith (f : Function) (key : HmacKey) (msg : Bytes) : Bytes :=
  f.digest (key.outer ++ f.digest (key.inner ++ msg))

/-- The code of a message. -/
def mac (f : Function) (key msg : Bytes) : Bytes :=
  macWith f (prepare f key) msg

end Hmac

/-- HMAC-SHA256. -/
def hmacSha256 (key msg : Bytes) : Bytes :=
  Hmac.mac sha256Function key msg

/-- HMAC-SHA512. -/
def hmacSha512 (key msg : Bytes) : Bytes :=
  Hmac.mac sha512Function key msg

@[simp] theorem length_hmacSha256 (key msg : Bytes) : (hmacSha256 key msg).length = 32 :=
  length_sha256 _

@[simp] theorem length_hmacSha512 (key msg : Bytes) : (hmacSha512 key msg).length = 64 :=
  length_sha512 _

/-! ### Stretching -/

/-- Apply `f` to `u` repeatedly, `rounds` times, and add up the results in `sum`. -/
def stretchLoop (f : Bytes → Bytes) : (rounds : Nat) → (u sum : Bytes) → Bytes
  | 0, _, sum => sum
  | n + 1, u, sum =>
    let v := f u
    stretchLoop f n v (Bytes.xor sum v)

/-- The first block of PBKDF2 over HMAC-SHA512: 64 bytes out of a password and a salt, `rounds ≥ 1`
codes deep. -/
def stretch (password salt : Bytes) (rounds : Nat) : Bytes :=
  let key := Hmac.prepare sha512Function password
  let f := Hmac.macWith sha512Function key
  let u := f (salt ++ [0, 0, 0, 1])
  stretchLoop f (rounds - 1) u u

/-- Adding up more rounds keeps the length. -/
theorem length_stretchLoop {f : Bytes → Bytes} {n : Nat} (hf : ∀ u, (f u).length = n) (rounds : Nat)
    {u sum : Bytes} (h : sum.length = n) : (stretchLoop f rounds u sum).length = n := by
  induction rounds generalizing u sum with
  | zero => exact h
  | succ r ih =>
    rw [stretchLoop]
    exact ih (by simp [Bytes.xor, hf, h])

@[simp] theorem length_stretch (password salt : Bytes) (rounds : Nat) :
    (stretch password salt rounds).length = 64 :=
  length_stretchLoop (fun _ => length_sha512 _) _ (length_sha512 _)

end Keyring.Hash
