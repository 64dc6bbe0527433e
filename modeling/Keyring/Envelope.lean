import Keyring.Cipher.Chaining
import Keyring.Hash.Hmac
import Keyring.Key.Public
import Keyring.Text.Base64
import Keyring.Text.Hex

/-!
# Envelopes

Two parties share a secret: the own private key times the public key of the other. It yields a key
for AES-256 in chaining mode and a key for HMAC-SHA256. An envelope is an initial block, the
encrypted message and a tag over both; the tag is verified before anything is decrypted.
-/

namespace Keyring.Envelope

/-- The length of the initial block. -/
def ivSize : Nat := 16

/-- The length of the tag. -/
def tagSize : Nat := 32

/-- The length of the shortest envelope. -/
def minSize : Nat := ivSize + Cipher.blockSize + tagSize

/-! ### Key agreement -/

/-- The 64 bytes that the holder of a private key in wallet import format shares with the holder of
a public key text. -/
def sharedSecret (wif publicText : Text) : Outcome Bytes := do
  let k ← SecretKey.scalar (← SecretKey.ofWif wif)
  let key ← PublicKey.ofText publicText PublicKey.usualLabels
  match Curve.Point.decompress? key with
  | some p => return Hash.sha512 (p.multiple k).xBytes
  | none => throw .offCurve

/-- The keys of an agreement. -/
structure Keys where
  cipher : Bytes
  mac : Bytes

/-- The keys that follow from a shared secret. -/
def Keys.ofSecret (secret : Bytes) : Keys :=
  let k := Hash.sha512 secret
  ⟨k.take 32, k.drop 32⟩

/-- The tag of an initial block and an encrypted message. -/
def Keys.tag (keys : Keys) (body : Bytes) : Bytes :=
  Hash.hmacSha256 keys.mac body

/-! ### Closing and opening -/

/-- The envelope of a message. -/
def close (keys : Keys) (iv msg : Bytes) : Bytes :=
  let s := Cipher.Aes.schedule keys.cipher
  let body := iv ++ Cipher.Chaining.encrypt (Cipher.Aes.encrypt s) iv (Cipher.Padding.fill msg)
  body ++ keys.tag body

/-- An envelope cut into its initial block, encrypted message and tag. -/
structure Parts where
  iv : Bytes
  ciphertext : Bytes
  tag : Bytes

/-- Cut an envelope into its parts. -/
def Parts.ofBytes (envelope : Bytes) : Outcome Parts := do
  if envelope.length < minSize then throw (.envelopeTooShort envelope.length)
  let size := envelope.length - ivSize - tagSize
  if size % Cipher.blockSize ≠ 0 then throw (.envelopeMisaligned size)
  let rest := envelope.drop ivSize
  return ⟨envelope.take ivSize, rest.take size, rest.drop size⟩

/-- The message of an envelope in parts. -/
def Parts.message (p : Parts) (keys : Keys) : Outcome Bytes := do
  if keys.tag (p.iv ++ p.ciphertext) ≠ p.tag then throw .tagMismatch
  let s := Cipher.Aes.schedule keys.cipher
  match Cipher.Padding.strip?
    (Cipher.Chaining.decrypt (Cipher.Aes.decrypt s) p.iv p.ciphertext) with
  | some msg => return msg
  | none => throw .badPadding

/-- Encrypt a message for the holder of a public key text, with the given initial block. -/
def encrypt (wif publicText : Text) (msg iv : Bytes) : Outcome Bytes := do
  if iv.length ≠ ivSize then throw (.ivLength iv.length)
  return close (Keys.ofSecret (← sharedSecret wif publicText)) iv msg

/-- Decrypt an envelope from the holder of a public key text. -/
def decrypt (wif publicText : Text) (envelope : Bytes) : Outcome Bytes := do
  let parts ← Parts.ofBytes envelope
  parts.message (Keys.ofSecret (← sharedSecret wif publicText))

/-! ### Envelopes as text -/

/-- The two encodings of envelopes as text. -/
inductive Encoding
  | hex
  | base64
  deriving DecidableEq, Repr

/-- The name of an encoding. -/
def Encoding.name : Encoding → Text
  | hex => "hex".toList
  | base64 => "base64".toList

/-- The encoding that a name stands for: Base64 unless the name is `hex`. -/
def Encoding.named (name : Text) : Encoding :=
  if name = hex.name then hex else base64

/-- An envelope as text in the encoding of that name. -/
def toText (envelope : Bytes) (encoding : Text) : Text :=
  match Encoding.named encoding with
  | .hex => Text.Hex.encode envelope
  | .base64 => Text.Base64.encode envelope

/-- Read an envelope from text in the encoding of that name. -/
def ofText (t encoding : Text) : Outcome Bytes :=
  let read := match Encoding.named encoding with
    | .hex => Text.Hex.decode? t
    | .base64 => Text.Base64.decode? t
  match read with
  | some envelope => .ok envelope
  | none => .error (.envelopeText encoding)

end Keyring.Envelope
