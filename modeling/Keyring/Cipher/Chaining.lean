import Keyring.Cipher.Aes

/-!
# Cipher block chaining

`Padding.fill` fills a message up to whole blocks, with a full block where it has whole blocks
already, and `Padding.strip?` checks every byte of the filling. `Chaining.encrypt` adds to each
block the encrypted one before it, beginning with an initial block.
-/

namespace Keyring.Cipher

/-- The length of a block in bytes. -/
def blockSize : Nat := 16

namespace Padding

/-- Fill up to whole blocks; each added byte tells how many there are. -/
def fill (msg : Bytes) : Bytes :=
  let n := blockSize - msg.length % blockSize
  msg ++ List.replicate n (UInt8.ofNat n)

/-- Remove the filling, if the last bytes are one. -/
def strip? (filled : Bytes) : Option Bytes :=
  let n := (filled.getLastD 0).toNat
  let cut := filled.length - n
  if 0 < n ∧ n ≤ blockSize ∧ n ≤ filled.length ∧ (filled.drop cut).all (·.toNat = n) then
    some (filled.take cut)
  else none

/-- A filled message has one block more than there are whole blocks in the message. -/
theorem length_fill (msg : Bytes) :
    (fill msg).length = blockSize * (msg.length / blockSize + 1) := by
  simp only [fill, List.length_append, List.length_replicate, blockSize]
  omega

end Padding

namespace Chaining

/-- Encrypt blocks under the block function `f`. -/
def encryptBlocks (f : Block → Block) : (before : Block) → List Block → List Block
  | _, [] => []
  | before, v :: vs =>
    let c := f (v ^^^ before)
    c :: encryptBlocks f c vs

/-- Decrypt blocks under the inverse block function `g`. -/
def decryptBlocks (g : Block → Block) : (before : Block) → List Block → List Block
  | _, [] => []
  | before, c :: cs => (g c ^^^ before) :: decryptBlocks g c cs

/-- The blocks of a byte string of whole blocks. -/
def blocks (bs : Bytes) : List Block :=
  (chunks blockSize bs).map Block.ofBytes

/-- Encrypt a byte string of whole blocks. -/
def encrypt (f : Block → Block) (iv bs : Bytes) : Bytes :=
  (encryptBlocks f (Block.ofBytes iv) (blocks bs)).flatMap Block.toBytes

/-- Decrypt a byte string of whole blocks. -/
def decrypt (g : Block → Block) (iv bs : Bytes) : Bytes :=
  (decryptBlocks g (Block.ofBytes iv) (blocks bs)).flatMap Block.toBytes

end Chaining

end Keyring.Cipher
