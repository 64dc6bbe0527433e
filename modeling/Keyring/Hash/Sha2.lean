import Keyring.Bytes

/-!
# SHA-2

The SHA-2 functions differ in their word type and in a handful of constants, so `Sha2 W` collects
what depends on the word and the algorithm is written once. `sha256` runs it on 32-bit and `sha512`
on 64-bit words.
-/

namespace Keyring.Hash

/-- The eight chaining words. -/
structure Sha2State (W : Type) where
  a : W
  b : W
  c : W
  d : W
  e : W
  f : W
  g : W
  h : W

/-- What SHA-2 needs of its words. -/
class Sha2 (W : Type) extends Add W, XorOp W, AndOp W, Complement W, Inhabited W where
  /-- Bytes in a word. -/
  width : Nat
  /-- The word that a big-endian byte string spells. -/
  ofBytes : Bytes → W
  /-- The big-endian bytes of a word. -/
  toBytes : W → Bytes
  length_toBytes : ∀ w, (toBytes w).length = width
  /-- The rotations that mix `a` and `e` in a round. -/
  mixA : W → W
  mixE : W → W
  /-- The rotations that extend the message schedule. -/
  mixEarly : W → W
  mixLate : W → W
  /-- One constant for each round. -/
  constants : List W
  initial : Sha2State W

namespace Sha2

variable {W : Type} [Sha2 W]

/-- Put `n` further words onto a schedule that is kept with its last word first. -/
@[specialize] def extend : (n : Nat) → (ws : List W) → List W
  | 0, ws => ws
  | n + 1, ws =>
    let w := mixLate (ws.getD 1 default) + ws.getD 6 default + mixEarly (ws.getD 14 default)
      + ws.getD 15 default
    extend n (w :: ws)

/-- The words that the rounds take in, one each, from the sixteen words of a block. -/
@[specialize] def schedule (block : List W) : List W :=
  (extend ((constants : List W).length - 16) block.reverse).reverse

/-- One round, with the sum of its constant and its schedule word. -/
@[specialize] def round (s : Sha2State W) (w : W) : Sha2State W :=
  let choice := (s.e &&& s.f) ^^^ (~~~s.e &&& s.g)
  let majority := (s.a &&& s.b) ^^^ (s.a &&& s.c) ^^^ (s.b &&& s.c)
  let t := s.h + mixE s.e + choice + w
  ⟨t + (mixA s.a + majority), s.a, s.b, s.c, s.d + t, s.e, s.f, s.g⟩

/-- Take one block into the state. -/
@[specialize] def compress (s : Sha2State W) (block : List W) : Sha2State W :=
  let r := (List.zipWith (· + ·) constants (schedule block)).foldl round s
  ⟨s.a + r.a, s.b + r.b, s.c + r.c, s.d + r.d, s.e + r.e, s.f + r.f, s.g + r.g, s.h + r.h⟩

/-- A message filled up to whole blocks of sixteen words: a one bit, zeros, and the length in bits
in two words. -/
def pad (width : Nat) (msg : Bytes) : Bytes :=
  let block := 16 * width
  let zeros := (2 * block - 1 - 2 * width - msg.length % block) % block
  msg ++ 0x80 :: Bytes.zeros zeros ++ Bytes.ofNat (2 * width) (8 * msg.length)

/-- The bytes of the chaining words. -/
@[specialize] def Sha2State.toBytes (s : Sha2State W) : Bytes :=
  [s.a, s.b, s.c, s.d, s.e, s.f, s.g, s.h].flatMap Sha2.toBytes

variable (W) in
/-- The digest of a message. -/
@[specialize] def digest (msg : Bytes) : Bytes :=
  let blocks := chunks (16 * width W) (pad (width W) msg)
  Sha2State.toBytes (blocks.foldl (fun s b => compress s ((chunks (width W) b).map ofBytes))
    (initial : Sha2State W))

/-- A digest has eight words. -/
theorem length_digest (msg : Bytes) : (digest W msg).length = 8 * width W := by
  simp only [digest, Sha2State.toBytes, List.flatMap_cons, List.flatMap_nil, List.length_append,
    length_toBytes, List.length_nil]
  omega

end Sha2

/-! ### The two word types -/

/-- Rotate to the right by `k` below 32. -/
@[inline] def rotate32 (k : UInt32) (w : UInt32) : UInt32 :=
  w >>> k ||| w <<< (32 - k)

/-- Rotate to the right by `k` below 64. -/
@[inline] def rotate64 (k : UInt64) (w : UInt64) : UInt64 :=
  w >>> k ||| w <<< (64 - k)

/-- The first 32 fractional bits of the cube roots of the first 64 primes. -/
def roundConstants32 : List UInt32 :=
  [0x428a2f98, 0x71374491, 0xb5c0fbcf, 0xe9b5dba5, 0x3956c25b, 0x59f111f1, 0x923f82a4, 0xab1c5ed5,
   0xd807aa98, 0x12835b01, 0x243185be, 0x550c7dc3, 0x72be5d74, 0x80deb1fe, 0x9bdc06a7, 0xc19bf174,
   0xe49b69c1, 0xefbe4786, 0x0fc19dc6, 0x240ca1cc, 0x2de92c6f, 0x4a7484aa, 0x5cb0a9dc, 0x76f988da,
   0x983e5152, 0xa831c66d, 0xb00327c8, 0xbf597fc7, 0xc6e00bf3, 0xd5a79147, 0x06ca6351, 0x14292967,
   0x27b70a85, 0x2e1b2138, 0x4d2c6dfc, 0x53380d13, 0x650a7354, 0x766a0abb, 0x81c2c92e, 0x92722c85,
   0xa2bfe8a1, 0xa81a664b, 0xc24b8b70, 0xc76c51a3, 0xd192e819, 0xd6990624, 0xf40e3585, 0x106aa070,
   0x19a4c116, 0x1e376c08, 0x2748774c, 0x34b0bcb5, 0x391c0cb3, 0x4ed8aa4a, 0x5b9cca4f, 0x682e6ff3,
   0x748f82ee, 0x78a5636f, 0x84c87814, 0x8cc70208, 0x90befffa, 0xa4506ceb, 0xbef9a3f7, 0xc67178f2]

/-- The first 64 fractional bits of the cube roots of the first 80 primes. -/
def roundConstants64 : List UInt64 :=
  [0x428a2f98d728ae22, 0x7137449123ef65cd, 0xb5c0fbcfec4d3b2f, 0xe9b5dba58189dbbc,
   0x3956c25bf348b538, 0x59f111f1b605d019, 0x923f82a4af194f9b, 0xab1c5ed5da6d8118,
   0xd807aa98a3030242, 0x12835b0145706fbe, 0x243185be4ee4b28c, 0x550c7dc3d5ffb4e2,
   0x72be5d74f27b896f, 0x80deb1fe3b1696b1, 0x9bdc06a725c71235, 0xc19bf174cf692694,
   0xe49b69c19ef14ad2, 0xefbe4786384f25e3, 0x0fc19dc68b8cd5b5, 0x240ca1cc77ac9c65,
   0x2de92c6f592b0275, 0x4a7484aa6ea6e483, 0x5cb0a9dcbd41fbd4, 0x76f988da831153b5,
   0x983e5152ee66dfab, 0xa831c66d2db43210, 0xb00327c898fb213f, 0xbf597fc7beef0ee4,
   0xc6e00bf33da88fc2, 0xd5a79147930aa725, 0x06ca6351e003826f, 0x142929670a0e6e70,
   0x27b70a8546d22ffc, 0x2e1b21385c26c926, 0x4d2c6dfc5ac42aed, 0x53380d139d95b3df,
   0x650a73548baf63de, 0x766a0abb3c77b2a8, 0x81c2c92e47edaee6, 0x92722c851482353b,
   0xa2bfe8a14cf10364, 0xa81a664bbc423001, 0xc24b8b70d0f89791, 0xc76c51a30654be30,
   0xd192e819d6ef5218, 0xd69906245565a910, 0xf40e35855771202a, 0x106aa07032bbd1b8,
   0x19a4c116b8d2d0c8, 0x1e376c085141ab53, 0x2748774cdf8eeb99, 0x34b0bcb5e19b48a8,
   0x391c0cb3c5c95a63, 0x4ed8aa4ae3418acb, 0x5b9cca4f7763e373, 0x682e6ff3d6b2b8a3,
   0x748f82ee5defb2fc, 0x78a5636f43172f60, 0x84c87814a1f0ab72, 0x8cc702081a6439ec,
   0x90befffa23631e28, 0xa4506cebde82bde9, 0xbef9a3f7b2c67915, 0xc67178f2e372532b,
   0xca273eceea26619c, 0xd186b8c721c0c207, 0xeada7dd6cde0eb1e, 0xf57d4f7fee6ed178,
   0x06f067aa72176fba, 0x0a637dc5a2c898a6, 0x113f9804bef90dae, 0x1b710b35131c471b,
   0x28db77f523047d84, 0x32caab7b40c72493, 0x3c9ebe0a15c9bebc, 0x431d67c49c100d4c,
   0x4cc5d4becb3e42b6, 0x597f299cfc657e2a, 0x5fcb6fab3ad6faec, 0x6c44198c4a475817]

instance : Sha2 UInt32 where
  width := 4
  ofBytes bs := bs.foldl (fun w b => w <<< 8 ||| b.toUInt32) 0
  toBytes w := [(w >>> 24).toUInt8, (w >>> 16).toUInt8, (w >>> 8).toUInt8, w.toUInt8]
  length_toBytes _ := rfl
  mixA w := rotate32 2 w ^^^ rotate32 13 w ^^^ rotate32 22 w
  mixE w := rotate32 6 w ^^^ rotate32 11 w ^^^ rotate32 25 w
  mixEarly w := rotate32 7 w ^^^ rotate32 18 w ^^^ w >>> 3
  mixLate w := rotate32 17 w ^^^ rotate32 19 w ^^^ w >>> 10
  constants := roundConstants32
  initial :=
    ⟨0x6a09e667, 0xbb67ae85, 0x3c6ef372, 0xa54ff53a, 0x510e527f, 0x9b05688c, 0x1f83d9ab, 0x5be0cd19⟩

instance : Sha2 UInt64 where
  width := 8
  ofBytes bs := bs.foldl (fun w b => w <<< 8 ||| b.toUInt64) 0
  toBytes w := [(w >>> 56).toUInt8, (w >>> 48).toUInt8, (w >>> 40).toUInt8, (w >>> 32).toUInt8,
    (w >>> 24).toUInt8, (w >>> 16).toUInt8, (w >>> 8).toUInt8, w.toUInt8]
  length_toBytes _ := rfl
  mixA w := rotate64 28 w ^^^ rotate64 34 w ^^^ rotate64 39 w
  mixE w := rotate64 14 w ^^^ rotate64 18 w ^^^ rotate64 41 w
  mixEarly w := rotate64 1 w ^^^ rotate64 8 w ^^^ w >>> 7
  mixLate w := rotate64 19 w ^^^ rotate64 61 w ^^^ w >>> 6
  constants := roundConstants64
  initial :=
    ⟨0x6a09e667f3bcc908, 0xbb67ae8584caa73b, 0x3c6ef372fe94f82b, 0xa54ff53a5f1d36f1,
     0x510e527fade682d1, 0x9b05688c2b3e6c1f, 0x1f83d9abfb41bd6b, 0x5be0cd19137e2179⟩

/-- SHA-256. -/
def sha256 (msg : Bytes) : Bytes :=
  Sha2.digest UInt32 msg

/-- SHA-512. -/
def sha512 (msg : Bytes) : Bytes :=
  Sha2.digest UInt64 msg

/-- SHA-256 of the SHA-256 digest. -/
def sha256d (msg : Bytes) : Bytes :=
  sha256 (sha256 msg)

@[simp] theorem length_sha256 (msg : Bytes) : (sha256 msg).length = 32 :=
  Sha2.length_digest msg

@[simp] theorem length_sha512 (msg : Bytes) : (sha512 msg).length = 64 :=
  Sha2.length_digest msg

end Keyring.Hash
