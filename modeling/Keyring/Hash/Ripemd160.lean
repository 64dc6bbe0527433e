import Keyring.Hash.Sha2

/-!
# RIPEMD-160

Two lines of five passes run over each block of sixteen little-endian words. A pass has its own
boolean function and constant, and takes the words in its own order with its own rotations.
`hash160` is RIPEMD-160 of SHA-256.
-/

namespace Keyring.Hash.Ripemd

/-- The five chaining words. -/
structure State where
  a : UInt32
  b : UInt32
  c : UInt32
  d : UInt32
  e : UInt32

/-! ### The boolean functions -/

/-- The first function. -/
def parity (x y z : UInt32) : UInt32 := x ^^^ y ^^^ z
/-- The second function: `x` chooses between `y` and `z`. -/
def choice (x y z : UInt32) : UInt32 := (x &&& y) ||| (~~~x &&& z)
/-- The third function. -/
def orParity (x y z : UInt32) : UInt32 := (x ||| ~~~y) ^^^ z
/-- The fourth function: `z` chooses between `x` and `y`. -/
def choiceLast (x y z : UInt32) : UInt32 := (x &&& z) ||| (y &&& ~~~z)
/-- The fifth function. -/
def parityOr (x y z : UInt32) : UInt32 := x ^^^ (y ||| ~~~z)

/-! ### Passes -/

/-- Sixteen steps: a function, a constant, the order of the words and the rotations. -/
structure Pass where
  mix : UInt32 → UInt32 → UInt32 → UInt32
  constant : UInt32
  order : List Nat
  rotations : List UInt32

/-- The passes of the left line. -/
def leftLine : List Pass :=
  [ ⟨parity, 0x00000000, [0, 1, 2, 3, 4, 5, 6, 7, 8, 9, 10, 11, 12, 13, 14, 15],
      [11, 14, 15, 12, 5, 8, 7, 9, 11, 13, 14, 15, 6, 7, 9, 8]⟩,
    ⟨choice, 0x5a827999, [7, 4, 13, 1, 10, 6, 15, 3, 12, 0, 9, 5, 2, 14, 11, 8],
      [7, 6, 8, 13, 11, 9, 7, 15, 7, 12, 15, 9, 11, 7, 13, 12]⟩,
    ⟨orParity, 0x6ed9eba1, [3, 10, 14, 4, 9, 15, 8, 1, 2, 7, 0, 6, 13, 11, 5, 12],
      [11, 13, 6, 7, 14, 9, 13, 15, 14, 8, 13, 6, 5, 12, 7, 5]⟩,
    ⟨choiceLast, 0x8f1bbcdc, [1, 9, 11, 10, 0, 8, 12, 4, 13, 3, 7, 15, 14, 5, 6, 2],
      [11, 12, 14, 15, 14, 15, 9, 8, 9, 14, 5, 6, 8, 6, 5, 12]⟩,
    ⟨parityOr, 0xa953fd4e, [4, 0, 5, 9, 7, 12, 2, 10, 14, 1, 3, 8, 11, 6, 15, 13],
      [9, 15, 5, 11, 6, 8, 13, 12, 5, 12, 13, 14, 11, 8, 5, 6]⟩ ]

/-- The passes of the right line. -/
def rightLine : List Pass :=
  [ ⟨parityOr, 0x50a28be6, [5, 14, 7, 0, 9, 2, 11, 4, 13, 6, 15, 8, 1, 10, 3, 12],
      [8, 9, 9, 11, 13, 15, 15, 5, 7, 7, 8, 11, 14, 14, 12, 6]⟩,
    ⟨choiceLast, 0x5c4dd124, [6, 11, 3, 7, 0, 13, 5, 10, 14, 15, 8, 12, 4, 9, 1, 2],
      [9, 13, 15, 7, 12, 8, 9, 11, 7, 7, 12, 7, 6, 15, 13, 11]⟩,
    ⟨orParity, 0x6d703ef3, [15, 5, 1, 3, 7, 14, 6, 9, 11, 8, 12, 2, 10, 0, 4, 13],
      [9, 7, 15, 11, 8, 6, 6, 14, 12, 13, 5, 14, 13, 13, 7, 5]⟩,
    ⟨choice, 0x7a6d76e9, [8, 6, 4, 1, 3, 11, 15, 0, 5, 12, 2, 13, 9, 7, 10, 14],
      [15, 5, 8, 11, 14, 14, 6, 14, 6, 9, 12, 9, 12, 5, 15, 8]⟩,
    ⟨parity, 0x00000000, [12, 15, 10, 4, 1, 5, 8, 7, 6, 2, 13, 14, 0, 3, 9, 11],
      [8, 5, 12, 9, 12, 5, 14, 6, 8, 13, 6, 5, 15, 13, 11, 11]⟩ ]

/-- Rotate to the left by `k`, between 1 and 31. -/
def rotateLeft (k w : UInt32) : UInt32 :=
  w <<< k ||| w >>> (32 - k)

/-- One step of a pass: take in the word `w` with rotation `k`. -/
def Pass.step (p : Pass) (s : State) (w k : UInt32) : State :=
  let t := rotateLeft k (s.a + p.mix s.b s.c s.d + w + p.constant) + s.e
  ⟨s.e, t, s.b, rotateLeft 10 s.c, s.d⟩

/-- The sixteen steps of a pass over a block. -/
def Pass.run (block : List UInt32) (s : State) (p : Pass) : State :=
  (List.zip p.order p.rotations).foldl (fun s r => p.step s (block.getD r.1 0) r.2) s

/-- Take one block into the state. -/
def compress (s : State) (block : List UInt32) : State :=
  let l := leftLine.foldl (Pass.run block) s
  let r := rightLine.foldl (Pass.run block) s
  ⟨s.b + l.c + r.d, s.c + l.d + r.e, s.d + l.e + r.a, s.e + l.a + r.b, s.a + l.b + r.c⟩

/-! ### Messages -/

/-- The word that a little-endian byte string spells. -/
def word (bs : Bytes) : UInt32 :=
  bs.reverse.foldl (fun w b => w <<< 8 ||| b.toUInt32) 0

/-- The little-endian bytes of a word. -/
def wordBytes (w : UInt32) : Bytes :=
  [w.toUInt8, (w >>> 8).toUInt8, (w >>> 16).toUInt8, (w >>> 24).toUInt8]

/-- A message filled up to whole blocks of 64 bytes: a one bit, zeros and the length in bits. -/
def pad (msg : Bytes) : Bytes :=
  msg ++ 0x80 :: Bytes.zeros ((119 - msg.length % 64) % 64) ++
    (Bytes.ofNat 8 (8 * msg.length)).reverse

/-- The state before the first block. -/
def initial : State :=
  ⟨0x67452301, 0xefcdab89, 0x98badcfe, 0x10325476, 0xc3d2e1f0⟩

/-- The bytes of the chaining words. -/
def State.toBytes (s : State) : Bytes :=
  [s.a, s.b, s.c, s.d, s.e].flatMap wordBytes

end Ripemd

/-- RIPEMD-160. -/
def ripemd160 (msg : Bytes) : Bytes :=
  ((chunks 64 (Ripemd.pad msg)).foldl (fun s b => Ripemd.compress s ((chunks 4 b).map Ripemd.word))
    Ripemd.initial).toBytes

/-- RIPEMD-160 of the SHA-256 digest. -/
def hash160 (msg : Bytes) : Bytes :=
  ripemd160 (sha256 msg)

@[simp] theorem length_ripemd160 (msg : Bytes) : (ripemd160 msg).length = 20 := rfl

@[simp] theorem length_hash160 (msg : Bytes) : (hash160 msg).length = 20 := rfl

end Keyring.Hash
