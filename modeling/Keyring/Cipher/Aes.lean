import Keyring.Bytes

/-!
# AES with 256-bit keys

A block is four columns of four bytes. A round substitutes bytes, shifts rows, mixes columns and
adds a round key; decryption undoes these steps one by one in the opposite order.
-/

namespace Keyring.Cipher

/-- A column of a block. -/
structure Column where
  a : UInt8
  b : UInt8
  c : UInt8
  d : UInt8
  deriving DecidableEq, Repr

/-- A block of sixteen bytes, column by column. -/
structure Block where
  w : Column
  x : Column
  y : Column
  z : Column
  deriving DecidableEq, Repr

namespace Column

/-- Apply a function to every byte. -/
def map (f : UInt8 → UInt8) (v : Column) : Column :=
  ⟨f v.a, f v.b, f v.c, f v.d⟩

instance : XorOp Column where
  xor u v := ⟨u.a ^^^ v.a, u.b ^^^ v.b, u.c ^^^ v.c, u.d ^^^ v.d⟩

/-- The bytes from the top down. -/
def toBytes (v : Column) : Bytes :=
  [v.a, v.b, v.c, v.d]

end Column

namespace Block

/-- Apply a function to every column. -/
def map (f : Column → Column) (v : Block) : Block :=
  ⟨f v.w, f v.x, f v.y, f v.z⟩

instance : XorOp Block where
  xor u v := ⟨u.w ^^^ v.w, u.x ^^^ v.x, u.y ^^^ v.y, u.z ^^^ v.z⟩

/-- The sixteen bytes of a block. -/
def toBytes (v : Block) : Bytes :=
  v.w.toBytes ++ v.x.toBytes ++ v.y.toBytes ++ v.z.toBytes

/-- The block of the first sixteen bytes, zeros for missing ones. -/
def ofBytes (bs : Bytes) : Block :=
  let column (i : Nat) : Column :=
    ⟨bs.getD i 0, bs.getD (i + 1) 0, bs.getD (i + 2) 0, bs.getD (i + 3) 0⟩
  ⟨column 0, column 4, column 8, column 12⟩

@[simp] theorem length_toBytes (v : Block) : v.toBytes.length = 16 := rfl

@[simp] theorem ofBytes_toBytes (v : Block) : ofBytes v.toBytes = v := rfl

end Block

namespace Aes

/-! ### The steps of a round -/

/-- The substitution of bytes, a row for each upper half. -/
def substitutes : List (List UInt8) :=
  [[0x63, 0x7c, 0x77, 0x7b, 0xf2, 0x6b, 0x6f, 0xc5, 0x30, 0x01, 0x67, 0x2b, 0xfe, 0xd7, 0xab, 0x76],
   [0xca, 0x82, 0xc9, 0x7d, 0xfa, 0x59, 0x47, 0xf0, 0xad, 0xd4, 0xa2, 0xaf, 0x9c, 0xa4, 0x72, 0xc0],
   [0xb7, 0xfd, 0x93, 0x26, 0x36, 0x3f, 0xf7, 0xcc, 0x34, 0xa5, 0xe5, 0xf1, 0x71, 0xd8, 0x31, 0x15],
   [0x04, 0xc7, 0x23, 0xc3, 0x18, 0x96, 0x05, 0x9a, 0x07, 0x12, 0x80, 0xe2, 0xeb, 0x27, 0xb2, 0x75],
   [0x09, 0x83, 0x2c, 0x1a, 0x1b, 0x6e, 0x5a, 0xa0, 0x52, 0x3b, 0xd6, 0xb3, 0x29, 0xe3, 0x2f, 0x84],
   [0x53, 0xd1, 0x00, 0xed, 0x20, 0xfc, 0xb1, 0x5b, 0x6a, 0xcb, 0xbe, 0x39, 0x4a, 0x4c, 0x58, 0xcf],
   [0xd0, 0xef, 0xaa, 0xfb, 0x43, 0x4d, 0x33, 0x85, 0x45, 0xf9, 0x02, 0x7f, 0x50, 0x3c, 0x9f, 0xa8],
   [0x51, 0xa3, 0x40, 0x8f, 0x92, 0x9d, 0x38, 0xf5, 0xbc, 0xb6, 0xda, 0x21, 0x10, 0xff, 0xf3, 0xd2],
   [0xcd, 0x0c, 0x13, 0xec, 0x5f, 0x97, 0x44, 0x17, 0xc4, 0xa7, 0x7e, 0x3d, 0x64, 0x5d, 0x19, 0x73],
   [0x60, 0x81, 0x4f, 0xdc, 0x22, 0x2a, 0x90, 0x88, 0x46, 0xee, 0xb8, 0x14, 0xde, 0x5e, 0x0b, 0xdb],
   [0xe0, 0x32, 0x3a, 0x0a, 0x49, 0x06, 0x24, 0x5c, 0xc2, 0xd3, 0xac, 0x62, 0x91, 0x95, 0xe4, 0x79],
   [0xe7, 0xc8, 0x37, 0x6d, 0x8d, 0xd5, 0x4e, 0xa9, 0x6c, 0x56, 0xf4, 0xea, 0x65, 0x7a, 0xae, 0x08],
   [0xba, 0x78, 0x25, 0x2e, 0x1c, 0xa6, 0xb4, 0xc6, 0xe8, 0xdd, 0x74, 0x1f, 0x4b, 0xbd, 0x8b, 0x8a],
   [0x70, 0x3e, 0xb5, 0x66, 0x48, 0x03, 0xf6, 0x0e, 0x61, 0x35, 0x57, 0xb9, 0x86, 0xc1, 0x1d, 0x9e],
   [0xe1, 0xf8, 0x98, 0x11, 0x69, 0xd9, 0x8e, 0x94, 0x9b, 0x1e, 0x87, 0xe9, 0xce, 0x55, 0x28, 0xdf],
   [0x8c, 0xa1, 0x89, 0x0d, 0xbf, 0xe6, 0x42, 0x68, 0x41, 0x99, 0x2d, 0x0f, 0xb0, 0x54, 0xbb, 0x16]]

/-- The inverse substitution, a row for each upper half. -/
def preimages : List (List UInt8) :=
  [[0x52, 0x09, 0x6a, 0xd5, 0x30, 0x36, 0xa5, 0x38, 0xbf, 0x40, 0xa3, 0x9e, 0x81, 0xf3, 0xd7, 0xfb],
   [0x7c, 0xe3, 0x39, 0x82, 0x9b, 0x2f, 0xff, 0x87, 0x34, 0x8e, 0x43, 0x44, 0xc4, 0xde, 0xe9, 0xcb],
   [0x54, 0x7b, 0x94, 0x32, 0xa6, 0xc2, 0x23, 0x3d, 0xee, 0x4c, 0x95, 0x0b, 0x42, 0xfa, 0xc3, 0x4e],
   [0x08, 0x2e, 0xa1, 0x66, 0x28, 0xd9, 0x24, 0xb2, 0x76, 0x5b, 0xa2, 0x49, 0x6d, 0x8b, 0xd1, 0x25],
   [0x72, 0xf8, 0xf6, 0x64, 0x86, 0x68, 0x98, 0x16, 0xd4, 0xa4, 0x5c, 0xcc, 0x5d, 0x65, 0xb6, 0x92],
   [0x6c, 0x70, 0x48, 0x50, 0xfd, 0xed, 0xb9, 0xda, 0x5e, 0x15, 0x46, 0x57, 0xa7, 0x8d, 0x9d, 0x84],
   [0x90, 0xd8, 0xab, 0x00, 0x8c, 0xbc, 0xd3, 0x0a, 0xf7, 0xe4, 0x58, 0x05, 0xb8, 0xb3, 0x45, 0x06],
   [0xd0, 0x2c, 0x1e, 0x8f, 0xca, 0x3f, 0x0f, 0x02, 0xc1, 0xaf, 0xbd, 0x03, 0x01, 0x13, 0x8a, 0x6b],
   [0x3a, 0x91, 0x11, 0x41, 0x4f, 0x67, 0xdc, 0xea, 0x97, 0xf2, 0xcf, 0xce, 0xf0, 0xb4, 0xe6, 0x73],
   [0x96, 0xac, 0x74, 0x22, 0xe7, 0xad, 0x35, 0x85, 0xe2, 0xf9, 0x37, 0xe8, 0x1c, 0x75, 0xdf, 0x6e],
   [0x47, 0xf1, 0x1a, 0x71, 0x1d, 0x29, 0xc5, 0x89, 0x6f, 0xb7, 0x62, 0x0e, 0xaa, 0x18, 0xbe, 0x1b],
   [0xfc, 0x56, 0x3e, 0x4b, 0xc6, 0xd2, 0x79, 0x20, 0x9a, 0xdb, 0xc0, 0xfe, 0x78, 0xcd, 0x5a, 0xf4],
   [0x1f, 0xdd, 0xa8, 0x33, 0x88, 0x07, 0xc7, 0x31, 0xb1, 0x12, 0x10, 0x59, 0x27, 0x80, 0xec, 0x5f],
   [0x60, 0x51, 0x7f, 0xa9, 0x19, 0xb5, 0x4a, 0x0d, 0x2d, 0xe5, 0x7a, 0x9f, 0x93, 0xc9, 0x9c, 0xef],
   [0xa0, 0xe0, 0x3b, 0x4d, 0xae, 0x2a, 0xf5, 0xb0, 0xc8, 0xeb, 0xbb, 0x3c, 0x83, 0x53, 0x99, 0x61],
   [0x17, 0x2b, 0x04, 0x7e, 0xba, 0x77, 0xd6, 0x26, 0xe1, 0x69, 0x14, 0x63, 0x55, 0x21, 0x0c, 0x7d]]

/-- The entry of a table for a byte. -/
def entry (table : List (List UInt8)) (x : UInt8) : UInt8 :=
  (table.getD (x.toNat / 16) []).getD (x.toNat % 16) 0

/-- Substitute a byte. -/
def substitute (x : UInt8) : UInt8 :=
  entry substitutes x

/-- Undo the substitution of a byte. -/
def unsubstitute (x : UInt8) : UInt8 :=
  entry preimages x

/-- Row `i` moves `i` columns to the left. -/
def shiftRows (v : Block) : Block :=
  ⟨⟨v.w.a, v.x.b, v.y.c, v.z.d⟩, ⟨v.x.a, v.y.b, v.z.c, v.w.d⟩, ⟨v.y.a, v.z.b, v.w.c, v.x.d⟩,
    ⟨v.z.a, v.w.b, v.x.c, v.y.d⟩⟩

/-- Row `i` moves `i` columns to the right. -/
def unshiftRows (v : Block) : Block :=
  ⟨⟨v.w.a, v.z.b, v.y.c, v.x.d⟩, ⟨v.x.a, v.w.b, v.z.c, v.y.d⟩, ⟨v.y.a, v.x.b, v.w.c, v.z.d⟩,
    ⟨v.z.a, v.y.b, v.x.c, v.w.d⟩⟩

/-- Twice a byte in the field of 256 elements. -/
def twice (x : UInt8) : UInt8 :=
  x <<< 1 ^^^ if x < 0x80 then 0 else 0x1b

/-- Three times a byte. -/
def thrice (x : UInt8) : UInt8 :=
  twice x ^^^ x

/-- Multiply a column by the circulant matrix of 2, 3, 1, 1. -/
def mixColumn (v : Column) : Column :=
  ⟨twice v.a ^^^ thrice v.b ^^^ v.c ^^^ v.d, v.a ^^^ twice v.b ^^^ thrice v.c ^^^ v.d,
    v.a ^^^ v.b ^^^ twice v.c ^^^ thrice v.d, thrice v.a ^^^ v.b ^^^ v.c ^^^ twice v.d⟩

/-- Multiples of a byte by 9, 11, 13 and 14. -/
def times9 (x : UInt8) : UInt8 := twice (twice (twice x)) ^^^ x
/-- Eleven times a byte. -/
def times11 (x : UInt8) : UInt8 := times9 x ^^^ twice x
/-- Thirteen times a byte. -/
def times13 (x : UInt8) : UInt8 := times9 x ^^^ twice (twice x)
/-- Fourteen times a byte. -/
def times14 (x : UInt8) : UInt8 := twice (twice (twice x)) ^^^ twice (twice x) ^^^ twice x

/-- Multiply a column by the circulant matrix of 14, 11, 13, 9. -/
def unmixColumn (v : Column) : Column :=
  ⟨times14 v.a ^^^ times11 v.b ^^^ times13 v.c ^^^ times9 v.d,
    times9 v.a ^^^ times14 v.b ^^^ times11 v.c ^^^ times13 v.d,
    times13 v.a ^^^ times9 v.b ^^^ times14 v.c ^^^ times11 v.d,
    times11 v.a ^^^ times13 v.b ^^^ times9 v.c ^^^ times14 v.d⟩

/-- A round under a round key. -/
def round (v key : Block) : Block :=
  (shiftRows (v.map (·.map substitute))).map mixColumn ^^^ key

/-- Undo a round. -/
def unround (v key : Block) : Block :=
  (unshiftRows ((v ^^^ key).map unmixColumn)).map (·.map unsubstitute)

/-- The last round, which mixes no columns. -/
def lastRound (v key : Block) : Block :=
  shiftRows (v.map (·.map substitute)) ^^^ key

/-- Undo the last round. -/
def unlastRound (v key : Block) : Block :=
  (unshiftRows (v ^^^ key)).map (·.map unsubstitute)

/-! ### Round keys -/

/-- The round keys in the order of encryption. -/
structure Schedule where
  first : Block
  middle : List Block
  last : Block

/-- Add `t` to the first column, the sum to the second, and so on. -/
def chain (v : Block) (t : Column) : Block :=
  let w := v.w ^^^ t
  let x := v.x ^^^ w
  let y := v.y ^^^ x
  ⟨w, x, y, v.z ^^^ y⟩

/-- The round keys from two successive ones on, two more for each round constant. -/
def keysFrom : (constants : Bytes) → (u v : Block) → List Block
  | [], u, v => [u, v]
  | r :: rs, u, v =>
    let t := v.z.map substitute
    let u' := chain u ⟨t.b ^^^ r, t.c, t.d, t.a⟩
    let v' := chain v (u'.z.map substitute)
    u :: v :: keysFrom rs u' v'

/-- The round keys of a key of 32 bytes: one to begin with, thirteen and the last. -/
def schedule (key : Bytes) : Schedule :=
  let u := Block.ofBytes key
  let keys := keysFrom [0x01, 0x02, 0x04, 0x08, 0x10, 0x20, 0x40] u (Block.ofBytes (key.drop 16))
  ⟨u, (keys.drop 1).take 13, keys.getD 14 u⟩

/-! ### The block function -/

/-- Encrypt a block. -/
def encrypt (s : Schedule) (v : Block) : Block :=
  lastRound (s.middle.foldl round (v ^^^ s.first)) s.last

/-- Decrypt a block. -/
def decrypt (s : Schedule) (v : Block) : Block :=
  s.middle.foldr (fun key v => unround v key) (unlastRound v s.last) ^^^ s.first

/-- The two substitution tables are inverse to each other. -/
theorem unsubstitute_substitute (x : UInt8) : unsubstitute (substitute x) = x := by
  have h : ∀ n < 256, unsubstitute (substitute (UInt8.ofNat n)) = UInt8.ofNat n := by decide +kernel
  have := h x.toNat x.toNat_lt
  rwa [UInt8.ofNat_toNat] at this

end Aes

end Keyring.Cipher
