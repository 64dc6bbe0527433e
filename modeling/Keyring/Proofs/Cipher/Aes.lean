import Keyring.Cipher.Aes

/-!
# The block function is a permutation

Every step of a round is undone by its counterpart, in both directions, so `Aes.decrypt s` and
`Aes.encrypt s` are inverse to each other under any round keys. For the column matrices this comes
from doubling being linear for exclusive or (`twice_xor`): the matrix products cancel without
reducing any multiple.
-/

namespace Keyring.Cipher

namespace Column

theorem xor_cancel_right (u v : Column) : u ^^^ v ^^^ v = u := by
  obtain ⟨a, b, c, d⟩ := u
  show (⟨a ^^^ v.a ^^^ v.a, b ^^^ v.b ^^^ v.b, c ^^^ v.c ^^^ v.c, d ^^^ v.d ^^^ v.d⟩ : Column) = _
  simp only [UInt8.xor_assoc, UInt8.xor_self, UInt8.xor_zero]

theorem map_map {f g : UInt8 → UInt8} (h : ∀ x, g (f x) = x) (v : Column) :
    (v.map f).map g = v := by
  simp [map, h]

end Column

namespace Block

theorem xor_cancel_right (u v : Block) : u ^^^ v ^^^ v = u := by
  obtain ⟨w, x, y, z⟩ := u
  show (⟨w ^^^ v.w ^^^ v.w, x ^^^ v.x ^^^ v.x, y ^^^ v.y ^^^ v.y, z ^^^ v.z ^^^ v.z⟩ : Block) = _
  simp only [Column.xor_cancel_right]

theorem map_map {f g : Column → Column} (h : ∀ v, g (f v) = v) (v : Block) :
    (v.map f).map g = v := by
  simp [map, h]

end Block

namespace Aes

/-! ### Bytes and rows -/

/-- What holds of the 256 values holds of every byte. -/
theorem forall_byte {P : UInt8 → Prop} (h : ∀ n < 256, P (UInt8.ofNat n)) (x : UInt8) : P x := by
  have := h x.toNat x.toNat_lt
  rwa [UInt8.ofNat_toNat] at this

theorem substitute_unsubstitute : ∀ x, substitute (unsubstitute x) = x :=
  forall_byte (by decide +kernel)

theorem unshiftRows_shiftRows (v : Block) : unshiftRows (shiftRows v) = v := rfl

theorem shiftRows_unshiftRows (v : Block) : shiftRows (unshiftRows v) = v := rfl

/-! ### Multiples of bytes -/

theorem shiftRight_seven : ∀ x : UInt8, x >>> 7 = if x < 0x80 then 0 else 1 :=
  forall_byte (by decide +kernel)

/-- Doubling is linear: a shift, and a correction that depends on the highest bit only. -/
theorem twice_xor (x y : UInt8) : twice (x ^^^ y) = twice x ^^^ twice y := by
  have hs : (x ^^^ y) <<< 1 = x <<< 1 ^^^ y <<< 1 := UInt8.shiftLeft_xor
  have hb : (x ^^^ y) >>> 7 = x >>> 7 ^^^ y >>> 7 := UInt8.shiftRight_xor
  rw [shiftRight_seven, shiftRight_seven, shiftRight_seven] at hb
  have hc : (if x ^^^ y < 0x80 then 0 else 0x1b : UInt8) =
      (if x < 0x80 then 0 else 0x1b) ^^^ if y < 0x80 then 0 else 0x1b := by
    by_cases hx : x < 0x80 <;> by_cases hy : y < 0x80 <;> by_cases hxy : x ^^^ y < 0x80 <;>
      simp [hx, hy, hxy] at hb ⊢
  rw [twice, twice, twice, hs, hc]
  ac_rfl

theorem thrice_xor (x y : UInt8) : thrice (x ^^^ y) = thrice x ^^^ thrice y := by
  simp only [thrice, twice_xor]
  ac_rfl

theorem times9_xor (x y : UInt8) : times9 (x ^^^ y) = times9 x ^^^ times9 y := by
  simp only [times9, twice_xor]
  ac_rfl

theorem times11_xor (x y : UInt8) : times11 (x ^^^ y) = times11 x ^^^ times11 y := by
  simp only [times11, times9_xor, twice_xor]
  ac_rfl

theorem times13_xor (x y : UInt8) : times13 (x ^^^ y) = times13 x ^^^ times13 y := by
  simp only [times13, times9_xor, twice_xor]
  ac_rfl

theorem times14_xor (x y : UInt8) : times14 (x ^^^ y) = times14 x ^^^ times14 y := by
  simp only [times14, twice_xor]
  ac_rfl

/-! ### Columns -/

/-- The first row of the inverse matrix times each column of the matrix. -/
theorem unmix_products : ∀ x : UInt8,
    times14 (twice x) ^^^ times11 x ^^^ times13 x ^^^ times9 (thrice x) = x ∧
    times14 (thrice x) ^^^ times11 (twice x) ^^^ times13 x ^^^ times9 x = 0 ∧
    times14 x ^^^ times11 (thrice x) ^^^ times13 (twice x) ^^^ times9 x = 0 ∧
    times14 x ^^^ times11 x ^^^ times13 (thrice x) ^^^ times9 (twice x) = 0 :=
  forall_byte (by decide +kernel)

/-- The first row of the matrix times each column of the inverse matrix. -/
theorem mix_products : ∀ x : UInt8,
    twice (times14 x) ^^^ thrice (times9 x) ^^^ times13 x ^^^ times11 x = x ∧
    twice (times11 x) ^^^ thrice (times14 x) ^^^ times9 x ^^^ times13 x = 0 ∧
    twice (times13 x) ^^^ thrice (times11 x) ^^^ times14 x ^^^ times9 x = 0 ∧
    twice (times9 x) ^^^ thrice (times13 x) ^^^ times11 x ^^^ times14 x = 0 :=
  forall_byte (by decide +kernel)

/-- One row of the product of the column matrices. -/
theorem unmix_row (a b c d : UInt8) :
    times14 (twice a ^^^ thrice b ^^^ c ^^^ d) ^^^ times11 (a ^^^ twice b ^^^ thrice c ^^^ d) ^^^
      times13 (a ^^^ b ^^^ twice c ^^^ thrice d) ^^^ times9 (thrice a ^^^ b ^^^ c ^^^ twice d) =
        a := by
  calc
    _ = (times14 (twice a) ^^^ times11 a ^^^ times13 a ^^^ times9 (thrice a)) ^^^
        (times14 (thrice b) ^^^ times11 (twice b) ^^^ times13 b ^^^ times9 b) ^^^
        (times14 c ^^^ times11 (thrice c) ^^^ times13 (twice c) ^^^ times9 c) ^^^
        (times14 d ^^^ times11 d ^^^ times13 (thrice d) ^^^ times9 (twice d)) := by
      simp only [times14_xor, times11_xor, times13_xor, times9_xor]
      ac_rfl
    _ = a ^^^ 0 ^^^ 0 ^^^ 0 := by
      rw [(unmix_products a).1, (unmix_products b).2.1, (unmix_products c).2.2.1,
        (unmix_products d).2.2.2]
    _ = a := by simp

/-- One row of the product in the other order. -/
theorem mix_row (a b c d : UInt8) :
    twice (times14 a ^^^ times11 b ^^^ times13 c ^^^ times9 d) ^^^
      thrice (times9 a ^^^ times14 b ^^^ times11 c ^^^ times13 d) ^^^
      (times13 a ^^^ times9 b ^^^ times14 c ^^^ times11 d) ^^^
      (times11 a ^^^ times13 b ^^^ times9 c ^^^ times14 d) = a := by
  calc
    _ = (twice (times14 a) ^^^ thrice (times9 a) ^^^ times13 a ^^^ times11 a) ^^^
        (twice (times11 b) ^^^ thrice (times14 b) ^^^ times9 b ^^^ times13 b) ^^^
        (twice (times13 c) ^^^ thrice (times11 c) ^^^ times14 c ^^^ times9 c) ^^^
        (twice (times9 d) ^^^ thrice (times13 d) ^^^ times11 d ^^^ times14 d) := by
      simp only [twice_xor, thrice_xor]
      ac_rfl
    _ = a ^^^ 0 ^^^ 0 ^^^ 0 := by
      rw [(mix_products a).1, (mix_products b).2.1, (mix_products c).2.2.1, (mix_products d).2.2.2]
    _ = a := by simp

/-- Both matrices are circulant, so every row is the first one with the bytes turned round. -/
theorem unmixColumn_mixColumn (v : Column) : unmixColumn (mixColumn v) = v := by
  obtain ⟨a, b, c, d⟩ := v
  simp only [mixColumn, unmixColumn, Column.mk.injEq]
  refine ⟨unmix_row a b c d, ?_, ?_, ?_⟩
  · refine Eq.trans ?_ (unmix_row b c d a)
    ac_rfl
  · refine Eq.trans ?_ (unmix_row c d a b)
    ac_rfl
  · refine Eq.trans ?_ (unmix_row d a b c)
    ac_rfl

theorem mixColumn_unmixColumn (v : Column) : mixColumn (unmixColumn v) = v := by
  obtain ⟨a, b, c, d⟩ := v
  simp only [mixColumn, unmixColumn, Column.mk.injEq]
  refine ⟨mix_row a b c d, ?_, ?_, ?_⟩
  · refine Eq.trans ?_ (mix_row b c d a)
    ac_rfl
  · refine Eq.trans ?_ (mix_row c d a b)
    ac_rfl
  · refine Eq.trans ?_ (mix_row d a b c)
    ac_rfl

/-! ### Rounds -/

theorem unround_round (v key : Block) : unround (round v key) key = v := by
  rw [unround, round, Block.xor_cancel_right, Block.map_map unmixColumn_mixColumn,
    unshiftRows_shiftRows, Block.map_map (Column.map_map unsubstitute_substitute)]

theorem round_unround (v key : Block) : round (unround v key) key = v := by
  rw [unround, round, Block.map_map (Column.map_map substitute_unsubstitute), shiftRows_unshiftRows,
    Block.map_map mixColumn_unmixColumn, Block.xor_cancel_right]

theorem unlastRound_lastRound (v key : Block) : unlastRound (lastRound v key) key = v := by
  rw [unlastRound, lastRound, Block.xor_cancel_right, unshiftRows_shiftRows,
    Block.map_map (Column.map_map unsubstitute_substitute)]

theorem lastRound_unlastRound (v key : Block) : lastRound (unlastRound v key) key = v := by
  rw [unlastRound, lastRound, Block.map_map (Column.map_map substitute_unsubstitute),
    shiftRows_unshiftRows, Block.xor_cancel_right]

/-! ### The block function -/

/-- The rounds are undone from the last one on. -/
theorem foldr_unround_foldl_round (keys : List Block) (v : Block) :
    keys.foldr (fun key v => unround v key) (keys.foldl round v) = v := by
  induction keys generalizing v with
  | nil => rfl
  | cons key keys ih => rw [List.foldl_cons, List.foldr_cons, ih, unround_round]

theorem foldl_round_foldr_unround (keys : List Block) (v : Block) :
    keys.foldl round (keys.foldr (fun key v => unround v key) v) = v := by
  induction keys with
  | nil => rfl
  | cons key keys ih => rw [List.foldr_cons, List.foldl_cons, round_unround, ih]

/-- The block function is undone under any round keys. -/
theorem decrypt_encrypt (s : Schedule) (v : Block) : decrypt s (encrypt s v) = v := by
  rw [decrypt, encrypt, unlastRound_lastRound, foldr_unround_foldl_round, Block.xor_cancel_right]

theorem encrypt_decrypt (s : Schedule) (v : Block) : encrypt s (decrypt s v) = v := by
  rw [decrypt, encrypt, Block.xor_cancel_right, foldl_round_foldr_unround, lastRound_unlastRound]

end Aes

end Keyring.Cipher
