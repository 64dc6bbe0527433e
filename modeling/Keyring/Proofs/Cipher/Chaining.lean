import Keyring.Cipher.Chaining
import Keyring.Proofs.Bytes
import Keyring.Proofs.Cipher.Aes

/-!
# Padding and chaining are undone

The filling of a message says how long it is, so it can be taken off again, and no other text of
whole blocks has such a filling. Chaining under a permutation of the blocks is a permutation of the
texts of whole blocks.
-/

namespace Keyring.Cipher

/-! ### Padding -/

namespace Padding

theorem dvd_length_fill (msg : Bytes) : blockSize ∣ (fill msg).length :=
  ⟨_, length_fill msg⟩

/-- The filling of a message is taken off again. -/
theorem strip?_fill (msg : Bytes) : strip? (fill msg) = some msg := by
  have hk : blockSize = 16 := rfl
  obtain ⟨n, hn⟩ : ∃ n, blockSize - msg.length % blockSize = n + 1 :=
    ⟨15 - msg.length % 16, by rw [hk]; omega⟩
  have hle : n + 1 ≤ blockSize := hn ▸ Nat.sub_le _ _
  have hb : (UInt8.ofNat (n + 1)).toNat = n + 1 :=
    UInt8.toNat_ofNat_of_lt' (Nat.lt_of_le_of_lt hle (by decide))
  have hlast : ((msg ++ List.replicate (n + 1) (UInt8.ofNat (n + 1))).getLastD 0).toNat =
      n + 1 := by
    rw [List.replicate_succ', ← List.append_assoc, List.getLastD_concat, hb]
  have hcut : (msg ++ List.replicate (n + 1) (UInt8.ofNat (n + 1))).length - (n + 1) =
      msg.length := by
    simp
  simp only [fill, hn, strip?, hlast, hcut, List.drop_left, List.take_left]
  refine if_pos ⟨n.succ_pos, hle, by simp, List.all_eq_true.2 fun b hm => ?_⟩
  rw [List.eq_of_mem_replicate hm, hb, decide_eq_true_eq]

/-- The filling of a text of whole blocks tells the length of the message, so it can be no other. -/
theorem eq_fill_of_strip? {filled msg : Bytes} (h : blockSize ∣ filled.length)
    (hs : strip? filled = some msg) : filled = fill msg := by
  have hk : blockSize = 16 := rfl
  simp only [strip?] at hs
  rw [hk] at h
  generalize (filled.getLastD 0).toNat = n at hs
  rw [Option.ite_none_right_eq_some, Option.some.injEq] at hs
  obtain ⟨⟨hpos, hle, hlen, hall⟩, rfl⟩ := hs
  have hdrop : filled.drop (filled.length - n) = List.replicate n (UInt8.ofNat n) := by
    refine List.eq_replicate_iff.2 ⟨by rw [List.length_drop]; omega, fun b hb => ?_⟩
    have hbn : b.toNat = n := by simpa using List.all_eq_true.1 hall b hb
    rw [← hbn, UInt8.ofNat_toNat]
  have hn : blockSize - (filled.take (filled.length - n)).length % blockSize = n := by
    rw [List.length_take, hk]
    omega
  rw [fill, hn, ← hdrop, List.take_append_drop]

/-- Of the texts of whole blocks, only a filled message is stripped, and it gives that message. -/
theorem strip?_eq_some_iff {filled msg : Bytes} (h : blockSize ∣ filled.length) :
    strip? filled = some msg ↔ filled = fill msg :=
  ⟨eq_fill_of_strip? h, fun e => e ▸ strip?_fill msg⟩

end Padding

/-! ### Blocks of a text -/

namespace Block

theorem exists_column (bs : Bytes) (h : 4 ≤ bs.length) :
    ∃ (v : Column) (rest : Bytes), bs = v.toBytes ++ rest ∧ rest.length + 4 = bs.length := by
  rcases bs with _ | ⟨a, _ | ⟨b, _ | ⟨c, _ | ⟨d, rest⟩⟩⟩⟩
  · simp at h
  · simp at h
  · simp at h
  · simp at h
  · exact ⟨⟨a, b, c, d⟩, rest, rfl, rfl⟩

theorem toBytes_ofBytes {bs : Bytes} (h : bs.length = blockSize) : (ofBytes bs).toBytes = bs := by
  have h16 : bs.length = 16 := h
  obtain ⟨w, bs₁, rfl, h₁⟩ := exists_column bs (by omega)
  obtain ⟨x, bs₂, rfl, h₂⟩ := exists_column bs₁ (by omega)
  obtain ⟨y, bs₃, rfl, h₃⟩ := exists_column bs₂ (by omega)
  obtain ⟨z, bs₄, rfl, h₄⟩ := exists_column bs₃ (by omega)
  obtain rfl : bs₄ = [] := List.length_eq_zero_iff.1 (by omega)
  rfl

end Block

namespace Chaining

theorem blocks_flatMap (vs : List Block) : blocks (vs.flatMap Block.toBytes) = vs := by
  induction vs with
  | nil => rfl
  | cons v vs ih =>
    rw [blocks] at ih ⊢
    rw [List.flatMap_cons, chunks_append (by decide) (by simp [blockSize]), List.map_cons, ih,
      Block.ofBytes_toBytes]

theorem flatMap_blocks {bs : Bytes} (h : blockSize ∣ bs.length) :
    (blocks bs).flatMap Block.toBytes = bs := by
  refine block_induction (P := fun bs => (blocks bs).flatMap Block.toBytes = bs) rfl ?_ h
  intro xs ys hx ih
  rw [blocks, chunks_append (by decide) hx, List.map_cons, List.flatMap_cons,
    Block.toBytes_ofBytes hx]
  rw [← blocks, ih]

theorem length_flatMap_toBytes (vs : List Block) :
    (vs.flatMap Block.toBytes).length = blockSize * vs.length := by
  induction vs with
  | nil => rfl
  | cons v vs ih =>
    rw [List.flatMap_cons, List.length_append, ih, Block.length_toBytes, List.length_cons,
      Nat.mul_succ, Nat.add_comm, blockSize]

/-! ### Chaining -/

theorem length_encryptBlocks (f : Block → Block) (before : Block) (vs : List Block) :
    (encryptBlocks f before vs).length = vs.length := by
  induction vs generalizing before with
  | nil => rfl
  | cons v vs ih => simp [encryptBlocks, ih]

theorem length_decryptBlocks (g : Block → Block) (before : Block) (cs : List Block) :
    (decryptBlocks g before cs).length = cs.length := by
  induction cs generalizing before with
  | nil => rfl
  | cons c cs ih => simp [decryptBlocks, ih]

theorem length_encrypt (f : Block → Block) (iv : Bytes) {bs : Bytes} (h : blockSize ∣ bs.length) :
    (encrypt f iv bs).length = bs.length := by
  rw [encrypt, length_flatMap_toBytes, length_encryptBlocks, ← length_flatMap_toBytes,
    flatMap_blocks h]

theorem length_decrypt (g : Block → Block) (iv : Bytes) {cs : Bytes} (h : blockSize ∣ cs.length) :
    (decrypt g iv cs).length = cs.length := by
  rw [decrypt, length_flatMap_toBytes, length_decryptBlocks, ← length_flatMap_toBytes,
    flatMap_blocks h]

section Permutation

variable {f g : Block → Block}

theorem decryptBlocks_encryptBlocks (h : ∀ v, g (f v) = v) (before : Block) (vs : List Block) :
    decryptBlocks g before (encryptBlocks f before vs) = vs := by
  induction vs generalizing before with
  | nil => rfl
  | cons v vs ih => simp only [encryptBlocks, decryptBlocks, h, ih, Block.xor_cancel_right]

theorem encryptBlocks_decryptBlocks (h : ∀ v, f (g v) = v) (before : Block) (cs : List Block) :
    encryptBlocks f before (decryptBlocks g before cs) = cs := by
  induction cs generalizing before with
  | nil => rfl
  | cons c cs ih => simp only [encryptBlocks, decryptBlocks, h, ih, Block.xor_cancel_right]

/-- Chaining is undone if the block function is undone. -/
theorem decrypt_encrypt (h : ∀ v, g (f v) = v) (iv : Bytes) {bs : Bytes}
    (hb : blockSize ∣ bs.length) : decrypt g iv (encrypt f iv bs) = bs := by
  rw [decrypt, encrypt, blocks_flatMap, decryptBlocks_encryptBlocks h, flatMap_blocks hb]

/-- Chaining undoes its inverse, so no two texts of whole blocks are decrypted alike. -/
theorem encrypt_decrypt (h : ∀ v, f (g v) = v) (iv : Bytes) {cs : Bytes}
    (hc : blockSize ∣ cs.length) : encrypt f iv (decrypt g iv cs) = cs := by
  rw [decrypt, encrypt, blocks_flatMap, encryptBlocks_decryptBlocks h, flatMap_blocks hc]

end Permutation

end Chaining

end Keyring.Cipher
