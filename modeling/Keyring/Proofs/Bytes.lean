import Keyring.Bytes
import Keyring.Proofs.Radix

/-!
# Numbers and blocks of byte strings

A byte string of known length and the number that it spells determine each other
(`Bytes.toNat_ofNat`, `Bytes.ofNat_toNat`), and its first bytes bound the number. A list is taken
apart block by block with `chunks_append` and `block_induction`.
-/

namespace Keyring

/-! ### Numbers -/

namespace Bytes

theorem toNat_ofNat (w n : ℕ) : toNat (ofNat w n) = n % 256 ^ w := by
  have h : ∀ v m,
      ((Radix.fixed 256 v m).map UInt8.ofNat).map UInt8.toNat = Radix.fixed 256 v m := by
    intro v
    induction v with
    | zero => simp [Radix.fixed]
    | succ v ih => intro m; simp [Radix.fixed, ih]
  rw [toNat, ofNat, h, Radix.value_fixed]

theorem ofNat_toNat {w : ℕ} {bs : Bytes} (h : bs.length = w) : ofNat w (toNat bs) = bs := by
  have hdigits : ∀ d ∈ bs.map UInt8.toNat, d < 256 := by
    intro d hd
    obtain ⟨b, -, rfl⟩ := List.mem_map.1 hd
    exact b.toNat_lt
  have hfixed : Radix.fixed 256 w (Radix.value 256 (bs.map UInt8.toNat)) = bs.map UInt8.toNat := by
    rw [← h, ← List.length_map UInt8.toNat]
    exact Radix.fixed_value hdigits
  rw [ofNat, toNat, hfixed, List.map_map]
  exact List.map_id'' (fun b => UInt8.ofNat_toNat) bs

theorem toNat_lt (bs : Bytes) : toNat bs < 256 ^ bs.length := by
  rw [← List.length_map UInt8.toNat, toNat]
  refine Radix.value_lt (by decide) fun d hd => ?_
  obtain ⟨b, -, rfl⟩ := List.mem_map.1 hd
  exact b.toNat_lt

theorem ofNat_inj {w m n : ℕ} (hm : m < 256 ^ w) (hn : n < 256 ^ w) :
    ofNat w m = ofNat w n ↔ m = n := by
  refine ⟨fun h => ?_, fun h => congrArg _ h⟩
  rw [← Nat.mod_eq_of_lt hm, ← Nat.mod_eq_of_lt hn, ← toNat_ofNat, ← toNat_ofNat, h]

/-- The number that a byte string of given length spells lies in the range of its first bytes. -/
theorem toNat_append_bounds (front bs : Bytes) :
    front.toNat * 256 ^ bs.length ≤ toNat (front ++ bs) ∧
    toNat (front ++ bs) < (front.toNat + 1) * 256 ^ bs.length := by
  have hlt := toNat_lt bs
  have happend : toNat (front ++ bs) = front.toNat * 256 ^ bs.length + bs.toNat := by
    rw [toNat, List.map_append, Radix.value_append, List.length_map]
    rfl
  rw [happend, Nat.succ_mul]
  omega

theorem toNat_cons_bounds (b : UInt8) (bs : Bytes) :
    b.toNat * 256 ^ bs.length ≤ toNat (b :: bs) ∧
      toNat (b :: bs) < (b.toNat + 1) * 256 ^ bs.length := by
  have hone : toNat [b] = b.toNat := by simp [toNat, Radix.value]
  have h := toNat_append_bounds [b] bs
  rwa [hone] at h

end Bytes

/-! ### Blocks -/

variable {α : Type} {k : ℕ}

/-- The bound on the number of blocks does not matter as long as it suffices. -/
theorem chunksUpTo_eq (hk : 0 < k) {m n : ℕ} {xs : List α} (hm : xs.length ≤ m)
    (hn : xs.length ≤ n) : chunksUpTo k m xs = chunksUpTo k n xs := by
  induction m generalizing n xs with
  | zero =>
    obtain rfl : xs = [] := List.length_eq_zero_iff.1 (by omega)
    cases n <;> rfl
  | succ m ih =>
    cases xs with
    | nil => cases n <;> rfl
    | cons x xs =>
      cases n with
      | zero => simp at hn
      | succ n =>
        have hd : ((x :: xs).drop k).length ≤ xs.length := by simp; omega
        simp only [List.length_cons] at hm hn
        rw [chunksUpTo, chunksUpTo, ih (by omega) (n := n) (by omega)]

theorem chunks_append (hk : 0 < k) {xs : List α} (h : xs.length = k) (ys : List α) :
    chunks k (xs ++ ys) = xs :: chunks k ys := by
  cases xs with
  | nil => simp at h; omega
  | cons x xs =>
    have ht : (x :: (xs ++ ys)).take k = x :: xs := by
      rw [← List.cons_append, ← h]; exact List.take_left
    have hd : (x :: (xs ++ ys)).drop k = ys := by rw [← List.cons_append, ← h]; exact List.drop_left
    rw [chunks, List.cons_append, List.length_cons, chunksUpTo, ht, hd, chunks,
      chunksUpTo_eq hk (n := ys.length) (by simp) (Nat.le_refl _)]

/-- Induction over the whole blocks of a list. -/
theorem block_induction {P : List α → Prop} (nil : P [])
    (append : ∀ xs ys, xs.length = k → P ys → P (xs ++ ys)) {xs : List α} (h : k ∣ xs.length) :
    P xs := by
  obtain ⟨n, hn⟩ := h
  induction n generalizing xs with
  | zero =>
    obtain rfl : xs = [] := List.length_eq_zero_iff.1 hn
    exact nil
  | succ n ih =>
    rw [Nat.mul_succ] at hn
    rw [← List.take_append_drop k xs]
    exact append _ _ (by rw [List.length_take]; omega) (ih (by rw [List.length_drop]; omega))

end Keyring
