import Keyring.Radix
import Mathlib.Data.Nat.Digits.Lemmas

/-!
# Numerals are unique

`Radix.digits` and `Radix.value` are Mathlib's digits, highest first. So the digits that a number is
written with are below the base, and a list of such digits without a zero in front is the numeral of
its value.

* `value_append`: a numeral is its upper part, shifted, plus its lower part.
* `value_digits`, `digits_value`: what is written is read back, and a list of digits without leading
  zeros is written back.
* `value_fixed`, `fixed_value`: the same for numerals of fixed width.
* `digits_append_fixed`: the upper part of a number shows in its first digits.
* `foldl_digits`: the relation that a loop over the digits of a number keeps.
-/

namespace Keyring.Radix

/-! ### Reading -/

theorem foldl_eq_value (b : ℕ) (ds : List ℕ) (n : ℕ) :
    ds.foldl (fun n d => n * b + d) n = n * b ^ ds.length + value b ds := by
  induction ds generalizing n with
  | nil => simp
  | cons d ds ih =>
    have h : value b (d :: ds) = d * b ^ ds.length + value b ds := by
      rw [value, List.foldl_cons, ih, Nat.zero_mul, Nat.zero_add]
    rw [List.foldl_cons, ih, h, List.length_cons, Nat.pow_succ', Nat.add_mul, Nat.mul_assoc,
      Nat.add_assoc]

theorem value_append (b : ℕ) (ds es : List ℕ) :
    value b (ds ++ es) = value b ds * b ^ es.length + value b es := by
  rw [value, List.foldl_append, foldl_eq_value]
  rfl

theorem value_cons (b d : ℕ) (ds : List ℕ) :
    value b (d :: ds) = d * b ^ ds.length + value b ds := by
  rw [← List.singleton_append, value_append]
  simp [value]

theorem value_concat (b : ℕ) (ds : List ℕ) (d : ℕ) : value b (ds ++ [d]) = value b ds * b + d := by
  rw [value_append, List.length_singleton, pow_one]
  simp [value]

theorem value_zeros_append (b z : ℕ) (ds : List ℕ) :
    value b (List.replicate z 0 ++ ds) = value b ds := by
  induction z with
  | zero => rfl
  | succ z ih =>
    rw [List.replicate_succ, List.cons_append, value_cons, ih, Nat.zero_mul, Nat.zero_add]

theorem value_eq_ofDigits (b : ℕ) (ds : List ℕ) : value b ds = Nat.ofDigits b ds.reverse := by
  induction ds using List.reverseRecOn with
  | nil => rfl
  | append_singleton ds d ih =>
    rw [value_concat, ih, List.reverse_append, List.reverse_singleton, List.singleton_append,
      Nat.ofDigits_cons, Nat.add_comm, Nat.mul_comm]

theorem value_lt {b : ℕ} (hb : 2 ≤ b) {ds : List ℕ} (hlt : ∀ d ∈ ds, d < b) :
    value b ds < b ^ ds.length := by
  rw [value_eq_ofDigits, ← List.length_reverse]
  exact Nat.ofDigits_lt_base_pow_length hb fun d hd => hlt d (List.mem_reverse.1 hd)

/-! ### Shortest numerals -/

theorem lt_pow_digits {b n : ℕ} (hb : 2 ≤ b) : n < b ^ (n.log2 + 1) :=
  Nat.lt_of_lt_of_le Nat.lt_log2_self (Nat.pow_le_pow_left hb _)

theorem digitsOnto_eq {b : ℕ} (hb : 2 ≤ b) (fuel : ℕ) {n : ℕ} (h : n < b ^ fuel) (tail : List ℕ) :
    digitsOnto b fuel n tail = (Nat.digits b n).reverse ++ tail := by
  induction fuel generalizing n tail with
  | zero =>
    obtain rfl : n = 0 := by simpa using h
    simp [digitsOnto]
  | succ fuel ih =>
    rw [digitsOnto]
    split_ifs with hn
    · simp [hn]
    · have hlt : n / b < b ^ fuel := by
        rw [Nat.div_lt_iff_lt_mul (by omega), ← Nat.pow_succ]
        exact h
      rw [ih hlt, Nat.digits_def' (by omega) (Nat.pos_of_ne_zero hn), List.reverse_cons,
        List.append_assoc, List.singleton_append]

/-- The digits of the library, highest first. -/
theorem digits_eq {b : ℕ} (hb : 2 ≤ b) (n : ℕ) : digits b n = (Nat.digits b n).reverse := by
  rw [digits, digitsOnto_eq hb _ (lt_pow_digits hb), List.append_nil]

theorem value_digits {b : ℕ} (hb : 2 ≤ b) (n : ℕ) : value b (digits b n) = n := by
  rw [value_eq_ofDigits, digits_eq hb, List.reverse_reverse, Nat.ofDigits_digits]

theorem lt_of_mem_digits {b n d : ℕ} (hb : 2 ≤ b) (h : d ∈ digits b n) : d < b := by
  rw [digits_eq hb, List.mem_reverse] at h
  exact Nat.digits_lt_base hb h

theorem digits_value {b : ℕ} (hb : 2 ≤ b) {ds : List ℕ} (hlt : ∀ d ∈ ds, d < b)
    (h0 : ds.head? ≠ some 0) : digits b (value b ds) = ds := by
  rw [digits_eq hb, value_eq_ofDigits, Nat.digits_ofDigits b hb, List.reverse_reverse]
  · exact fun d hd => hlt d (List.mem_reverse.1 hd)
  · intro hne hlast
    apply h0
    rw [← hlast, List.head?_eq_getLast?_reverse, List.getLast?_eq_getLast_of_ne_nil hne]

theorem head?_digits_ne_zero {b : ℕ} (hb : 2 ≤ b) (n : ℕ) : (digits b n).head? ≠ some 0 := by
  rw [digits_eq hb, List.head?_reverse]
  intro h
  have hne : Nat.digits b n ≠ [] := by
    intro hnil
    rw [hnil] at h
    cases h
  have hn : n ≠ 0 := Nat.digits_ne_nil_iff_ne_zero.1 hne
  rw [List.getLast?_eq_getLast_of_ne_nil hne] at h
  exact Nat.getLast_digit_ne_zero b hn (Option.some.inj h)

theorem length_digits_le {b n k : ℕ} (hb : 2 ≤ b) (h : n < b ^ k) : (digits b n).length ≤ k := by
  rw [digits_eq hb, List.length_reverse]
  exact (Nat.digits_length_le_iff hb n).2 h

/-- A loop over the digits of a number keeps a relation to the number that the digits so far denote.
-/
theorem foldl_digits {α : Type} {b : ℕ} (hb : 2 ≤ b) {R : ℕ → α → Prop} {f : α → ℕ → α} {a : α}
    (h0 : R 0 a) (hstep : ∀ n a d, d < b → R n a → R (n * b + d) (f a d)) (n : ℕ) :
    R n ((digits b n).foldl f a) := by
  have h : ∀ ds : List ℕ, (∀ d ∈ ds, d < b) → R (value b ds) (ds.foldl f a) := by
    intro ds
    induction ds using List.reverseRecOn with
    | nil => exact fun _ => h0
    | append_singleton ds d ih =>
      intro hlt
      rw [value_concat, List.foldl_append]
      exact hstep _ _ d (hlt d (by simp)) (ih fun e he => hlt e (by simp [he]))
  have hn := h (digits b n) fun d hd => lt_of_mem_digits hb hd
  rwa [value_digits hb] at hn

/-! ### Numerals of fixed width -/

theorem value_fixed (b w n : ℕ) : value b (fixed b w n) = n % b ^ w := by
  induction w generalizing n with
  | zero => simp [fixed, Nat.mod_one]
  | succ w ih =>
    rw [fixed, value_concat, ih, Nat.pow_succ', Nat.mod_mul, Nat.mul_comm, Nat.add_comm]

theorem fixed_value {b : ℕ} {ds : List ℕ} (hlt : ∀ d ∈ ds, d < b) :
    fixed b ds.length (value b ds) = ds := by
  induction ds using List.reverseRecOn with
  | nil => rfl
  | append_singleton ds d ih =>
    have hd : d < b := hlt d (by simp)
    have hb : 0 < b := by omega
    rw [value_concat, Nat.add_comm, Nat.mul_comm, List.length_append, List.length_singleton, fixed,
      Nat.add_mul_div_left _ _ hb, Nat.div_eq_of_lt hd, Nat.zero_add, Nat.add_mul_mod_self_left,
      Nat.mod_eq_of_lt hd, ih fun e he => hlt e (by simp [he])]

theorem lt_of_mem_fixed {b w n d : ℕ} (hb : 0 < b) (h : d ∈ fixed b w n) : d < b := by
  induction w generalizing n with
  | zero => exact absurd h List.not_mem_nil
  | succ w ih =>
    rcases List.mem_append.1 h with h | h
    · exact ih h
    · rw [List.mem_singleton.1 h]
      exact Nat.mod_lt n hb

/-- The digits of the upper part of a number stand in front, and its lower part fills the rest. -/
theorem digits_append_fixed {b v k r : ℕ} (hb : 2 ≤ b) (hv : 0 < v) (hr : r < b ^ k) :
    digits b (v * b ^ k + r) = digits b v ++ fixed b k r := by
  -- The digits on the right have this value and no zero in front, so they are its numeral.
  have hvalue : value b (digits b v ++ fixed b k r) = v * b ^ k + r := by
    rw [value_append, value_digits hb, length_fixed, value_fixed, Nat.mod_eq_of_lt hr]
  have hlt : ∀ d ∈ digits b v ++ fixed b k r, d < b := by
    intro d hd
    rcases List.mem_append.1 hd with hd | hd
    · exact lt_of_mem_digits hb hd
    · exact lt_of_mem_fixed (by omega) hd
  have hhead : (digits b v ++ fixed b k r).head? ≠ some 0 := by
    have hne : digits b v ≠ [] := by
      intro hnil
      have hzero := value_digits hb v
      rw [hnil, value_nil] at hzero
      omega
    rw [List.head?_append_of_ne_nil _ hne]
    exact head?_digits_ne_zero hb v
  rw [← hvalue, digits_value hb hlt hhead]

end Keyring.Radix
