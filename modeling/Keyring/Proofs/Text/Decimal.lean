import Keyring.Bytes
import Keyring.Proofs.Radix

/-!
# Decimal numerals

A natural number is written with ASCII digits and nothing else, at least one of them and no more
than its size asks for.
-/

namespace Keyring.Text

/-- A numeral is a row of digits, and as such it has the value that is written. -/
theorem exists_digits (n : ℕ) : ∃ ds, ofNat n = ds.map digitChar ∧ ds ≠ [] ∧ (∀ d ∈ ds, d < 10) ∧
    Radix.value 10 ds = n := by
  unfold ofNat numeral
  by_cases hn : n = 0
  · exact ⟨[0], by rw [if_pos hn]; rfl, by simp, by simp, by rw [hn]; rfl⟩
  · refine ⟨Radix.digits 10 n, by rw [if_neg hn], ?_,
      fun d hd => Radix.lt_of_mem_digits (by decide) hd, Radix.value_digits (by decide) n⟩
    intro hnil
    have hvalue := Radix.value_digits (b := 10) (by decide) n
    rw [hnil] at hvalue
    exact hn hvalue.symm

/-- What holds of the ten digits holds of every character of a numeral. -/
theorem forall_mem_ofNat {P : Char → Prop} (h : ∀ d < 10, P (digitChar d)) (n : ℕ) :
    ∀ c ∈ ofNat n, P c := by
  obtain ⟨ds, hds, -, hlt, -⟩ := exists_digits n
  intro c hc
  rw [hds] at hc
  obtain ⟨d, hd, rfl⟩ := List.mem_map.1 hc
  exact h d (hlt d hd)

theorem ofNat_ne_nil (n : ℕ) : ofNat n ≠ [] := by
  obtain ⟨ds, hds, hne, -, -⟩ := exists_digits n
  rw [hds]
  simpa using hne

theorem length_ofNat_le {n k : ℕ} (hk : 0 < k) (h : n < 10 ^ k) : (ofNat n).length ≤ k := by
  unfold ofNat numeral
  by_cases hn : n = 0
  · rw [if_pos hn]
    exact hk
  · rw [if_neg hn, List.length_map]
    exact Radix.length_digits_le (by decide) h

theorem ofInt_natCast (n : ℕ) : ofInt n = ofNat n := rfl

end Keyring.Text
