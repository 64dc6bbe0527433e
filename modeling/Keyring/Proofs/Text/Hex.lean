import Keyring.Text.Hex
import Keyring.Text.LowerCase
import Mathlib.Tactic.SplitIfs

/-!
# What is read as hexadecimal text

A byte string has many spellings: the digits of each byte may be of either case, and gaps may stand
between the pairs. Reading accepts exactly these (`decode?_eq_some_iff`). What is left of a spelling
in small letters and without its gaps is the text that is written, so that no text spells two byte
strings.
-/

namespace Keyring.Text.Hex

variable {c d : Char} {n : Nat} {b : UInt8} {t : Text} {bs : Bytes}

/-! ### Digits -/

/-- Digits lie in a stretch of ASCII behind all gaps. -/
theorem bounds_of_digit? (h : digit? c = some n) : n < 16 ∧ 48 ≤ c.toNat ∧ c.toNat ≤ 102 := by
  have hle : ∀ x y : Char, x ≤ y ↔ x.toNat ≤ y.toNat := fun x y => UInt32.le_iff_toNat_le
  unfold digit? at h
  simp only [hle] at h
  split_ifs at h with hdigit hsmall hcapital
  · obtain rfl := Option.some.inj h
    have hb : 48 ≤ c.toNat ∧ c.toNat ≤ 57 := hdigit
    omega
  · obtain rfl := Option.some.inj h
    have hb : 97 ≤ c.toNat ∧ c.toNat ≤ 102 := hsmall
    omega
  · obtain rfl := Option.some.inj h
    have hb : 65 ≤ c.toNat ∧ c.toNat ≤ 70 := hcapital
    omega

/-- A digit is a written digit once its case is ignored. -/
theorem digit?_eq_some_iff : digit? c = some n ↔ n < 16 ∧ c.toLower = digitChar n := by
  by_cases hc : c.toNat < 128
  · have hall : ∀ k < 128, ∀ n < 16, digit? (Char.ofNat k) = some n ↔
        (Char.ofNat k).toLower = digitChar n := by
      decide +kernel
    have hdigit : n < 16 → (digit? c = some n ↔ c.toLower = digitChar n) := by
      intro hn
      have h := hall c.toNat hc n hn
      rwa [Char.ofNat_toNat] at h
    exact ⟨fun h => ⟨(bounds_of_digit? h).1, (hdigit (bounds_of_digit? h).1).1 h⟩,
      fun h => (hdigit h.1).2 h.2⟩
  · refine iff_of_false (fun h => hc ?_) fun ⟨hn, h⟩ => hc ?_
    · have := (bounds_of_digit? h).2
      omega
    · have hall : ∀ n < 16, (digitChar n).toNat < 128 := by decide
      rw [← toLower_of_not_ascii hc, h]
      exact hall n hn

theorem isGap_of_digit? (h : digit? c = some n) : isGap c = false := by
  have hbounds := (bounds_of_digit? h).2
  have hblank : c ≠ ' ' := by
    rintro rfl
    exact absurd hbounds.1 (by decide)
  simp only [isGap, decide_eq_false hblank, Bool.false_or, Bool.and_eq_false_iff,
    decide_eq_false_iff_not]
  omega

theorem toNat_lt_of_isGap (h : isGap c) : c.toNat < 128 := by
  simp only [isGap, Bool.or_eq_true, Bool.and_eq_true, decide_eq_true_eq] at h
  rcases h with rfl | h
  · decide
  · omega

/-! ### Spellings -/

/-- The spellings of a byte string. -/
inductive Spells : Text → Bytes → Prop
  | nil : Spells [] []
  | gap {c : Char} {t : Text} {bs : Bytes} (hc : isGap c) (ht : Spells t bs) : Spells (c :: t) bs
  | pair {c d : Char} {t : Text} {b : UInt8} {bs : Bytes}
      (hb : [c.toLower, d.toLower] = encodeByte b) (ht : Spells t bs) :
      Spells (c :: d :: t) (b :: bs)

/-- Two characters spell a byte if their digits do, in either case. -/
theorem pair_iff : [c.toLower, d.toLower] = encodeByte b ↔
    digit? c = some (b.toNat / 16) ∧ digit? d = some (b.toNat % 16) := by
  have hhigh : b.toNat / 16 < 16 := by
    have := b.toNat_lt
    omega
  have hlow : b.toNat % 16 < 16 := Nat.mod_lt _ (by decide)
  simp [encodeByte, digit?_eq_some_iff, hhigh, hlow]

theorem decode?_gap (h : isGap c) (t : Text) : decode? (c :: t) = decode? t := by
  cases t with
  | nil => simp [decode?, h]
  | cons d t => simp [decode?, h]

theorem decode?_pair (h : [c.toLower, d.toLower] = encodeByte b) (t : Text) :
    decode? (c :: d :: t) = (decode? t).map (b :: ·) := by
  obtain ⟨hc, hd⟩ := pair_iff.1 h
  have hb : UInt8.ofNat (b.toNat / 16 * 16 + b.toNat % 16) = b := by
    rw [Nat.div_add_mod' b.toNat 16, UInt8.ofNat_toNat]
  simp [decode?, isGap_of_digit? hc, hc, hd, hb]

theorem spells_of_decode? (h : decode? t = some bs) : Spells t bs := by
  fun_induction decode? t generalizing bs with
  | case1 =>
    obtain rfl := Option.some.inj h
    exact .nil
  | case2 c hc =>
    obtain rfl := Option.some.inj h
    exact .gap hc .nil
  | case3 c hc => exact (nomatch h)
  | case4 c d t hc ih => exact .gap hc (ih h)
  | case5 c d t hc high low hlow hhigh ih =>
    obtain ⟨rest, hrest, rfl⟩ := Option.map_eq_some_iff.1 h
    have hhigh16 := (bounds_of_digit? hhigh).1
    have hlow16 := (bounds_of_digit? hlow).1
    have hb : (UInt8.ofNat (high * 16 + low)).toNat = high * 16 + low :=
      UInt8.toNat_ofNat_of_lt' (by show _ < 256; omega)
    have hdiv : (high * 16 + low) / 16 = high := by omega
    have hmod : (high * 16 + low) % 16 = low := by omega
    exact .pair (pair_iff.2 ⟨by rw [hb, hdiv, hhigh], by rw [hb, hmod, hlow]⟩) (ih hrest)
  | case6 => exact (nomatch h)

/-- Exactly the spellings of a byte string are read as it. -/
theorem decode?_eq_some_iff : decode? t = some bs ↔ Spells t bs := by
  refine ⟨spells_of_decode?, fun h => ?_⟩
  induction h with
  | nil => rfl
  | gap hc ht ih => rw [decode?_gap hc, ih]
  | pair hb ht ih => rw [decode?_pair hb, ih]; rfl

/-- In small letters and without gaps, a spelling is the written text. -/
theorem Spells.lower_filter (h : Spells t bs) : lower (t.filter fun c => !isGap c) = encode bs := by
  induction h with
  | nil => rfl
  | gap hc ht ih => rw [List.filter_cons_of_neg (by simp [hc]), ih]
  | @pair c d t b bs hb ht ih =>
    obtain ⟨hc, hd⟩ := pair_iff.1 hb
    have hlower : ∀ {x m}, digit? x = some m → lowerChar x = [x.toLower] := fun hx =>
      lowerChar_ascii (Nat.lt_of_le_of_lt (bounds_of_digit? hx).2.2 (by decide))
    have hencode : encode (b :: bs) = encodeByte b ++ encode bs := List.flatMap_cons
    rw [List.filter_cons_of_pos (by simp [isGap_of_digit? hc]),
      List.filter_cons_of_pos (by simp [isGap_of_digit? hd]), lower, List.flatMap_cons,
      List.flatMap_cons, hlower hc, hlower hd, ← lower, ih, hencode, ← hb]
    rfl

theorem Spells.ascii (h : Spells t bs) : ∀ c ∈ t, c.toNat < 128 := by
  induction h with
  | nil => exact List.forall_mem_nil _
  | gap hc ht ih => exact List.forall_mem_cons.2 ⟨toNat_lt_of_isGap hc, ih⟩
  | pair hb ht ih =>
    obtain ⟨hc, hd⟩ := pair_iff.1 hb
    have hc := (bounds_of_digit? hc).2
    have hd := (bounds_of_digit? hd).2
    exact List.forall_mem_cons.2 ⟨by omega, List.forall_mem_cons.2 ⟨by omega, ih⟩⟩

end Keyring.Text.Hex
