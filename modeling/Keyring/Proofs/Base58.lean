import Keyring.Base58
import Keyring.Proofs.Bytes
import Keyring.Proofs.Outcome

/-!
# Base58 is a bijection

Byte strings and texts over the alphabet are numerals with leading zeros kept one for one, so
rewriting to the other base and back changes nothing.

* `rebase_rebase`: the law for any two bases.
* `decode_eq_ok`: a text is read as the byte string that is written so.
* `decode_eq_error`: any other text is refused on account of its leftmost symbol outside the
  alphabet.
* `exists_encode_eq_cons`: the first byte bounds the first symbol and decides the length of a text.
* `length_takeWhile_encode`: a text has as many ones in front as the byte string has zero bytes.
-/

namespace Keyring.Base58

open Radix

/-! ### Rewriting numerals -/

/-- A numeral is a number of zeros and a rest without zeros in front. -/
theorem eq_zeros_append (ds : List ℕ) :
    ∃ z rest, ds = List.replicate z 0 ++ rest ∧ rest.head? ≠ some 0 := by
  induction ds with
  | nil => exact ⟨0, [], rfl, by simp⟩
  | cons d ds ih =>
    by_cases hd : d = 0
    · obtain ⟨z, rest, rfl, hrest⟩ := ih
      exact ⟨z + 1, rest, by rw [hd, List.replicate_succ, List.cons_append], hrest⟩
    · exact ⟨0, d :: ds, rfl, by simp [hd]⟩

/-- Leading zeros are kept and the rest is rewritten. -/
theorem rebase_zeros_append (src dst z : ℕ) {rest : List ℕ} (h : rest.head? ≠ some 0) :
    rebase src dst (List.replicate z 0 ++ rest) = List.replicate z 0 ++
      digits dst (value src rest) := by
  have hrest : rest.takeWhile (· = 0) = [] := by
    cases rest with
    | nil => rfl
    | cons d rest => exact List.takeWhile_cons_of_neg (by simpa using h)
  have hzeros : (List.replicate z 0 ++ rest).takeWhile (· = 0) = List.replicate z 0 := by
    rw [List.takeWhile_append_of_pos (by simp [List.mem_replicate]), hrest, List.append_nil]
  rw [rebase, hzeros, List.length_replicate, value_zeros_append]

/-- Rewriting digits to another base and back changes nothing. -/
theorem rebase_rebase {src dst : ℕ} (hs : 2 ≤ src) (hd : 2 ≤ dst) {ds : List ℕ}
    (h : ∀ d ∈ ds, d < src) : rebase dst src (rebase src dst ds) = ds := by
  obtain ⟨z, rest, rfl, hrest⟩ := eq_zeros_append ds
  rw [rebase_zeros_append src dst z hrest,
    rebase_zeros_append dst src z (head?_digits_ne_zero hd _), value_digits hd,
    digits_value hs (fun d hm => h d (List.mem_append_right _ hm)) hrest]

theorem lt_of_mem_rebase {src dst : ℕ} (hd : 2 ≤ dst) {ds : List ℕ} {d : ℕ}
    (h : d ∈ rebase src dst ds) : d < dst := by
  rcases List.mem_append.1 h with hz | hm
  · rw [List.eq_of_mem_replicate hz]
    omega
  · exact lt_of_mem_digits hd hm

/-! ### Symbols -/

theorem symbol_mem : ∀ d < 58, symbol d ∈ alphabet := by
  decide +kernel

theorem digit?_eq_some {c : Char} {d : ℕ} : digit? c = some d ↔ d < 58 ∧ c = symbol d := by
  constructor
  · intro h
    obtain ⟨hlt, hget, -⟩ := List.idxOf?_eq_some_iff.1 h
    refine ⟨hlt, ?_⟩
    rw [symbol, List.getD_eq_getElem?_getD, List.getElem?_eq_getElem hlt, hget]
    rfl
  · rintro ⟨hd, rfl⟩
    exact digit?_symbol d hd

theorem digit?_eq_none {c : Char} : digit? c = none ↔ c ∉ alphabet :=
  List.idxOf?_eq_none_iff

/-! ### The digits of a text -/

/-- The digit of one symbol of a text. -/
def digitOf (c : Char) : Outcome ℕ :=
  (digit? c).elim (.error (.alienSymbol c)) .ok

theorem digitsOf_eq_mapM (t : Text) : digitsOf t = t.mapM digitOf := by
  refine Outcome.mapM_congr fun c _ => ?_
  rw [digitOf]
  cases digit? c <;> rfl

theorem digitOf_eq_ok {c : Char} {d : ℕ} : digitOf c = .ok d ↔ d < 58 ∧ c = symbol d := by
  rw [← digit?_eq_some, digitOf]
  cases digit? c <;> simp

theorem digitOf_eq_error {c : Char} {f : Fault} :
    digitOf c = .error f ↔ c ∉ alphabet ∧ f = .alienSymbol c := by
  rw [← digit?_eq_none, digitOf]
  cases digit? c <;> simp [eq_comm]

theorem digitsOf_eq_ok {t : Text} {ds : List ℕ} :
    digitsOf t = .ok ds ↔ (∀ d ∈ ds, d < 58) ∧ t = ds.map symbol := by
  simp only [digitsOf_eq_mapM, Outcome.mapM_eq_ok, digitOf_eq_ok]
  induction ds generalizing t with
  | nil => simp
  | cons d ds ih =>
    rw [List.forall₂_cons_right_iff, List.forall_mem_cons, List.map_cons]
    constructor
    · rintro ⟨_, rest, ⟨hd, rfl⟩, hrest, rfl⟩
      obtain ⟨hds, rfl⟩ := ih.1 hrest
      exact ⟨⟨hd, hds⟩, rfl⟩
    · rintro ⟨⟨hd, hds⟩, rfl⟩
      exact ⟨_, _, ⟨hd, rfl⟩, ih.2 ⟨hds, rfl⟩, rfl⟩

/-- The symbol that a text is refused for is its leftmost one outside the alphabet. -/
theorem digitsOf_eq_error {t : Text} {f : Fault} :
    digitsOf t = .error f ↔ ∃ pre c post, t = pre ++ c :: post ∧ (∀ x ∈ pre, x ∈ alphabet) ∧
      c ∉ alphabet ∧ f = .alienSymbol c := by
  have hsymbol : ∀ x, (∃ d, d < 58 ∧ x = symbol d) ↔ x ∈ alphabet := by
    intro x
    simp only [← digit?_eq_some, ← Option.isSome_iff_exists, digit?, List.isSome_idxOf?]
  simp only [digitsOf_eq_mapM, Outcome.mapM_eq_error, digitOf_eq_ok, digitOf_eq_error, hsymbol]

/-! ### Texts -/

theorem map_ofNat_map_toNat (bs : Bytes) : (bs.map UInt8.toNat).map UInt8.ofNat = bs := by
  simp [Function.comp_def]

theorem map_toNat_map_ofNat {ds : List ℕ} (h : ∀ d ∈ ds, d < 256) :
    (ds.map UInt8.ofNat).map UInt8.toNat = ds := by
  rw [List.map_map, List.map_congr_left fun d hd => ?_, List.map_id]
  exact UInt8.toNat_ofNat_of_lt' (h d hd)

/-- A text is read as the byte string that is written so, and as no other. -/
theorem decode_eq_ok {t : Text} {bs : Bytes} : decode t = .ok bs ↔ t = encode bs := by
  have hbytes : ∀ d ∈ bs.map UInt8.toNat, d < 256 := by
    intro d hd
    obtain ⟨b, -, rfl⟩ := List.mem_map.1 hd
    exact b.toNat_lt
  simp only [decode, Outcome.bind_eq_ok, Outcome.pure_eq, Except.ok.injEq, digitsOf_eq_ok]
  constructor
  · rintro ⟨ds, ⟨hlt, rfl⟩, rfl⟩
    rw [encode, map_toNat_map_ofNat fun d hd => lt_of_mem_rebase (by decide) hd,
      rebase_rebase (by decide) (by decide) hlt]
  · rintro rfl
    refine ⟨_, ⟨fun d hd => lt_of_mem_rebase (by decide) hd, rfl⟩, ?_⟩
    rw [rebase_rebase (by decide) (by decide) hbytes, map_ofNat_map_toNat]

theorem decode_encode (bs : Bytes) : decode (encode bs) = .ok bs :=
  decode_eq_ok.2 rfl

theorem encode_injective {as bs : Bytes} (h : encode as = encode bs) : as = bs := by
  have := decode_encode as
  rw [h, decode_encode] at this
  exact (Except.ok.inj this).symm

/-- A text is refused on account of its leftmost symbol outside the alphabet. -/
theorem decode_eq_error {t : Text} {f : Fault} :
    decode t = .error f ↔ ∃ pre c post, t = pre ++ c :: post ∧ (∀ x ∈ pre, x ∈ alphabet) ∧
      c ∉ alphabet ∧ f = .alienSymbol c := by
  simp only [decode, Outcome.bind_eq_error, Outcome.pure_eq, digitsOf_eq_error, reduceCtorEq,
    and_false, exists_false, or_false]

theorem encode_cons_of_ne_zero {b : UInt8} (hb : b ≠ 0) (bs : Bytes) :
    encode (b :: bs) = (digits 58 (Bytes.toNat (b :: bs))).map symbol := by
  have hhead : ((b :: bs).map UInt8.toNat).head? ≠ some 0 := by
    intro h
    exact hb (UInt8.toNat_inj.1 (Option.some.inj h))
  have hz := rebase_zeros_append 256 58 0 hhead
  rw [List.replicate_zero, List.nil_append, List.nil_append] at hz
  rw [encode, hz]
  rfl

/-- The first symbols and the length of a text, by the multiples of a power of 58 around the number.
-/
theorem exists_encode_eq_append {b : UInt8} {bs : Bytes} (hb : b ≠ 0) {v k : ℕ} (hv : 0 < v)
    (hle : v * 58 ^ k ≤ Bytes.toNat (b :: bs)) (hlt : Bytes.toNat (b :: bs) < (v + 1) * 58 ^ k) :
    ∃ tail : Text, tail.length = k ∧ encode (b :: bs) = (digits 58 v).map symbol ++ tail := by
  obtain ⟨r, hr⟩ := Nat.exists_eq_add_of_le hle
  have hrest : r < 58 ^ k := by
    rw [hr, Nat.succ_mul] at hlt
    omega
  refine ⟨(fixed 58 k r).map symbol, by rw [List.length_map, length_fixed], ?_⟩
  rw [encode_cons_of_ne_zero hb, hr, digits_append_fixed (by decide) hv hrest, List.map_append]

/-- The first symbol and the length of a text, by the first byte and the number of the others. -/
theorem exists_encode_eq_cons {b : UInt8} {bs : Bytes} {n v w k : ℕ} (h : bs.length = n)
    (hv : 0 < v) (hw : w ≤ 58) (hlow : v * 58 ^ k ≤ b.toNat * 256 ^ n)
    (hhigh : (b.toNat + 1) * 256 ^ n ≤ w * 58 ^ k) :
    ∃ d tail, v ≤ d ∧ d < w ∧ tail.length = k ∧ encode (b :: bs) = symbol d :: tail := by
  have hpow : 0 < 58 ^ k := by positivity
  have hb : b ≠ 0 := by
    rintro rfl
    have hpos : 0 < v * 58 ^ k := Nat.mul_pos hv hpow
    rw [UInt8.toNat_zero, Nat.zero_mul] at hlow
    omega
  obtain ⟨hle, hlt⟩ := Bytes.toNat_cons_bounds b bs
  rw [h] at hle hlt
  -- The first digit is how often the power goes into the number.
  generalize hd : Bytes.toNat (b :: bs) / 58 ^ k = d
  have hvd : v ≤ d := by
    rw [← hd, Nat.le_div_iff_mul_le hpow]
    exact hlow.trans hle
  have hdw : d < w := by
    rw [← hd, Nat.div_lt_iff_lt_mul hpow]
    exact hlt.trans_le hhigh
  have hdle : d * 58 ^ k ≤ Bytes.toNat (b :: bs) := hd ▸ Nat.div_mul_le_self _ _
  have hdlt : Bytes.toNat (b :: bs) < (d + 1) * 58 ^ k := by
    rw [← Nat.div_lt_iff_lt_mul hpow, hd]
    exact Nat.lt_succ_self d
  obtain ⟨tail, htail, htext⟩ := exists_encode_eq_append hb (by omega) hdle hdlt
  have hdigits : digits 58 d = [d] := by
    rw [digits_eq (by decide), Nat.digits_of_lt 58 d (by omega) (by omega)]
    rfl
  rw [hdigits] at htext
  exact ⟨d, tail, hvd, hdw, htail, htext⟩

theorem mem_alphabet_of_mem_encode {bs : Bytes} {c : Char} (h : c ∈ encode bs) : c ∈ alphabet := by
  obtain ⟨d, hd, rfl⟩ := List.mem_map.1 h
  exact symbol_mem d (lt_of_mem_rebase (by decide) hd)

/-! ### Leading zeros -/

theorem symbol_eq_one_iff {d : ℕ} (h : d < 58) : symbol d = '1' ↔ d = 0 := by
  constructor
  · intro hd
    have hdigit : digit? '1' = some d := hd ▸ digit?_symbol d h
    have hzero : digit? '1' = some 0 := digit?_symbol 0 (by norm_num)
    exact Option.some.inj (hdigit.symm.trans hzero)
  · rintro rfl
    rfl

theorem rebase_zero_cons (src dst : ℕ) (ds : List ℕ) :
    rebase src dst (0 :: ds) = 0 :: rebase src dst ds := by
  unfold rebase
  rw [List.takeWhile_cons_of_pos (by simp), List.length_cons, List.replicate_succ, value_cons,
    Nat.zero_mul, Nat.zero_add, List.cons_append]

theorem encode_zero_cons (bs : Bytes) : encode (0 :: bs) = '1' :: encode bs := by
  unfold encode
  rw [List.map_cons, UInt8.toNat_zero, rebase_zero_cons, List.map_cons]
  rfl

/-- Only a zero byte in front makes a text begin with a one. -/
theorem head?_encode_ne_one {b : UInt8} (hb : b ≠ 0) (bs : Bytes) :
    (encode (b :: bs)).head? ≠ some '1' := by
  rw [encode_cons_of_ne_zero hb, List.head?_map]
  intro h
  obtain ⟨d, hd, hone⟩ := Option.map_eq_some_iff.1 h
  have hlt : d < 58 := lt_of_mem_digits (by norm_num) (List.mem_of_head? hd)
  rw [(symbol_eq_one_iff hlt).1 hone] at hd
  exact head?_digits_ne_zero (by norm_num) _ hd

/-- A text has as many ones in front as the byte string has zero bytes. -/
theorem length_takeWhile_encode (bs : Bytes) :
    ((encode bs).takeWhile (· = '1')).length = (bs.takeWhile (· = 0)).length := by
  induction bs with
  | nil => rfl
  | cons b bs ih =>
    by_cases hb : b = 0
    · subst hb
      rw [encode_zero_cons, List.takeWhile_cons_of_pos (by simp),
        List.takeWhile_cons_of_pos (by simp), List.length_cons, List.length_cons, ih]
    · have hone : (encode (b :: bs)).takeWhile (· = '1') = [] := by
        have hhead := head?_encode_ne_one hb bs
        cases htext : encode (b :: bs) with
        | nil => rfl
        | cons c t =>
          rw [htext] at hhead
          exact List.takeWhile_cons_of_neg (by simpa using hhead)
      rw [hone, List.takeWhile_cons_of_neg (by simpa using hb)]
      rfl

/-! ### The bijection -/

theorem exists_decode {t : Text} (h : ∀ c ∈ t, c ∈ alphabet) : ∃ bs, decode t = .ok bs := by
  cases hread : decode t with
  | ok bs => exact ⟨bs, rfl⟩
  | error f =>
    obtain ⟨pre, c, post, rfl, -, hc, -⟩ := decode_eq_error.1 hread
    exact absurd (h c (by simp)) hc

/-- Writing and reading are inverse to each other, between all byte strings and all texts over the
58 symbols, and each zero byte in front stands for a one in front. Any other text is refused on
account of its leftmost symbol outside the alphabet, which the message shows. -/
theorem decode_inverts_encode :
    (alphabet.length = 58 ∧ alphabet.Nodup) ∧
    (∀ bs : Bytes, (∀ c ∈ encode bs, c ∈ alphabet) ∧ decode (encode bs) = .ok bs) ∧
    (∀ t : Text, (∀ c ∈ t, c ∈ alphabet) → ∃ bs, decode t = .ok bs ∧ encode bs = t ∧
      (bs.takeWhile (· = 0)).length = (t.takeWhile (· = '1')).length) ∧
    (∀ t : Text, (∃ c ∈ t, c ∉ alphabet) →
      ∃ pre c post, t = pre ++ c :: post ∧ (∀ x ∈ pre, x ∈ alphabet) ∧
      c ∉ alphabet ∧ ∃ f : Fault, decode t = .error f ∧ f.family = .base58 ∧
        f.message = "invalid base58 character " ++ Fault.inQuotes [c]) := by
  refine ⟨⟨rfl, by decide +kernel⟩, fun bs => ?_, fun t ht => ?_, fun t ⟨x, hx, hn⟩ => ?_⟩
  · exact ⟨fun c hc => mem_alphabet_of_mem_encode hc, decode_encode bs⟩
  · obtain ⟨bs, hbs⟩ := exists_decode ht
    obtain rfl := decode_eq_ok.1 hbs
    exact ⟨bs, hbs, rfl, (length_takeWhile_encode bs).symm⟩
  · cases hread : decode t with
    | ok bs =>
      rw [decode_eq_ok.1 hread] at hx
      exact absurd (mem_alphabet_of_mem_encode hx) hn
    | error f =>
      obtain ⟨pre, c, post, ht, hpre, hc, rfl⟩ := decode_eq_error.1 hread
      exact ⟨pre, c, post, ht, hpre, hc, _, rfl, rfl, rfl⟩

/-- Zeros in front of a number, and a text with two symbols outside the alphabet. -/
theorem decode_zeros_and_aliens :
    (∃ bs, decode "11z1".toList = .ok bs ∧ encode bs = "11z1".toList ∧
      (bs.takeWhile (· = 0)).length = 2) ∧
    ∃ pre c post, "1O0".toList = pre ++ c :: post ∧ (∀ x ∈ pre, x ∈ alphabet) ∧ c ∉ alphabet ∧
      ∃ f : Fault, decode "1O0".toList = .error f ∧ f.family = .base58 ∧
        f.message = "invalid base58 character " ++ Fault.inQuotes [c] := by
  have hletters : ∀ c ∈ ['1', '1', 'z', '1'], c ∈ alphabet := by
    have hone : '1' ∈ alphabet := by decide
    have hz : 'z' ∈ alphabet := by decide
    intro c hc
    simp only [List.mem_cons, List.not_mem_nil, or_false] at hc
    rcases hc with rfl | rfl | rfl | rfl
    · exact hone
    · exact hone
    · exact hz
    · exact hone
  exact ⟨decode_inverts_encode.2.2.1 _ hletters,
    decode_inverts_encode.2.2.2 _ ⟨'O', by decide, by decide⟩⟩

end Keyring.Base58
