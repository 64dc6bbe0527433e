import Keyring.Proofs.Text.Words
import Keyring.Text.Base64
import Mathlib.Data.List.Basic
import Mathlib.Tactic.IntervalCases

/-!
# What is read as Base64 text

A byte string is written as symbols of six-bit values and fillers (`encode_eq`). The fillers are the
only characters that reading takes off the end, the symbols give the values back, and the values
hold the bytes. The last value may have bits that no byte needs, two for each filler that is
written, and reading does not look at them.
-/

namespace Keyring.Text.Base64

/-- The six-bit values that a byte string is written with. -/
def sextets : Bytes → List ℕ
  | [] => []
  | [x] => [x.toNat / 4, x.toNat % 4 * 16]
  | [x, y] => [x.toNat / 4, x.toNat % 4 * 16 + y.toNat / 16, y.toNat % 16 * 4]
  | x :: y :: z :: bs =>
    x.toNat / 4 :: (x.toNat % 4 * 16 + y.toNat / 16) :: (y.toNat % 16 * 4 + z.toNat / 64) ::
      z.toNat % 64 :: sextets bs

/-- The number of fillers behind so many bytes. -/
def pads (n : ℕ) : ℕ := (3 - n % 3) % 3

theorem pads_add_three (n : ℕ) : pads (n + 3) = pads n := by
  rw [pads, pads, Nat.add_mod_right]

/-- A byte string is written as the symbols of its six-bit values and fillers. -/
theorem encode_eq (bs : Bytes) :
    encode bs = (sextets bs).map symbol ++ List.replicate (pads bs.length) '=' := by
  fun_induction sextets bs with
  | case1 => rfl
  | case2 x => rfl
  | case3 x y => rfl
  | case4 x y z bs ih =>
    have hpads : pads ((x :: y :: z :: bs).length) = pads bs.length := pads_add_three _
    rw [encode, ih, hpads]
    rfl

theorem lt_of_mem_sextets {bs : Bytes} {d : ℕ} (h : d ∈ sextets bs) : d < 64 := by
  fun_induction sextets bs with
  | case1 => simp at h
  | case2 x =>
    have := x.toNat_lt
    simp only [List.mem_cons, List.not_mem_nil, or_false] at h
    omega
  | case3 x y =>
    have := x.toNat_lt
    have := y.toNat_lt
    simp only [List.mem_cons, List.not_mem_nil, or_false] at h
    omega
  | case4 x y z bs ih =>
    have := x.toNat_lt
    have := y.toNat_lt
    have := z.toNat_lt
    simp only [List.mem_cons] at h
    rcases h with h | h | h | h | h
    · omega
    · omega
    · omega
    · omega
    · exact ih h

theorem length_sextets (bs : Bytes) : (sextets bs).length = (bs.length * 4 + 2) / 3 := by
  fun_induction sextets bs with
  | case1 => simp
  | case2 x => simp
  | case3 x y => simp
  | case4 x y z bs ih =>
    simp only [List.length_cons, ih]
    omega

theorem padsFit_sextets (bs : Bytes) : padsFit (sextets bs).length (pads bs.length) := by
  rw [length_sextets]
  obtain h | h | h : bs.length % 3 = 0 ∨ bs.length % 3 = 1 ∨ bs.length % 3 = 2 := by omega
  · have hmod : (bs.length * 4 + 2) / 3 % 4 = 0 := by omega
    simp [padsFit, pads, h, hmod]
  · have hmod : (bs.length * 4 + 2) / 3 % 4 = 2 := by omega
    simp [padsFit, pads, h, hmod]
  · have hmod : (bs.length * 4 + 2) / 3 % 4 = 3 := by omega
    simp [padsFit, pads, h, hmod]

/-- The six-bit values hold the bytes. -/
theorem pack_sextets (bs : Bytes) : pack (sextets bs) = bs := by
  have hbyte : ∀ (b : UInt8) (n : ℕ), n = b.toNat → UInt8.ofNat n = b := by
    rintro b _ rfl
    exact UInt8.ofNat_toNat
  fun_induction sextets bs with
  | case1 => rfl
  | case2 x => rw [pack, hbyte x _ (by omega)]
  | case3 x y =>
    have := y.toNat_lt
    rw [pack, hbyte x _ (by omega), hbyte y _ (by omega)]
  | case4 x y z bs ih =>
    have := y.toNat_lt
    have := z.toNat_lt
    rw [pack, hbyte x _ (by omega), hbyte y _ (by omega), hbyte z _ (by omega), ih]

theorem symbol_ne_pad : ∀ n < 64, symbol n ≠ '=' := by
      decide +kernel

/-! ### Symbols -/

theorem sextet?_eq_some_iff {c : Char} {d : ℕ} : sextet? c = some d ↔ d < 64 ∧ c = symbol d := by
  constructor
  · intro h
    obtain ⟨hlt, hget, -⟩ := List.idxOf?_eq_some_iff.1 h
    refine ⟨hlt, ?_⟩
    rw [symbol, List.getD_eq_getElem?_getD, List.getElem?_eq_getElem hlt, hget]
    rfl
  · rintro ⟨hd, rfl⟩
    exact sextet?_symbol d hd

theorem mapM_sextet?_eq_some_iff {t : Text} {ds : List ℕ} :
    t.mapM sextet? = some ds ↔ (∀ d ∈ ds, d < 64) ∧ t = ds.map symbol := by
  induction t generalizing ds with
  | nil =>
    rw [List.mapM_nil, eq_comm (a := []), List.map_eq_nil_iff]
    constructor
    · rintro ⟨⟩
      exact ⟨List.forall_mem_nil _, rfl⟩
    · rintro ⟨-, rfl⟩
      rfl
  | cons c t ih =>
    simp only [List.mapM_cons, Option.bind_eq_bind, Option.bind_eq_some_iff, Option.pure_def,
      Option.some.injEq, ih, sextet?_eq_some_iff]
    constructor
    · rintro ⟨d, ⟨hd, rfl⟩, es, ⟨hes, rfl⟩, rfl⟩
      exact ⟨List.forall_mem_cons.2 ⟨hd, hes⟩, rfl⟩
    · rintro ⟨hds, hmap⟩
      obtain ⟨d, es, rfl, rfl, rfl⟩ := List.map_eq_cons_iff.1 hmap.symm
      obtain ⟨hd, hes⟩ := List.forall_mem_cons.1 hds
      exact ⟨d, ⟨hd, rfl⟩, es, ⟨hes, rfl⟩, rfl⟩

theorem map_symbol_inj {ds es : List ℕ} (hds : ∀ d ∈ ds, d < 64) (hes : ∀ e ∈ es, e < 64)
    (h : ds.map symbol = es.map symbol) : ds = es := by
  have hsome := mapM_sextet?_eq_some_iff.2 ⟨hds, h.symm⟩
  rw [mapM_sextet?_eq_some_iff.2 ⟨hes, rfl⟩] at hsome
  exact (Option.some.inj hsome).symm

/-! ### Reading -/

/-- The symbols of a text, without the fillers behind them. -/
def body (t : Text) : Text :=
  trimEndBy (· = '=') t

theorem eq_body_append (t : Text) :
    t = body t ++ List.replicate (t.length - (body t).length) '=' := by
  obtain ⟨fillers, hfillers, ht⟩ := exists_trimEndBy_append (· = '=') t
  have hlength : t.length = (body t).length + fillers.length := by
    rw [← List.length_append]
    exact congrArg List.length ht
  have hreplicate : fillers = List.replicate fillers.length '=' :=
    List.eq_replicate_length.2 fun c hc => of_decide_eq_true (hfillers c hc)
  rw [hlength, Nat.add_sub_cancel_left, ← hreplicate]
  exact ht

theorem body_encode (bs : Bytes) : body (encode bs) = (sextets bs).map symbol := by
  rw [body, encode_eq]
  refine trimEndBy_append (fun c hc => ?_) fun c hc => ?_
  · obtain ⟨d, hd, rfl⟩ := List.mem_map.1 (List.mem_of_getLast? hc)
    simpa using symbol_ne_pad d (lt_of_mem_sextets hd)
  · simpa using List.eq_of_mem_replicate hc

/-- What reading looks at: the symbols in front of the fillers, and how many fillers there are. -/
theorem decode?_eq_some {t : Text} {bs : Bytes} : decode? t = some bs ↔ ∃ ds, (∀ d ∈ ds, d < 64) ∧
    body t = ds.map symbol ∧ padsFit (body t).length (t.length - (body t).length) ∧
      pack ds = bs := by
  have hbody : trimEndBy (· = '=') t = body t := rfl
  simp only [← and_assoc, ← mapM_sextet?_eq_some_iff, decode?, hbody]
  cases (body t).mapM sextet? with
  | none => simp
  | some ds => simp [and_assoc]

theorem ascii_of_decode? {t : Text} {bs : Bytes} (h : decode? t = some bs) :
    ∀ c ∈ t, c.toNat < 128 := by
  obtain ⟨ds, hlt, hbody, -⟩ := decode?_eq_some.1 h
  have hsymbol : ∀ d < 64, (symbol d).toNat < 128 := by decide +kernel
  intro c hc
  rw [eq_body_append t, hbody, List.mem_append, List.mem_map] at hc
  rcases hc with ⟨d, hd, rfl⟩ | hc
  · exact hsymbol d (hlt d hd)
  · rw [List.eq_of_mem_replicate hc]
    decide

/-- What is written can be read. -/
theorem decode?_encode (bs : Bytes) : decode? (encode bs) = some bs := by
  have hlen : (body (encode bs)).length = (sextets bs).length := by
    rw [body_encode, List.length_map]
  have hpads : (encode bs).length - (sextets bs).length = pads bs.length := by
    rw [encode_eq, List.length_append, List.length_map, List.length_replicate,
      Nat.add_sub_cancel_left]
  refine decode?_eq_some.2 ⟨sextets bs, fun d hd => lt_of_mem_sextets hd, body_encode bs, ?_,
    pack_sextets bs⟩
  rw [hlen, hpads]
  exact padsFit_sextets bs

/-! ### Spare bits -/

/-- The number of bits that no byte needs in the last of the values that `n` bytes are written with.
-/
def spareBits (n : ℕ) : ℕ := 2 * pads n

/-- A value with its `k` lowest bits cleared. -/
def clear (k d : ℕ) : ℕ := d / 2 ^ k * 2 ^ k

theorem toNat_byte {n : ℕ} (h : n < 256) : (UInt8.ofNat n).toNat = n :=
  UInt8.toNat_ofNat_of_lt' h

/-- Four values are written again as they were read. -/
theorem sextets_pack_four {a b c d : ℕ} (ha : a < 64) (hb : b < 64) (hc : c < 64) (hd : d < 64)
    (ds : List ℕ) :
    sextets (pack (a :: b :: c :: d :: ds)) = a :: b :: c :: d :: sextets (pack ds) := by
  have hx := toNat_byte (n := a * 4 + b / 16) (by omega)
  have hy := toNat_byte (n := b % 16 * 16 + c / 4) (by omega)
  have hz := toNat_byte (n := c % 4 * 64 + d) (by omega)
  have hfirst : (a * 4 + b / 16) / 4 = a := by omega
  have hsecond : (a * 4 + b / 16) % 4 * 16 + (b % 16 * 16 + c / 4) / 16 = b := by omega
  have hthird : (b % 16 * 16 + c / 4) % 16 * 4 + (c % 4 * 64 + d) / 64 = c := by omega
  have hfourth : (c % 4 * 64 + d) % 64 = d := by omega
  rw [pack, sextets, hx, hy, hz, hfirst, hsecond, hthird, hfourth]

/-- Values are written again as they were read, but for the spare bits of the last one. -/
theorem sextets_pack :
    ∀ (front : List ℕ) {d : ℕ}, (∀ e ∈ front ++ [d], e < 64) → (front.length + 1) % 4 ≠ 1 →
    sextets (pack (front ++ [d])) = front ++ [clear (spareBits (pack (front ++ [d])).length) d]
  | [], d, _, hlen => absurd rfl hlen
  | [a], d, hlt, _ => by
    simp only [List.cons_append, List.nil_append, List.forall_mem_cons] at hlt
    have hx := toNat_byte (n := a * 4 + d / 16) (by omega)
    have hfirst : (a * 4 + d / 16) / 4 = a := by omega
    have hlast : (a * 4 + d / 16) % 4 * 16 = clear (spareBits 1) d := by
      show _ = d / 16 * 16
      omega
    rw [List.singleton_append, pack, sextets, hx, hfirst, hlast]
    rfl
  | [a, b], d, hlt, _ => by
    simp only [List.cons_append, List.nil_append, List.forall_mem_cons] at hlt
    have hx := toNat_byte (n := a * 4 + b / 16) (by omega)
    have hy := toNat_byte (n := b % 16 * 16 + d / 4) (by omega)
    have hfirst : (a * 4 + b / 16) / 4 = a := by omega
    have hsecond : (a * 4 + b / 16) % 4 * 16 + (b % 16 * 16 + d / 4) / 16 = b := by omega
    have hlast : (b % 16 * 16 + d / 4) % 16 * 4 = clear (spareBits 2) d := by
      show _ = d / 4 * 4
      omega
    rw [List.cons_append, List.singleton_append, pack, sextets, hx, hy, hfirst, hsecond, hlast]
    rfl
  | [a, b, c], d, hlt, _ => by
    simp only [List.cons_append, List.nil_append, List.forall_mem_cons] at hlt
    obtain ⟨ha, hb, hc, hd, -⟩ := hlt
    have hlast : clear (spareBits 3) d = d := by
      show d / 1 * 1 = d
      omega
    calc sextets (pack ([a, b, c] ++ [d])) = [a, b, c, d] := sextets_pack_four ha hb hc hd []
      _ = [a, b, c] ++ [clear (spareBits 3) d] := by rw [hlast]; rfl
  | a :: b :: c :: e :: front, d, hlt, hlen => by
    simp only [List.cons_append, List.forall_mem_cons] at hlt
    obtain ⟨ha, hb, hc, he, hrest⟩ := hlt
    have hlen' : (front.length + 1) % 4 ≠ 1 := by
      simp only [List.length_cons] at hlen
      omega
    have ih := sextets_pack front hrest hlen'
    have hspare : spareBits (pack (a :: b :: c :: e :: (front ++ [d]))).length =
        spareBits (pack (front ++ [d])).length := congrArg (2 * ·) (pads_add_three _)
    simp only [List.cons_append]
    rw [sextets_pack_four ha hb hc he, ih, hspare]

/-! ### The texts of a byte string -/

/-- Two texts of symbols agree up to the `k` lowest bits of the last one, which are zero in the
second text. -/
inductive AgreeTo (k : ℕ) : Text → Text → Prop
  | nil : AgreeTo k [] []
  | last (front : Text) {d : ℕ} (hd : d < 64) :
      AgreeTo k (front ++ [symbol d]) (front ++ [symbol (clear k d)])

section Agree

variable {k : ℕ} {u v : Text}

theorem AgreeTo.length_eq (h : AgreeTo k u v) : u.length = v.length := by
  cases h with
  | nil => rfl
  | last front hd => simp

theorem AgreeTo.dropLast_eq (h : AgreeTo k u v) : u.dropLast = v.dropLast := by
  cases h with
  | nil => rfl
  | last front hd => simp

end Agree

theorem clear_lt {k d : ℕ} (h : d < 64) : clear k d < 64 :=
  Nat.lt_of_le_of_lt (Nat.div_mul_le_self d _) h

/-- What agrees with symbols of values consists of symbols of values itself. -/
theorem AgreeTo.exists_values {k : ℕ} {u : Text} {es : List ℕ} (h : AgreeTo k u (es.map symbol))
    (hes : ∀ e ∈ es, e < 64) : ∃ ds, (∀ d ∈ ds, d < 64) ∧ u = ds.map symbol ∧
      (ds = [] ∧ es = [] ∨ ∃ front d, ds = front ++ [d] ∧ es = front ++ [clear k d]) := by
  generalize hv : es.map symbol = v at h
  cases h with
  | nil => exact ⟨[], List.forall_mem_nil _, rfl, .inl ⟨rfl, List.map_eq_nil_iff.1 hv⟩⟩
  | @last front d hd =>
    obtain ⟨values, _, rfl, rfl, hlast⟩ := List.map_eq_append_iff.1 hv
    have hvalues : ∀ e ∈ values, e < 64 := fun e he => hes e (List.mem_append_left _ he)
    refine ⟨values ++ [d], ?_, by simp, .inr ⟨values, d, rfl, ?_⟩⟩
    · simp only [List.forall_mem_append, List.forall_mem_singleton]
      exact ⟨hvalues, hd⟩
    · refine map_symbol_inj hes ?_ (by rw [hv]; simp)
      simp only [List.forall_mem_append, List.forall_mem_singleton]
      exact ⟨hvalues, clear_lt hd⟩

theorem mod_four_of_padsFit {n p : ℕ} (h : padsFit n p) : n % 4 ≠ 1 := by
  intro hn
  simp [padsFit, hn] at h

/-- Any number of fillers may stand behind complete groups, unless there are no groups; an
incomplete group is completed by as many as it lacks. -/
theorem padsFit_iff {n p : ℕ} : padsFit n p ↔
    n % 4 = 0 ∧ (n = 0 → p = 0) ∨ n % 4 = 2 ∧ p = 2 ∨ n % 4 = 3 ∧ p = 1 := by
  have hmod : n % 4 < 4 := Nat.mod_lt n (by decide)
  interval_cases h : n % 4
  · simp [padsFit, h, imp_iff_not_or]
  · simp [padsFit, h]
  · simp [padsFit, h]
  · simp [padsFit, h]

/-- A text is read as a byte string exactly if its symbols agree with those of the written text but
for spare bits, and fillers complete them. -/
theorem decode?_eq_some_iff {t : Text} {bs : Bytes} : decode? t = some bs ↔
    AgreeTo (spareBits bs.length) (body t) (body (encode bs)) ∧
      padsFit (body t).length (t.length - (body t).length) := by
  rw [decode?_eq_some, body_encode]
  constructor
  · rintro ⟨ds, hlt, hbody, hpads, rfl⟩
    refine ⟨?_, hpads⟩
    have hlen := mod_four_of_padsFit hpads
    rw [hbody, List.length_map] at hlen
    rw [hbody]
    obtain rfl | ⟨front, d, rfl⟩ := List.eq_nil_or_concat' ds
    · exact .nil
    · have hd : d < 64 := hlt d (by simp)
      rw [sextets_pack front hlt (by simpa using hlen), List.map_append, List.map_append]
      exact .last _ hd
  · rintro ⟨hagree, hpads⟩
    obtain ⟨ds, hlt, hbody, hcases⟩ := hagree.exists_values fun d hd => lt_of_mem_sextets hd
    refine ⟨ds, hlt, hbody, hpads, ?_⟩
    have hlen := mod_four_of_padsFit hpads
    rw [hbody, List.length_map] at hlen
    obtain ⟨rfl, hnil⟩ | ⟨front, d, rfl, hlast⟩ := hcases
    · rw [← pack_sextets bs, hnil]
    · have hwritten := sextets_pack front hlt (by simpa using hlen)
      -- As many values hold as many bytes, so both ends have the same spare bits.
      have hlength : (pack (front ++ [d])).length = bs.length := by
        have hleft := length_sextets (pack (front ++ [d]))
        have hright := length_sextets bs
        rw [hwritten, List.length_append, List.length_singleton] at hleft
        rw [hlast, List.length_append, List.length_singleton] at hright
        omega
      rw [hlength, ← hlast] at hwritten
      calc pack (front ++ [d]) = pack (sextets (pack (front ++ [d]))) := (pack_sextets _).symm
        _ = bs := by rw [hwritten, pack_sextets]

end Keyring.Text.Base64
