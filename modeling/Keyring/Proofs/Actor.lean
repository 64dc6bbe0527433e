import Keyring.Actor
import Keyring.Proofs.Key.Public

/-!
# The name of an account, read off the fields of its key

The scan keeps the fields found so far at the upper end of the name (`aligned`), so adding the next
field is appending a digit in base 32 (`or_placed`). The bytes up to the twelfth field take the scan
to its last stage (`scan_front`), where one more byte with a bit among its lowest four ends it
(`scan_last`).
-/

namespace Keyring.Actor

open Radix

/-! ### Fields -/

/-- The lowest five bits of a byte. -/
def low (b : UInt8) : ℕ := b.toNat &&& 0x1f

/-- The lowest four bits of a byte. -/
def nibble (b : UInt8) : ℕ := b.toNat &&& 0x0f

/-- The bytes with a field among some bytes. -/
def fieldBytes (bs : Bytes) : Bytes := bs.filter (low · ≠ 0)

theorem low_lt (b : UInt8) : low b < 32 := by
  rw [low, show (0x1f : ℕ) = 2 ^ 5 - 1 from rfl, Nat.and_two_pow_sub_one_eq_mod]
  exact Nat.mod_lt _ (by decide)

theorem nibble_eq (b : UInt8) : nibble b = low b % 16 := by
  rw [low, nibble, show (0x1f : ℕ) = 2 ^ 5 - 1 from rfl, show (0x0f : ℕ) = 2 ^ 4 - 1 from rfl,
    Nat.and_two_pow_sub_one_eq_mod, Nat.and_two_pow_sub_one_eq_mod]
  omega

theorem nibble_lt (b : UInt8) : nibble b < 16 := by
  rw [nibble_eq]
  exact Nat.mod_lt _ (by decide)

theorem placed_of_lt {found : ℕ} (h : found < 12) (b : UInt8) :
    placed found b = low b <<< (59 - 5 * found) := by
  rw [placed, length, if_neg (by omega), low]
  congr 1
  omega

theorem placed_last (b : UInt8) : placed 12 b = nibble b := rfl

/-- What a byte contributes follows from its lowest five bits. -/
theorem placed_congr {a b : UInt8} (h : low a = low b) (found : ℕ) :
    placed found a = placed found b := by
  have hn : nibble a = nibble b := by rw [nibble_eq, nibble_eq, h]
  rw [placed, placed]
  split_ifs
  · exact hn
  · rw [show a.toNat &&& 0x1f = b.toNat &&& 0x1f from h]

theorem placed_eq_zero {found : ℕ} (hf : found ≤ 12) {b : UInt8} (h : low b = 0) :
    placed found b = 0 := by
  rcases Nat.lt_or_eq_of_le hf with hlt | rfl
  · rw [placed_of_lt hlt, h, Nat.zero_shiftLeft]
  · rw [placed_last, nibble_eq, h]

/-! ### The scan -/

/-- A name that holds the fields `ds` at its upper end. -/
def aligned (ds : List ℕ) : ℕ := value 32 ds <<< (64 - 5 * ds.length)

/-- Adding a field to the name is appending a digit in base 32. -/
theorem or_placed (ds : List ℕ) (h : ds.length < 12) (b : UInt8) :
    aligned ds ||| placed ds.length b = aligned (ds ++ [low b]) := by
  have hsplit : 64 - 5 * ds.length = 5 + (59 - 5 * ds.length) := by omega
  have hlast : 64 - 5 * (ds ++ [low b]).length = 59 - 5 * ds.length := by
    rw [List.length_append, List.length_singleton]
    omega
  have hval : value 32 (ds ++ [low b]) = value 32 ds <<< 5 + low b := by
    rw [value_concat, Nat.shiftLeft_eq]
  rw [aligned, aligned, placed_of_lt h, hsplit, Nat.shiftLeft_add, ← Nat.shiftLeft_or_distrib,
    hlast, hval, Nat.shiftLeft_add_eq_or_of_lt (low_lt b)]

theorem scan_nil {found : ℕ} (hf : found ≤ 12) (name : ℕ) :
    scan found name [] = .error .fieldsExhausted := by
  rw [scan, if_neg (show ¬length < found from Nat.not_lt.2 hf)]

theorem scan_done (name : ℕ) (bs : Bytes) : scan 13 name bs = .ok name := by
  cases bs <;> rfl

theorem scan_pass {found : ℕ} (hf : found ≤ 12) {b : UInt8} (h : placed found b = 0) (name : ℕ)
    (bs : Bytes) : scan found name (b :: bs) = scan found name bs := by
  rw [scan, if_neg (show ¬length < found from Nat.not_lt.2 hf), if_pos h]

theorem scan_take {found : ℕ} (hf : found ≤ 12) {b : UInt8} (h : placed found b ≠ 0) (name : ℕ)
    (bs : Bytes) : scan found name (b :: bs) = scan (found + 1) (name ||| placed found b) bs := by
  rw [scan, if_neg (show ¬length < found from Nat.not_lt.2 hf), if_neg h]

/-- Bytes with no more fields than are missing add all of their fields to the name. -/
theorem scan_front {ds : List ℕ} {front : Bytes} (h : ds.length + (fieldBytes front).length ≤ 12)
    (rest : Bytes) : scan ds.length (aligned ds) (front ++ rest) =
      scan (ds.length + (fieldBytes front).length) (aligned (ds ++ (fieldBytes front).map low))
        rest := by
  induction front generalizing ds with
  | nil => simp [fieldBytes]
  | cons b front ih =>
    rw [List.cons_append]
    by_cases hb : low b = 0
    · have hfields : fieldBytes (b :: front) = fieldBytes front := by simp [fieldBytes, hb]
      rw [hfields] at h ⊢
      rw [scan_pass (by omega) (placed_eq_zero (by omega) hb), ih h]
    · have hfields : fieldBytes (b :: front) = b :: fieldBytes front := by simp [fieldBytes, hb]
      rw [hfields, List.length_cons] at h
      have hlt : ds.length < 12 := by omega
      have hne : placed ds.length b ≠ 0 := by
        rw [placed_of_lt hlt, Ne, Nat.shiftLeft_eq_zero_iff]
        exact hb
      have happ : (ds ++ [low b]).length = ds.length + 1 := List.length_append
      rw [scan_take hlt.le hne, or_placed ds hlt, ← happ, ih (by omega), hfields, List.map_cons,
        List.append_assoc, List.singleton_append, happ, List.length_cons, Nat.add_right_comm,
        Nat.add_assoc]

/-- The scan of a front with at most twelve fields. -/
theorem scan_start {front : Bytes} (h : (fieldBytes front).length ≤ 12) (rest : Bytes) :
    scan 0 0 (front ++ rest) =
      scan (fieldBytes front).length (aligned ((fieldBytes front).map low)) rest := by
  have hfront := @scan_front [] front (by rwa [List.length_nil, Nat.zero_add]) rest
  rwa [aligned, value_nil, Nat.zero_shiftLeft, List.length_nil, Nat.zero_add,
    List.nil_append] at hfront

/-- The last stage of the scan looks for one more byte. -/
theorem scan_last (name : ℕ) (bs : Bytes) : scan 12 name bs =
    match bs.find? (nibble · ≠ 0) with
    | some b => .ok (name ||| nibble b)
    | none => .error .fieldsExhausted := by
  induction bs with
  | nil => rfl
  | cons b bs ih =>
    by_cases hb : nibble b = 0
    · rw [scan_pass le_rfl (by rw [placed_last, hb]), ih, List.find?_cons_of_neg (by simp [hb])]
    · rw [scan_take le_rfl (by rwa [placed_last]), scan_done, List.find?_cons_of_pos (by simp [hb])]
      rfl

theorem scan_congr {as bs : Bytes} (h : as.map low = bs.map low) (found name : ℕ) :
    scan found name as = scan found name bs := by
  induction as generalizing bs found name with
  | nil =>
    obtain rfl : bs = [] := List.map_eq_nil_iff.1 h.symm
    rfl
  | cons a as ih =>
    cases bs with
    | nil => cases h
    | cons b bs =>
      obtain ⟨hab, hs⟩ := List.cons.inj h
      rw [scan, scan, placed_congr hab, ih hs, ih hs]

/-! ### Places in a key -/

/-- The byte of a key at a place, where the parity byte has place zero. -/
def byteAt (key : Bytes) (i : ℕ) : UInt8 := key.getD i 0

/-- The byte at a place has a field. -/
def isField (key : Bytes) (i : ℕ) : Bool := low (byteAt key i) ≠ 0

/-- The places of the fields of a key, in increasing order. -/
def places (key : Bytes) : List ℕ :=
  (List.range' 1 scanLimit).filter (isField key)

/-- The twelfth field of a key is at `p`, and the byte at the place `j` behind it has a bit among
its lowest four. -/
def EndsAt (key : Bytes) (p j : ℕ) : Prop :=
  (places key)[11]? = some p ∧ p < j ∧ j ≤ 32 ∧ nibble (byteAt key j) ≠ 0

/-- A key with enough fields for a name. -/
def HasName (key : Bytes) : Prop := ∃ p j, EndsAt key p j

theorem scanned_eq {key : Bytes} (h : 33 ≤ key.length) :
    (key.drop 1).take scanLimit = (List.range' 1 scanLimit).map (byteAt key) := by
  refine List.ext_getElem ?_ fun i h1 h2 => ?_
  · simp [scanLimit]
    omega
  · have hi : i < 32 := by simpa [scanLimit] using h2
    have hlt : 1 + i < key.length := by omega
    rw [List.getElem_take, List.getElem_drop, List.getElem_map, List.getElem_range', Nat.one_mul,
      byteAt, List.getD_eq_getElem?_getD, List.getElem?_eq_getElem hlt, Option.getD_some]

theorem length_take_places {key : Bytes} {p : ℕ} (h : (places key)[11]? = some p) :
    ((places key).take 12).length = 12 := by
  have := (List.getElem?_eq_some_iff.1 h).1
  rw [List.length_take]
  omega

/-- The places up to that of the twelfth field hold twelve fields. -/
theorem front_eq {key : Bytes} {p : ℕ} (h : (places key)[11]? = some p) :
    p ≤ 32 ∧ (List.range' 1 p).filter (isField key) = (places key).take 12 := by
  obtain ⟨hlt, hget⟩ := List.getElem?_eq_some_iff.1 h
  have hmem : p ∈ places key := hget ▸ List.getElem_mem hlt
  obtain ⟨hrange, hfield⟩ := List.mem_filter.1 hmem
  obtain ⟨h1, h32⟩ : 1 ≤ p ∧ p < 1 + 32 := List.mem_range'_1.1 hrange
  obtain ⟨q, rfl⟩ : ∃ q, p = q + 1 := ⟨p - 1, by omega⟩
  have hfront : (List.range' 1 (q + 1)).filter (isField key) =
      (List.range' 1 q).filter (isField key) ++ [q + 1] := by
    rw [List.range'_1_concat, List.filter_append, Nat.add_comm 1 q, List.filter_cons_of_pos hfield,
      List.filter_nil]
  have hplaces : places key = (List.range' 1 (q + 1)).filter (isField key) ++
      (List.range' (1 + (q + 1)) (31 - q)).filter (isField key) := by
    rw [places, ← List.filter_append, List.range'_append_1,
      show q + 1 + (31 - q) = scanLimit by rw [scanLimit]; omega]
  have hnodup : (places key).Nodup := List.Nodup.filter _ List.nodup_range'
  -- The place occurs once, so its position is the number of fields in front of it.
  have hlen : 11 = ((List.range' 1 q).filter (isField key)).length := by
    refine (List.getElem?_inj hlt hnodup).1 ?_
    rw [h, hplaces, hfront, List.append_assoc, List.getElem?_append_right le_rfl, Nat.sub_self]
    rfl
  refine ⟨by omega, ?_⟩
  rw [hplaces, List.take_left']
  rw [hfront, List.length_append, ← hlen]
  rfl

/-! ### The number behind a name -/

/-- The first twelve fields of a key. -/
def firstFields (key : Bytes) : List ℕ :=
  ((places key).take length).map fun i => low (byteAt key i)

/-- The bits that the bytes at some places contribute when they are taken one after the other. -/
def parts (key : Bytes) (is : List ℕ) : List ℕ :=
  is.mapIdx fun found i => placed found (byteAt key i)

theorem fieldBytes_map (key : Bytes) (is : List ℕ) :
    fieldBytes (is.map (byteAt key)) = (is.filter (isField key)).map (byteAt key) :=
  List.filter_map

/-- A key without a twelfth field has no name. -/
theorem packed_of_short {key : Bytes} (hlen : 33 ≤ key.length) (h : (places key)[11]? = none) :
    packed key = .error .fieldsExhausted := by
  have hplaces : (places key).length ≤ 11 := List.getElem?_eq_none_iff.1 h
  have hfields :
      fieldBytes ((List.range' 1 scanLimit).map (byteAt key)) = (places key).map (byteAt key) :=
    fieldBytes_map _ _
  have hcount : (fieldBytes ((List.range' 1 scanLimit).map (byteAt key))).length ≤ 12 := by
    rw [hfields, List.length_map]
    omega
  rw [packed, scanned_eq hlen, ← List.append_nil (List.map _ _), scan_start hcount, hfields,
    List.length_map, scan_nil (by omega)]

theorem packed_of_twelfth {key : Bytes} {p : ℕ} (hlen : 33 ≤ key.length)
    (h : (places key)[11]? = some p) :
    packed key =
      scan 12 (aligned (firstFields key)) ((List.range' (1 + p) (32 - p)).map (byteAt key)) := by
  obtain ⟨hp, hfront⟩ := front_eq h
  have hfields : fieldBytes ((List.range' 1 p).map (byteAt key)) =
      ((places key).take 12).map (byteAt key) := by
    rw [fieldBytes_map, hfront]
  have hcount : (((places key).take 12).map (byteAt key)).length = 12 := by
    rw [List.length_map, length_take_places h]
  have hsplit : (List.range' 1 scanLimit).map (byteAt key) =
      (List.range' 1 p).map (byteAt key) ++ (List.range' (1 + p) (32 - p)).map (byteAt key) := by
    rw [← List.map_append, List.range'_append_1,
      show p + (32 - p) = scanLimit by rw [scanLimit]; omega]
  rw [packed, scanned_eq hlen, hsplit, scan_start (by rw [hfields, hcount]), hfields, hcount,
    List.map_map]
  rfl

/-- The first byte behind the twelfth field that can end the scan does. -/
theorem packed_of_endsAt {key : Bytes} {p j : ℕ} (hlen : 33 ≤ key.length) (h : EndsAt key p j)
    (hfirst : ∀ i, p < i → i < j → nibble (byteAt key i) = 0) :
    packed key = .ok (aligned (firstFields key) ||| nibble (byteAt key j)) := by
  obtain ⟨hp, hlt, hle, hj⟩ := h
  have hfind : (List.range' (1 + p) (32 - p)).find? ((nibble · ≠ 0) ∘ byteAt key) = some j := by
    have hmem : j ∈ List.range' (1 + p) (32 - p) := List.mem_range'_1.2 ⟨by omega, by omega⟩
    refine List.find?_range'_eq_some.2 ⟨by simpa using hj, hmem, fun i h1 h2 => ?_⟩
    simpa using hfirst i (by omega) h2
  rw [packed_of_twelfth hlen hp, scan_last, List.find?_map, hfind]
  rfl

theorem packed_of_not_hasName {key : Bytes} (hlen : 33 ≤ key.length) (h : ¬HasName key) :
    packed key = .error .fieldsExhausted := by
  rcases hp : (places key)[11]? with _ | p
  · exact packed_of_short hlen hp
  have hfind : (List.range' (1 + p) (32 - p)).find? ((nibble · ≠ 0) ∘ byteAt key) = none := by
    refine List.find?_range'_eq_none.2 fun i h1 h2 => ?_
    by_contra hi
    exact h ⟨p, i, hp, by omega, by omega, by simpa using hi⟩
  rw [packed_of_twelfth hlen hp, scan_last, List.find?_map, hfind]
  rfl

theorem exists_first {key : Bytes} (h : HasName key) :
    ∃ p j, EndsAt key p j ∧ ∀ i, p < i → i < j → nibble (byteAt key i) = 0 := by
  classical
  obtain ⟨p, hp⟩ := h
  have hend := Nat.find_spec hp
  refine ⟨p, Nat.find hp, hend, fun i h1 h2 => ?_⟩
  by_contra hi
  exact Nat.find_min hp h2 ⟨hend.1, h1, h2.le.trans hend.2.2.1, hi⟩

/-- A key has a number exactly if some byte behind its twelfth field can end the scan. -/
theorem packed_eq_ok {key : Bytes} {n : ℕ} (hlen : 33 ≤ key.length) : packed key = .ok n ↔
    ∃ p j, EndsAt key p j ∧ (∀ i, p < i → i < j → nibble (byteAt key i) = 0) ∧
      n = aligned (firstFields key) ||| nibble (byteAt key j) := by
  constructor
  · intro hn
    by_cases h : HasName key
    · obtain ⟨p, j, hend, hfirst⟩ := exists_first h
      rw [packed_of_endsAt hlen hend hfirst] at hn
      exact ⟨p, j, hend, hfirst, (Except.ok.inj hn).symm⟩
    · rw [packed_of_not_hasName hlen h] at hn
      cases hn
  · rintro ⟨p, j, h, hfirst, rfl⟩
    exact packed_of_endsAt hlen h hfirst

theorem length_firstFields {key : Bytes} {p j : ℕ} (h : EndsAt key p j) :
    (firstFields key).length = 12 := by
  rw [firstFields, List.length_map, length, length_take_places h.1]

theorem lt_of_mem_firstFields {key : Bytes} {d : ℕ} (h : d ∈ firstFields key) : d < 32 := by
  obtain ⟨i, -, rfl⟩ := List.mem_map.1 h
  exact low_lt _

theorem aligned_firstFields {key : Bytes} {p j : ℕ} (h : EndsAt key p j) :
    aligned (firstFields key) = value 32 (firstFields key) <<< 4 := by
  rw [aligned, length_firstFields h]

theorem packed_lt {key : Bytes} {p j : ℕ} (h : EndsAt key p j) (b : UInt8) :
    aligned (firstFields key) ||| nibble b < 2 ^ 64 := by
  refine Nat.or_lt_two_pow ?_ ((nibble_lt b).trans (by decide))
  have hv : value 32 (firstFields key) < 32 ^ 12 := by
    rw [← length_firstFields h]
    exact value_lt (by decide) fun d hd => lt_of_mem_firstFields hd
  rw [aligned_firstFields h, Nat.shiftLeft_eq]
  calc value 32 (firstFields key) * 2 ^ 4 < 32 ^ 12 * 2 ^ 4 :=
      Nat.mul_lt_mul_of_pos_right hv (Nat.two_pow_pos 4)
    _ = 2 ^ 64 := by norm_num

/-! ### Its parts -/

theorem foldl_parts (key : Bytes) {is : List ℕ} (h : is.length ≤ 12) :
    (parts key is).foldl (· ||| ·) 0 = aligned (is.map fun i => low (byteAt key i)) := by
  induction is using List.reverseRecOn with
  | nil => simp [parts, aligned]
  | append_singleton is i ih =>
    rw [List.length_append, List.length_singleton] at h
    have hlen : (is.map fun i => low (byteAt key i)).length = is.length := List.length_map _
    have hplaced :=
      or_placed (is.map fun i => low (byteAt key i)) (by rw [hlen]; omega) (byteAt key i)
    rw [hlen] at hplaced
    rw [parts, List.mapIdx_concat, List.foldl_append, ← parts, ih (by omega), List.map_append]
    exact hplaced

/-- A part of the number and a part that comes later have no bit in common. -/
theorem placed_and_placed {m n : ℕ} (hmn : m < n) (hn : n ≤ 12) (a b : UInt8) :
    placed m a &&& placed n b = 0 := by
  have hlt : placed n b < 2 ^ (59 - 5 * m) := by
    rcases Nat.lt_or_eq_of_le hn with hn' | rfl
    · calc placed n b = low b <<< (59 - 5 * n) := placed_of_lt hn' b
        _ < 2 ^ 5 * 2 ^ (59 - 5 * n) := by
          rw [Nat.shiftLeft_eq]
          exact Nat.mul_lt_mul_of_pos_right (low_lt b) (Nat.two_pow_pos _)
        _ = 2 ^ (64 - 5 * n) := by
          rw [← Nat.pow_add]
          congr 1
          omega
        _ ≤ 2 ^ (59 - 5 * m) := Nat.pow_le_pow_right (by decide) (by omega)
    · calc placed 12 b < 2 ^ 4 := nibble_lt b
        _ ≤ 2 ^ (59 - 5 * m) := Nat.pow_le_pow_right (by decide) (by omega)
  rw [placed_of_lt (by omega)]
  refine Nat.eq_of_testBit_eq fun k => ?_
  rw [Nat.testBit_and, Nat.testBit_shiftLeft, Nat.zero_testBit]
  by_cases hk : 59 - 5 * m ≤ k
  · rw [Nat.testBit_lt_two_pow (hlt.trans_le (Nat.pow_le_pow_right (by decide) hk)), Bool.and_false]
  · simp [hk]

/-- No two parts of the number have a bit in common. -/
theorem pairwise_parts (key : Bytes) {is : List ℕ} (h : is.length ≤ 13) :
    (parts key is).Pairwise fun x y => x &&& y = 0 := by
  refine List.pairwise_iff_getElem.2 fun m n hm hn hmn => ?_
  rw [parts, List.length_mapIdx] at hn
  simp only [parts, List.getElem_mapIdx]
  exact placed_and_placed hmn (by omega) _ _

/-! ### The text of a name -/

theorem spellOnto_eq (n name : ℕ) (tail : Text) :
    spellOnto n name tail = (fixed 32 n name).map symbol ++ tail := by
  induction n generalizing name tail with
  | zero => rfl
  | succ n ih =>
    have hlow : name &&& 0x1f = name % 32 := Nat.and_two_pow_sub_one_eq_mod name 5
    have hrest : name >>> 5 = name / 32 := Nat.shiftRight_eq_div_pow name 5
    rw [spellOnto, ih, hlow, hrest, fixed, List.map_append, List.append_assoc]
    rfl

theorem symbol_ne_dot {n : ℕ} (h0 : n ≠ 0) (h : n < 32) : symbol n ≠ '.' := by
  have : ∀ n < 32, n ≠ 0 → symbol n ≠ '.' := by decide
  exact this n h h0

/-- The characters of a name are those of the first twelve fields. -/
theorem spell_packed {key : Bytes} {p j : ℕ} (h : EndsAt key p j) (b : UInt8) :
    spell (aligned (firstFields key) ||| nibble b) = (firstFields key).map symbol := by
  have hshift : (aligned (firstFields key) ||| nibble b) >>> 4 = value 32 (firstFields key) := by
    rw [aligned_firstFields h, Nat.shiftRight_or_distrib, Nat.shiftLeft_shiftRight,
      Nat.shiftRight_eq_div_pow, Nat.div_eq_of_lt (nibble_lt b), Nat.or_zero]
  have hfixed : fixed 32 length (value 32 (firstFields key)) = firstFields key := by
    rw [show length = (firstFields key).length from (length_firstFields h).symm]
    exact fixed_value fun d hd => lt_of_mem_firstFields hd
  rw [spell, hshift, spellOnto_eq, hfixed, List.take_left']
  rw [List.length_map, length_firstFields h, length]

theorem dot_notMem_name (key : Bytes) : '.' ∉ (firstFields key).map symbol := by
  intro hmem
  obtain ⟨d, hd, hdot⟩ := List.mem_map.1 hmem
  obtain ⟨i, hi, rfl⟩ := List.mem_map.1 hd
  have hfield : isField key i = true := (List.mem_filter.1 (List.mem_of_mem_take hi)).2
  exact symbol_ne_dot (by simpa [isField] using hfield) (low_lt _) hdot

/-- Which keys have a name, and which name. -/
theorem ofKey_eq_ok {key : Bytes} {name : Text} (hlen : 33 ≤ key.length) :
    ofKey key = .ok name ↔ HasName key ∧ name = (firstFields key).map symbol := by
  simp only [ofKey, Outcome.bind_eq_ok, Outcome.pure_eq, Except.ok.injEq]
  constructor
  · rintro ⟨n, hn, rfl⟩
    obtain ⟨p, j, h, -, rfl⟩ := (packed_eq_ok hlen).1 hn
    exact ⟨⟨p, j, h⟩, spell_packed h _⟩
  · rintro ⟨hname, rfl⟩
    obtain ⟨p, j, h, hfirst⟩ := exists_first hname
    exact ⟨_, packed_of_endsAt hlen h hfirst, spell_packed h _⟩

theorem ofKey_of_not_hasName {key : Bytes} (hlen : 33 ≤ key.length) (h : ¬HasName key) :
    ofKey key = .error .fieldsExhausted := by
  rw [ofKey, packed_of_not_hasName hlen h, Outcome.error_bind]

/-- A key with too few fields is all that a name can fail for. -/
theorem ofKey_eq_error {key : Bytes} {f : Fault} (hlen : 33 ≤ key.length) :
    ofKey key = .error f ↔ ¬HasName key ∧ f = .fieldsExhausted := by
  by_cases h : HasName key
  · have hname := (ofKey_eq_ok hlen).2 ⟨h, rfl⟩
    rw [hname]
    exact iff_of_false (fun e => nomatch e) fun e => e.1 h
  · rw [ofKey_of_not_hasName hlen h, Except.error.injEq, and_iff_right h, eq_comm]

/-! ### What a name does not depend on -/

/-- A name depends on the lowest five bits of the bytes behind the parity byte alone. -/
theorem ofKey_congr {key key' : Bytes} (hlen : 33 ≤ key.length) (hlen' : 33 ≤ key'.length)
    (h : ∀ i, 1 ≤ i → i ≤ 32 → low (byteAt key' i) = low (byteAt key i)) :
    ofKey key' = ofKey key := by
  have hscan : ((key'.drop 1).take scanLimit).map low = ((key.drop 1).take scanLimit).map low := by
    rw [scanned_eq hlen, scanned_eq hlen', List.map_map, List.map_map]
    refine List.map_congr_left fun i hi => ?_
    obtain ⟨h1, h2⟩ : 1 ≤ i ∧ i < 1 + 32 := List.mem_range'_1.1 hi
    exact h i h1 (by omega)
  rw [ofKey, ofKey, packed, packed, scan_congr hscan]

/-- Keys with the same bits up to the twelfth field of one of them have the same first fields. -/
theorem firstFields_congr {key key' : Bytes} {p : ℕ} (hp : (places key)[11]? = some p)
    (h : ∀ i, 1 ≤ i → i ≤ p → low (byteAt key' i) = low (byteAt key i)) :
    firstFields key' = firstFields key := by
  obtain ⟨hle, hfront⟩ := front_eq hp
  have hsame : ∀ i ∈ List.range' 1 p, low (byteAt key' i) = low (byteAt key i) := fun i hi => by
    obtain ⟨h1, h2⟩ : 1 ≤ i ∧ i < 1 + p := List.mem_range'_1.1 hi
    exact h i h1 (by omega)
  have hfilter : (List.range' 1 p).filter (isField key') = (places key).take 12 := by
    rw [← hfront]
    exact List.filter_congr fun i hi => by rw [isField, isField, hsame i hi]
  have hcount := length_take_places hp
  have htake : (places key').take 12 = (places key).take 12 := by
    rw [places, show scanLimit = p + (32 - p) by rw [scanLimit]; omega, ← List.range'_append_1,
      List.filter_append, hfilter, List.take_left' hcount]
  rw [firstFields, firstFields, length, htake, ← hfront]
  exact List.map_congr_left fun i hi => hsame i (List.mem_of_mem_filter hi)

/-! ### Names of public keys -/

/-- An accepted public key has a name exactly if some byte behind its twelfth field has a bit among
its lowest four, and the scan is exhausted otherwise. The name has the characters of the first
twelve fields, none of them a dot; the number behind it fits 64 bits and is put together from
thirteen parts without a common bit. Neither the parity byte, nor the upper bits of a byte, nor what
stands behind the twelfth field changes a name. -/
theorem ofText_spells_first_fields {text : Text} {key : Bytes}
    (h : PublicKey.ofText text PublicKey.usualLabels = .ok key) :
    (∀ name, ofText text = .ok name ↔ HasName key ∧
      name = ((places key).take 12).map fun i => symbol ((byteAt key i).toNat &&& 0x1f)) ∧
    (¬HasName key → ofText text = .error .fieldsExhausted) ∧
    (∀ name, ofText text = .ok name → name.length = 12 ∧ '.' ∉ name) ∧
    (∀ n, packed key = .ok n → n < 2 ^ 64 ∧ ∃ p j, EndsAt key p j ∧
      (∀ i, p < i → i < j → nibble (byteAt key i) = 0) ∧
      n = (parts key ((places key).take 12 ++ [j])).foldl (· ||| ·) 0 ∧
      (parts key ((places key).take 12 ++ [j])).Pairwise fun x y => x &&& y = 0) ∧
    (∀ key', 33 ≤ key'.length → (∀ i, 1 ≤ i → i ≤ 32 → low (byteAt key' i) = low (byteAt key i)) →
      ofKey key' = ofText text) ∧
    (∀ key' p j p' j', 33 ≤ key'.length → EndsAt key p j → EndsAt key' p' j' →
      (∀ i, 1 ≤ i → i ≤ p → low (byteAt key' i) = low (byteAt key i)) →
        ofKey key' = ofText text) := by
  have hlen : 33 ≤ key.length := (PublicKey.isCompressed_iff.1 (PublicKey.ofText_eq_ok.1 h).1).1.ge
  have htext : ofText text = ofKey key := by rw [ofText, h, Outcome.ok_bind]
  have hchars : (firstFields key).map symbol =
      ((places key).take 12).map fun i => symbol ((byteAt key i).toNat &&& 0x1f) := List.map_map
  rw [htext, ← hchars]
  refine ⟨fun name => ofKey_eq_ok hlen, ofKey_of_not_hasName hlen, fun name hname => ?_,
    fun n hn => ?_, fun key' hlen' => ofKey_congr hlen hlen',
      fun key' p j p' j' hlen' hend hend' hsame => ?_⟩
  · obtain ⟨⟨p, j, hend⟩, rfl⟩ := (ofKey_eq_ok hlen).1 hname
    exact ⟨by rw [List.length_map, length_firstFields hend], dot_notMem_name key⟩
  · obtain ⟨p, j, hend, hfirst, rfl⟩ := (packed_eq_ok hlen).1 hn
    have hcount := length_take_places hend.1
    have hparts : parts key ((places key).take 12 ++ [j]) =
        parts key ((places key).take 12) ++ [nibble (byteAt key j)] := by
      rw [parts, List.mapIdx_concat, hcount, placed_last, ← parts]
    refine ⟨packed_lt hend _, p, j, hend, hfirst, ?_, pairwise_parts key ?_⟩
    · rw [hparts, List.foldl_append, foldl_parts key hcount.le]
      rfl
    · rw [List.length_append, hcount, List.length_singleton]
  · rw [(ofKey_eq_ok hlen').2 ⟨⟨p', j', hend'⟩, rfl⟩, (ofKey_eq_ok hlen).2 ⟨⟨p, j, hend⟩, rfl⟩,
      firstFields_congr hend.1 hsame]

/-- The zero bytes of a key that alternates zeros and ones are passed over. -/
theorem ofText_alternating_key :
    ofText "FIO4tVTFZcvj1dXwdwTHe1FJULcb4aT45BJXEBpYe7G9LCCFHyTP6".toList =
      .ok "111111111111".toList := by
  have hkey : PublicKey.ofText "FIO4tVTFZcvj1dXwdwTHe1FJULcb4aT45BJXEBpYe7G9LCCFHyTP6".toList
      PublicKey.usualLabels = .ok (2 :: (List.replicate 16 [0, 1]).flatten) := by decide +kernel
  refine ((ofText_spells_first_fields hkey).1 _).2 ⟨⟨24, 26, ?_⟩, by decide +kernel⟩
  exact ⟨by decide +kernel, by decide, by decide, by decide +kernel⟩

end Keyring.Actor
