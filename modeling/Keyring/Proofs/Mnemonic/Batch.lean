import Keyring.Proofs.Mnemonic.Keys
import Keyring.Proofs.Mnemonic.Phrase

/-!
# Many pairs at once

The first pairs of a branch are derived from one root, after one check of the greatest index and one
reading of the phrase. Nothing else is saved: they are the pairs that are derived one by one
(`keys_eq_mapM`), down to the fault of the first pair that has none. What they are derived from
counts only for the mnemonic that it resolves to.
-/

namespace Keyring.Source

variable {s s' : Source} {b : Branch} {count : ℤ} {pairs : List KeyPair} {f : Fault}

/-! ### One pair -/

theorem index_keyAt {index : ℤ} {pair : KeyPair} (h : s.keyAt index b = .ok pair) :
    pair.index = index := by
  simp only [keyAt, KeyPair.ofRoot, Outcome.bind_eq_ok, Outcome.pure_eq, Except.ok.injEq] at h
  obtain ⟨_, -, _, -, _, -, _, -, _, -, _, -, rfl⟩ := h
  rfl

theorem keyAt_of_range {index : ℤ} (h : 0 ≤ index ∧ index < 2 ^ 31) :
    s.keyAt index b = s.resolve >>= Mnemonic.masterKey >>= fun root =>
      KeyPair.ofRoot root b index := by
  rw [keyAt, checkIndex_eq_ok h, Outcome.ok_bind, bind_assoc]

/-! ### Many pairs -/

section Range

variable (h : 1 ≤ count ∧ count ≤ 2 ^ 31)

include h

theorem keys_of_range : s.keys count b = s.resolve >>= Mnemonic.masterKey >>= fun root =>
    (List.range count.toNat).mapM fun i : ℕ => KeyPair.ofRoot root b i := by
  have hcheck : checkIndex (count - 1) = .ok () := checkIndex_eq_ok (by omega)
  rw [keys, if_neg (by omega), hcheck, bind_assoc]
  rfl

/-- Pairs at once are pairs one by one. -/
theorem keys_eq_mapM : s.keys count b = (List.range count.toNat).mapM fun i : ℕ => s.keyAt i b := by
  have hkeyAt : ∀ i < count.toNat, s.keyAt (i : ℕ) b =
      s.resolve >>= Mnemonic.masterKey >>= fun root => KeyPair.ofRoot root b (i : ℕ) :=
    fun i hi => keyAt_of_range (by omega)
  rw [keys_of_range h]
  cases hroot : s.resolve >>= Mnemonic.masterKey with
  | error f =>
    -- Without a root already the first pair is not there, for the same reason.
    have hpos : 0 < count.toNat := by omega
    refine (Outcome.mapM_range_eq_error.2 ⟨0, hpos, ?_,
      fun j hj => absurd hj (Nat.not_lt_zero j)⟩).symm
    rw [hkeyAt 0 hpos, hroot]
    rfl
  | ok root =>
    refine Outcome.mapM_congr fun i hi => ?_
    rw [hkeyAt i (List.mem_range.1 hi), hroot]
    rfl

/-- There are keys exactly if each of the pairs exists, and then they are these pairs. -/
theorem keys_eq_ok : s.keys count b = .ok pairs ↔ pairs.length = count.toNat ∧
    ∀ i < count.toNat, ∃ pair, pairs[i]? = some pair ∧ s.keyAt i b = .ok pair := by
  rw [keys_eq_mapM h, Outcome.mapM_range_eq_ok]

/-- The first pair that has none decides the fault. -/
theorem keys_eq_error : s.keys count b = .error f ↔
    ∃ i < count.toNat, s.keyAt i b = .error f ∧ ∀ j < i, ∃ pair, s.keyAt j b = .ok pair := by
  rw [keys_eq_mapM h, Outcome.mapM_range_eq_error]

end Range

/-- Numbers of pairs that are refused. -/
theorem keys_eq_error_of_range (s : Source) (b : Branch) (h : count < 1 ∨ 2 ^ 31 < count) :
    s.keys count b = .error (if count < 1 then .noKeys else .indexRange (count - 1)) := by
  by_cases hlow : count < 1
  · rw [keys, if_pos hlow, if_pos hlow]
    rfl
  · have hcheck : checkIndex (count - 1) = .error (.indexRange (count - 1)) := by
      refine if_neg fun hrange => ?_
      have : count - 1 < 2 ^ 31 := hrange.2
      omega
    rw [keys, if_neg hlow, if_neg hlow, hcheck]
    rfl

theorem publicKeys_eq (s : Source) (b : Branch) (count : ℤ) :
    s.publicKeys count b = (s.keys count b).map (List.map KeyPair.publicKey) := by
  rw [publicKeys]
  cases s.keys count b <;> rfl

/-- Fewer pairs are the first of more pairs. -/
theorem keys_take {more : ℤ} {all : List KeyPair} (hcount : 1 ≤ count) (hle : count ≤ more)
    (h : s.keys more b = .ok all) : s.keys count b = .ok (all.take count.toNat) := by
  have hmore : more ≤ 2 ^ 31 := by
    by_contra hlt
    rw [keys_eq_error_of_range s b (.inr (Int.not_le.1 hlt))] at h
    exact (nomatch h)
  obtain ⟨hlen, hall⟩ := (keys_eq_ok ⟨by omega, hmore⟩).1 h
  refine (keys_eq_ok ⟨hcount, by omega⟩).2 ⟨?_, fun i hi => ?_⟩
  · rw [List.length_take, hlen]
    omega
  · rw [List.getElem?_take_of_lt hi]
    exact hall i (by omega)

/-! ### Sources of one mnemonic -/

section Congr

variable (h : s.resolve = s'.resolve)

include h

/-- A source counts only for the mnemonic that it resolves to. -/
theorem keyAt_congr (index : ℤ) (b : Branch) : s.keyAt index b = s'.keyAt index b := by
  rw [keyAt, keyAt, h]

theorem keys_congr (count : ℤ) (b : Branch) : s.keys count b = s'.keys count b := by
  rw [keys, keys, h]

theorem publicKeys_congr (count : ℤ) (b : Branch) :
    s.publicKeys count b = s'.publicKeys count b := by
  rw [publicKeys, publicKeys, keys_congr h]

end Congr

/-- A phrase, the mnemonic read from it and the phrase of this mnemonic resolve to the same
mnemonic. -/
theorem resolve_of_ofPhrase {t : Text} {m : Mnemonic} (h : Mnemonic.ofPhrase t = .ok m)
    (hs : s = mnemonic m ∨ s = phrase m.phrase) : s.resolve = (phrase t).resolve := by
  have ht : (phrase t).resolve = .ok m := h
  rw [ht]
  rcases hs with rfl | rfl
  · rfl
  · exact Mnemonic.ofPhrase_phrase_eq_ok.2 (Mnemonic.blank_notMem_of_ofPhrase h)

/-- For one to 2^31 pairs, of a mnemonic or of a phrase, readable or not: they are there exactly if
each of them is there on its own, and then they are these pairs in order, with the indexes from zero
on. Otherwise the fault is that of the least index without a pair. Fewer pairs are the first of more
pairs, and the public keys are those of the pairs. A mnemonic that was read from a phrase and its
own phrase do for the phrase. Any other number of pairs is refused for what it is, whatever the
source. -/
theorem keys_agree_with_keyAt (b : Branch) :
    (∀ (s : Source) (count : ℤ), 1 ≤ count → count ≤ 2 ^ 31 →
      ((∃ pairs, s.keys count b = .ok pairs) ↔
        ∀ i : ℕ, i < count → ∃ pair, s.keyAt i b = .ok pair) ∧
      (∀ pairs, s.keys count b = .ok pairs → pairs.length = count ∧
        ∀ i : ℕ, i < count → ∃ pair, pairs[i]? = some pair ∧ s.keyAt i b = .ok pair ∧
          pair.index = i) ∧
      (∀ f, s.keys count b = .error f ↔
        ∃ i : ℕ, i < count ∧ s.keyAt i b = .error f ∧ ∀ j < i, ∃ pair, s.keyAt j b = .ok pair) ∧
      ∀ more all, count ≤ more → s.keys more b = .ok all →
        s.keys count b = .ok (all.take count.toNat)) ∧
    (∀ (s : Source) (count : ℤ),
      s.publicKeys count b = (s.keys count b).map (List.map KeyPair.publicKey)) ∧
    (∀ (t : Text) (m : Mnemonic), Mnemonic.ofPhrase t = .ok m →
      ∀ s, s = mnemonic m ∨ s = phrase m.phrase →
      ∀ n : ℤ, s.keyAt n b = (phrase t).keyAt n b ∧ s.keys n b = (phrase t).keys n b ∧
        s.publicKeys n b = (phrase t).publicKeys n b) ∧
    (∀ (s : Source) (count : ℤ), count < 1 ∨ 2 ^ 31 < count →
      ∃ f, (f = .noKeys ∨ f = .indexRange (count - 1)) ∧ f.family = .keyIndex ∧
        s.keys count b = .error f ∧ s.publicKeys count b = .error f) := by
  have hlt : ∀ {i : ℕ} {count : ℤ}, (i : ℤ) < count ↔ i < count.toNat := Int.lt_toNat.symm
  refine ⟨fun s count hlow hhigh => ⟨⟨fun ⟨pairs, hpairs⟩ i hi => ?_, fun hall => ?_⟩,
      fun pairs hpairs => ?_, fun f => ?_, fun more all hle hall => keys_take hlow hle hall⟩,
    fun s count => publicKeys_eq s b count, fun t m hm s hs n => ?_, fun s count hrange => ?_⟩
  · obtain ⟨pair, -, hpair⟩ := ((keys_eq_ok ⟨hlow, hhigh⟩).1 hpairs).2 i (hlt.1 hi)
    exact ⟨pair, hpair⟩
  · cases hkeys : s.keys count b with
    | ok pairs => exact ⟨pairs, rfl⟩
    | error f =>
      obtain ⟨i, hi, hfault, -⟩ := (keys_eq_error ⟨hlow, hhigh⟩).1 hkeys
      obtain ⟨pair, hpair⟩ := hall i (hlt.2 hi)
      rw [hfault] at hpair
      exact (nomatch hpair)
  · obtain ⟨hlen, hall⟩ := (keys_eq_ok ⟨hlow, hhigh⟩).1 hpairs
    refine ⟨by omega, fun i hi => ?_⟩
    obtain ⟨pair, hget, hpair⟩ := hall i (hlt.1 hi)
    exact ⟨pair, hget, hpair, index_keyAt hpair⟩
  · simp only [hlt]
    exact keys_eq_error ⟨hlow, hhigh⟩
  · have hresolve := resolve_of_ofPhrase hm hs
    exact ⟨keyAt_congr hresolve n b, keys_congr hresolve n b, publicKeys_congr hresolve n b⟩
  · have hkeys := keys_eq_error_of_range s b hrange
    refine ⟨_, ?_, ?_, hkeys, by rw [publicKeys_eq, hkeys]; rfl⟩
    · split_ifs
      · exact .inl rfl
      · exact .inr rfl
    · split_ifs <;> rfl

/-- A phrase with a blank in front, the mnemonic read from it and the phrase of this mnemonic, for
the pairs with the indexes 0 to 2; and numbers out of range, refused before a phrase that is none.
-/
theorem keys_of_blank_abandon : ∃ m : Mnemonic,
    m.words = List.replicate 11 "abandon".toList ++ ["about".toList] ∧
    Mnemonic.ofPhrase ('\t' :: Text.joinWith ' ' m.words) = .ok m ∧
    (phrase m.phrase).keys 3 Branch.usual =
      (phrase ('\t' :: Text.joinWith ' ' m.words)).keys 3 Branch.usual ∧
    ((∃ pairs, (mnemonic m).keys 3 Branch.usual = .ok pairs) ↔
      ∀ i : ℕ, (i : ℤ) < 3 → ∃ pair, (mnemonic m).keyAt i Branch.usual = .ok pair) ∧
    (Mnemonic.ofPhrase "abandon".toList).isOk = false ∧
    ∀ count : ℤ, count = 0 ∨ count = 2 ^ 31 + 1 →
      ∃ f, f.family = .keyIndex ∧ (phrase "abandon".toList).keys count Branch.usual = .error f := by
  obtain ⟨hagree, -, hsame, hrange⟩ := keys_agree_with_keyAt Branch.usual
  have hsound : Mnemonic.fault? (List.replicate 11 "abandon".toList ++ ["about".toList]) =
      none := by decide +kernel
  obtain ⟨m, hwords⟩ : ∃ m : Mnemonic,
      m.words = List.replicate 11 "abandon".toList ++ ["about".toList] :=
    ⟨⟨_, hsound⟩, rfl⟩
  have hphrase : Mnemonic.ofPhrase ('\t' :: Text.joinWith ' ' m.words) = .ok m := by
    refine Mnemonic.ofWords_eq_ok.2 ?_
    rw [hwords]
    decide +kernel
  refine ⟨m, hwords, hphrase, (hsame _ m hphrase _ (.inr rfl) 3).2.1,
    (hagree _ 3 (by decide) (by decide)).1, by decide +kernel, fun count hcount => ?_⟩
  obtain ⟨f, -, hfamily, hkeys, -⟩ := hrange (phrase "abandon".toList) count (by omega)
  exact ⟨f, hfamily, hkeys⟩

end Keyring.Source
