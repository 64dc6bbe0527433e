import Keyring.Mnemonic.Basic
import Keyring.Proofs.Text.Words

/-!
# Entries and words of a mnemonic

A mnemonic counts the entries that it was given, while the checksum and the seed are those of its
decomposed phrase, which is cut anew. An entry with a blank in it, or with a character that
decomposes into one, stands for several words. So the two counts agree exactly if no decomposed
entry has a blank, and then each entry is a listed word.
-/

namespace Keyring

open Text.Compatibility

/-! ### Decomposed texts -/

namespace Text.Compatibility

theorem decompose_joinWith (ws : List Text) :
    decompose (joinWith ' ' ws) = joinWith ' ' (ws.map decompose) := by
  induction ws with
  | nil => rfl
  | cons w ws ih =>
    by_cases hws : ws = []
    · subst hws
      rfl
    · have hmap : ws.map decompose ≠ [] := mt List.map_eq_nil_iff.1 hws
      have hblank : decomposeChar ' ' = [' '] := rfl
      rw [joinWith_cons hws, List.map_cons, joinWith_cons hmap, ← ih, decompose,
        List.flatMap_append, List.flatMap_cons, hblank]
      rfl

/-- A blank decomposes into one blank, not always into the one that separates words. -/
theorem decomposeChar_of_isBlank {c : Char} (h : isBlank c) :
    ∃ d, decomposeChar c = [d] ∧ isBlank d := by
  by_cases hascii : c.toNat < 128
  · exact ⟨c, if_pos hascii, h⟩
  · have hmem : c.toNat ∈ 0x85 :: 0x1680 :: 0x2028 :: 0x2029 :: blanks := by
      simp only [isBlank, if_neg hascii, Bool.or_eq_true, Bool.and_eq_true, decide_eq_true_eq] at h
      simp only [blanks, List.mem_cons, List.not_mem_nil, or_false]
      omega
    have hall : ∀ n ∈ 0x85 :: 0x1680 :: 0x2028 :: 0x2029 :: blanks,
        decomposeChar (Char.ofNat n) = [' '] ∨
          decomposeChar (Char.ofNat n) = [Char.ofNat n] ∧ isBlank (Char.ofNat n) := by
      decide +kernel
    rcases hall _ hmem with hc | ⟨hc, hblank⟩
    · rw [Char.ofNat_toNat] at hc
      exact ⟨' ', hc, rfl⟩
    · rw [Char.ofNat_toNat] at hc hblank
      exact ⟨c, hc, hblank⟩

end Text.Compatibility

namespace Mnemonic

/-! ### Listed words -/

/-- The bytes of a word of lower-case letters. -/
def isLowerSpelling (s : String) : Bool :=
  let bytes := s.toByteArray.data.toList
  !bytes.isEmpty && bytes.all fun b => 97 ≤ b.toNat && b.toNat ≤ 122

/-- A character that is encoded in bytes of lower-case letters is one of these letters. -/
theorem lower_of_bytes {c : Char}
    (h : ∀ b ∈ String.utf8EncodeChar c, 97 ≤ b.toNat ∧ b.toNat ≤ 122) :
    97 ≤ c.toNat ∧ c.toNat ≤ 122 := by
  by_cases hascii : c.val.toNat ≤ 0x7f
  · have hbyte : UInt8.ofNat c.val.toNat ∈ String.utf8EncodeChar c := by
      rw [String.utf8EncodeChar, if_pos hascii]
      exact List.mem_singleton_self _
    have hb := h _ hbyte
    rwa [UInt8.toNat_ofNat_of_lt' (Nat.lt_of_le_of_lt hascii (by decide))] at hb
  · -- The first byte of a longer encoding is above all letters.
    have hfirst : ∃ b ∈ String.utf8EncodeChar c, 192 ≤ b.toNat := by
      rw [String.utf8EncodeChar, if_neg hascii]
      split_ifs
      all_goals
        refine ⟨_, List.mem_cons_self, ?_⟩
        rw [UInt8.toNat_ofNat_of_lt' (by show _ < 256; omega)]
        omega
    obtain ⟨b, hb, hle⟩ := hfirst
    exact absurd (h b hb).2 (by omega)

theorem lower_of_isLowerSpelling {s : String} (h : isLowerSpelling s) :
    s.toList ≠ [] ∧ ∀ c ∈ s.toList, 97 ≤ c.toNat ∧ c.toNat ≤ 122 := by
  have hbytes : s.toByteArray.data.toList = s.toList.flatMap String.utf8EncodeChar := by
    rw [← String.utf8Encode_toList, List.utf8Encode, List.toList_data_toByteArray]
  simp only [isLowerSpelling, hbytes, Bool.and_eq_true, Bool.not_eq_true',
    List.isEmpty_eq_false_iff, List.all_eq_true, decide_eq_true_eq] at h
  refine ⟨fun hnil => h.1 (by rw [hnil]; rfl), fun c hc => lower_of_bytes fun b hb => ?_⟩
  exact h.2 b (List.mem_flatMap.2 ⟨c, hc, hb⟩)

/-- Listed words consist of lower-case letters. This is decided on their bytes, which are at hand
where the characters of a string would have to be decoded first. -/
theorem lower_of_mem_all {w : Text} (h : w ∈ Words.all) :
    w ≠ [] ∧ ∀ c ∈ w, 97 ≤ c.toNat ∧ c.toNat ≤ 122 := by
  have hall : ∃ words : List String, Words.all = words.map String.toList ∧
      words.all isLowerSpelling :=
    ⟨_, rfl, by decide +kernel⟩
  obtain ⟨words, heq, hlower⟩ := hall
  rw [heq] at h
  obtain ⟨s, hs, rfl⟩ := List.mem_map.1 h
  exact lower_of_isLowerSpelling (List.all_eq_true.1 hlower s hs)

theorem not_isBlank_of_mem_all {w : Text} (h : w ∈ Words.all) {c : Char} (hc : c ∈ w) :
    Text.isBlank c = false := by
  have hletter := (lower_of_mem_all h).2 c hc
  have hascii : c.toNat < 128 := by omega
  simp only [Text.isBlank, if_pos hascii, Bool.or_eq_false_iff, Bool.and_eq_false_iff,
    decide_eq_false_iff_not]
  omega

theorem blank_notMem_of_mem_all {w : Text} (h : w ∈ Words.all) : ' ' ∉ w := by
  intro hmem
  have hblank : Text.isBlank ' ' = true := rfl
  rw [not_isBlank_of_mem_all h hmem] at hblank
  exact absurd hblank Bool.false_ne_true

/-- Words with numbers are listed, and there is one number for each. -/
theorem listed_of_mapM {ws : List Text} {numbers : List ℕ}
    (h : ws.mapM Words.index? = some numbers) :
    numbers.length = ws.length ∧ ∀ w ∈ ws, w ∈ Words.all := by
  induction ws generalizing numbers with
  | nil =>
    obtain rfl : [] = numbers := Option.some.inj h
    exact ⟨rfl, List.forall_mem_nil _⟩
  | cons w ws ih =>
    simp only [List.mapM_cons, Option.bind_eq_bind, Option.bind_eq_some_iff, Option.pure_def,
      Option.some.injEq] at h
    obtain ⟨i, hi, rest, hrest, rfl⟩ := h
    have hw : w ∈ Words.all := List.isSome_idxOf?.1 (Option.isSome_of_eq_some hi)
    obtain ⟨hlen, hws⟩ := ih hrest
    exact ⟨congrArg Nat.succ hlen, List.forall_mem_cons.2 ⟨hw, hws⟩⟩

/-! ### The check -/

/-- A phrase is a list of listed words of a length that is allowed, with a fitting checksum. -/
theorem isPhrase_iff {t : Text} :
    isPhrase t ↔ ∃ numbers, (plainWords t).mapM Words.index? = some numbers ∧
    numbers.length ∈ wordCounts ∧ checksumFits numbers := by
  rw [isPhrase]
  cases (plainWords t).mapM Words.index? <;> simp

theorem isPhrase_of_sound {ws : List Text} (h : fault? ws = none) :
    ws.length ∈ wordCounts ∧ isPhrase (Text.joinWith ' ' ws) := by
  unfold fault? at h
  split_ifs at h with hlen hempty hphrase
  exact ⟨hlen, hphrase⟩

theorem ofWords_eq_ok {ws : List Text} {m : Mnemonic} : ofWords ws = .ok m ↔ m.words = ws := by
  constructor
  · intro h
    unfold ofWords at h
    split at h
    · exact (congrArg words (Except.ok.inj h)).symm
    · exact (nomatch h)
  · rintro rfl
    exact ofWords_words m

/-! ### Entries -/

theorem plainWords_of_notMem {w : Text} (h : ' ' ∉ decompose w) : plainWords w = [decompose w] :=
  Text.splitOn_of_notMem h

theorem length_le_flatMap_plainWords (ws : List Text) :
    ws.length ≤ (ws.flatMap plainWords).length := by
  induction ws with
  | nil => exact Nat.le_refl 0
  | cons w ws ih =>
    have hpos : 0 < (plainWords w).length := List.length_pos_iff.2 (Text.splitOn_ne_nil _ _)
    rw [List.flatMap_cons, List.length_append, List.length_cons]
    omega

/-- Entries are as many as the words in them exactly if none of them comes apart. -/
theorem length_eq_flatMap_plainWords {ws : List Text} :
    ws.length = (ws.flatMap plainWords).length ↔ ∀ w ∈ ws, ' ' ∉ decompose w := by
  induction ws with
  | nil => simp
  | cons w ws ih =>
    have hpos : 0 < (plainWords w).length := List.length_pos_iff.2 (Text.splitOn_ne_nil _ _)
    have hle := length_le_flatMap_plainWords ws
    rw [List.forall_mem_cons, ← ih, ← Text.length_splitOn_eq_one, ← plainWords, List.flatMap_cons,
      List.length_append, List.length_cons]
    omega

/-! ### Texts of listed words -/

section Listed

variable {t : Text} (hlisted : ∀ w ∈ plainWords t, w ∈ Words.all)

include hlisted

/-- A text of listed words decomposes into their letters and the blanks between them, and so into
ASCII. -/
theorem mem_decompose_of_listed {d : Char} (h : d ∈ decompose t) :
    d = ' ' ∨ ∃ w ∈ Words.all, d ∈ w := by
  have hmem : d ∈ Text.joinWith ' ' (plainWords t) := by
    rw [plainWords, Text.joinWith_splitOn]
    exact h
  rcases Text.mem_joinWith hmem with hsep | ⟨w, hw, hd⟩
  · exact .inl hsep
  · exact .inr ⟨w, hlisted w hw, hd⟩

/-- What decomposes into a blank separates two words, so that it stands at neither end. -/
theorem ne_nil_of_isBlank (pre post : Text) {c : Char} (h : t = pre ++ c :: post)
    (hc : Text.isBlank c) : pre ≠ [] ∧ post ≠ [] := by
  obtain ⟨d, hd, hblank⟩ := decomposeChar_of_isBlank hc
  have hdecompose : decompose t = decompose pre ++ d :: decompose post := by
    rw [h, decompose, List.flatMap_append, List.flatMap_cons, hd]
    rfl
  have hsep : d = ' ' := by
    have hmem : d ∈ decompose t := hdecompose ▸ List.mem_append_right _ List.mem_cons_self
    rcases mem_decompose_of_listed hlisted hmem with hsep | ⟨w, hw, hdw⟩
    · exact hsep
    · rw [not_isBlank_of_mem_all hw hdw] at hblank
      exact absurd hblank Bool.false_ne_true
  have hpieces :
      plainWords t = Text.splitOn ' ' (decompose pre) ++ Text.splitOn ' ' (decompose post) := by
    rw [plainWords, hdecompose, hsep, Text.splitOn_append_cons]
  have hnil : [] ∉ plainWords t := fun hmem => (lower_of_mem_all (hlisted [] hmem)).1 rfl
  rw [hpieces, List.mem_append, not_or] at hnil
  constructor
  · rintro rfl
    exact hnil.1 (List.mem_singleton_self _)
  · rintro rfl
    exact hnil.2 (List.mem_singleton_self _)

theorem ends_of_listed :
    (∀ c ∈ t.head?, Text.isBlank c = false) ∧ ∀ c ∈ t.getLast?, Text.isBlank c = false := by
  refine ⟨fun c hc => ?_, fun c hc => ?_⟩
  · obtain ⟨rest, hrest⟩ := List.head?_eq_some_iff.1 hc
    exact Bool.eq_false_iff.2 fun hblank => (ne_nil_of_isBlank hlisted [] rest hrest hblank).1 rfl
  · obtain ⟨front, hfront⟩ := List.getLast?_eq_some_iff.1 hc
    exact Bool.eq_false_iff.2 fun hblank => (ne_nil_of_isBlank hlisted front [] hfront hblank).2 rfl

end Listed

/-! ### Accepted phrases -/

section Accepted

variable (m : Mnemonic)

theorem words_ne_nil : m.words ≠ [] := by
  intro h
  have hlen := (isPhrase_of_sound m.sound).1
  rw [h] at hlen
  exact absurd hlen (by decide)

/-- The words of the phrase are those of the entries, one entry after the other. -/
theorem plainWords_phrase : plainWords m.phrase = m.words.flatMap plainWords := by
  have hmap : m.words.map decompose ≠ [] := mt List.map_eq_nil_iff.1 m.words_ne_nil
  rw [plainWords, phrase, decompose_joinWith, Text.splitOn_joinWith_eq_flatMap hmap,
    List.flatMap_map]
  rfl

theorem exists_numbers : ∃ numbers, (plainWords m.phrase).mapM Words.index? = some numbers ∧
    numbers.length ∈ wordCounts ∧ checksumFits numbers :=
  isPhrase_iff.1 (isPhrase_of_sound m.sound).2

theorem seed_eq : m.seed = Hash.stretch (Text.Utf8.encode (Text.joinWith ' ' (plainWords m.phrase)))
    (Text.Utf8.encode "mnemonic".toList) 2048 := by
  rw [plainWords, Text.joinWith_splitOn, seed]

variable {m}

theorem mem_all_of_mem_plainWords {w : Text} (h : w ∈ plainWords m.phrase) : w ∈ Words.all := by
  obtain ⟨numbers, hnumbers, -⟩ := m.exists_numbers
  exact (listed_of_mapM hnumbers).2 w h

/-- An entry is a listed word unless it decomposes with a blank. -/
theorem decompose_mem_all {w : Text} (hw : w ∈ m.words) :
    decompose w ∈ Words.all ↔ ' ' ∉ decompose w := by
  refine ⟨blank_notMem_of_mem_all, fun h => ?_⟩
  have hmem : decompose w ∈ plainWords m.phrase := by
    rw [plainWords_phrase, List.mem_flatMap]
    exact ⟨w, hw, plainWords_of_notMem h ▸ List.mem_singleton_self _⟩
  exact mem_all_of_mem_plainWords hmem

variable (m) in
/-- An accepted phrase has no blanks at its ends. -/
theorem trim_phrase : m.phrase.trim = m.phrase := by
  obtain ⟨hfirst, hlast⟩ :=
    ends_of_listed fun w (hw : w ∈ plainWords m.phrase) => mem_all_of_mem_plainWords hw
  exact Text.trimBy_eq_self hfirst hlast

/-- An entry has no blanks at its ends, whether it is one word or several. -/
theorem ends_of_mem_words {w : Text} (hw : w ∈ m.words) :
    (∀ c ∈ w.head?, Text.isBlank c = false) ∧ ∀ c ∈ w.getLast?, Text.isBlank c = false := by
  refine ends_of_listed fun v hv => mem_all_of_mem_plainWords (m := m) ?_
  rw [plainWords_phrase]
  exact List.mem_flatMap_of_mem hw hv

/-- A mnemonic is read back from its phrase unless an entry has a blank. -/
theorem ofPhrase_phrase_eq_ok : ofPhrase m.phrase = .ok m ↔ ∀ w ∈ m.words, ' ' ∉ w := by
  rw [ofPhrase, trim_phrase, ofWords_eq_ok]
  constructor
  · intro h w hw
    rw [h] at hw
    exact Text.notMem_of_mem_splitOn hw
  · intro h
    exact (Text.splitOn_joinWith m.words_ne_nil h).symm

theorem blank_notMem_of_ofPhrase {t : Text} (h : ofPhrase t = .ok m) : ∀ w ∈ m.words, ' ' ∉ w := by
  intro w hw
  rw [ofWords_eq_ok.1 h] at hw
  exact Text.notMem_of_mem_splitOn hw

end Accepted

/-- Checksum and seed are those of the words that the decomposed entries are cut into: a possible
number of listed words, at least one for each entry. They are as many as the entries exactly if no
decomposed entry has a blank, and exactly then each entry is a listed word itself. The phrase of a
mnemonic is read back as this mnemonic exactly if no entry has a blank as it stands, and so it is
where the mnemonic was read from a phrase. -/
theorem entries_are_words_iff (m : Mnemonic) :
    plainWords m.phrase = m.words.flatMap plainWords ∧
    (∃ numbers, (plainWords m.phrase).mapM Words.index? = some numbers ∧
      numbers.length = (plainWords m.phrase).length ∧ numbers.length ∈ wordCounts ∧
        checksumFits numbers) ∧
    m.seed = Hash.stretch (Text.Utf8.encode (Text.joinWith ' ' (plainWords m.phrase)))
      (Text.Utf8.encode "mnemonic".toList) 2048 ∧
    (∀ w ∈ plainWords m.phrase, w ∈ Words.all) ∧
    m.words.length ≤ (plainWords m.phrase).length ∧
    (m.words.length = (plainWords m.phrase).length ↔ ∀ w ∈ m.words, ' ' ∉ decompose w) ∧
    (∀ w ∈ m.words, decompose w ∈ Words.all ↔ ' ' ∉ decompose w) ∧
    (ofPhrase m.phrase = .ok m ↔ ∀ w ∈ m.words, ' ' ∉ w) ∧
    (∀ t, ofPhrase t = .ok m → ofPhrase m.phrase = .ok m) := by
  refine ⟨m.plainWords_phrase, ?_, m.seed_eq, fun w => mem_all_of_mem_plainWords, ?_, ?_,
    fun w => decompose_mem_all, ofPhrase_phrase_eq_ok, fun t h => ?_⟩
  · obtain ⟨numbers, hnumbers, hcount, hfits⟩ := m.exists_numbers
    exact ⟨numbers, hnumbers, (listed_of_mapM hnumbers).1, hcount, hfits⟩
  · rw [plainWords_phrase]
    exact length_le_flatMap_plainWords m.words
  · rw [plainWords_phrase]
    exact length_eq_flatMap_plainWords
  · exact ofPhrase_phrase_eq_ok.2 (blank_notMem_of_ofPhrase h)

/-- Fifteen words as twelve entries, the first six of them in pairs. -/
def pairedEntries (blank : Char) : List Text :=
  List.replicate 3 ("abandon".toList ++ blank :: "abandon".toList) ++
    List.replicate 8 "abandon".toList ++ ["address".toList]

/-- Twelve entries with fifteen words in them are accepted with either blank. The phrase of the one
is not read back; that of the other is, with each pair as one entry. -/
theorem paired_entries_accepted :
    (∃ m : Mnemonic, m.words = pairedEntries ' ' ∧ (∃ w ∈ m.words, ' ' ∈ decompose w) ∧
      m.words.length = 12 ∧ (plainWords m.phrase).length = 15 ∧ ofPhrase m.phrase ≠ .ok m) ∧
    ∃ m : Mnemonic, m.words = pairedEntries '\u00a0' ∧ (∃ w ∈ m.words, ' ' ∈ decompose w) ∧
      m.words.length = 12 ∧ (plainWords m.phrase).length = 15 ∧ ofPhrase m.phrase = .ok m := by
  have haccepted : ∀ blank, blank = ' ' ∨ blank = '\u00a0' → fault? (pairedEntries blank) = none ∧
      (∃ w ∈ pairedEntries blank, ' ' ∈ decompose w) ∧
      (plainWords (Text.joinWith ' ' (pairedEntries blank))).length = 15 := by
    rintro blank (rfl | rfl)
    · decide +kernel
    · decide +kernel
  obtain ⟨hsound, hblank, hcount⟩ := haccepted ' ' (.inl rfl)
  obtain ⟨hsound', hblank', hcount'⟩ := haccepted '\u00a0' (.inr rfl)
  refine ⟨⟨⟨_, hsound⟩, rfl, hblank, rfl, hcount, fun h => ?_⟩, ⟨_, hsound'⟩, rfl, hblank', rfl,
    hcount', ?_⟩
  · have hpair : "abandon abandon".toList ∈ pairedEntries ' ' := by decide +kernel
    exact absurd (ofPhrase_phrase_eq_ok.1 h _ hpair) (by decide)
  · have hone : ∀ w ∈ pairedEntries '\u00a0', ' ' ∉ w := by decide +kernel
    exact ofPhrase_phrase_eq_ok.2 hone

end Mnemonic

end Keyring
