import Keyring.Base58.Checked
import Keyring.Proofs.Base58

/-!
# Checked text has one form for each payload and checksum

Both codecs read a payload and a checksum of four bytes (`decodeWith`). They differ in the least
length, in the checksums that do not fit a payload, and in the faults.
-/

namespace Keyring.Base58

theorem splitTail_spec {raw : Bytes} (h : 4 ≤ raw.length) :
    (splitTail raw).1 ++ (splitTail raw).2 = raw ∧ (splitTail raw).2.length = 4 ∧
      (splitTail raw).1.length + 4 = raw.length := by
  rw [splitTail, List.splitAt_eq]
  refine ⟨List.take_append_drop _ _, ?_, ?_⟩
  · rw [List.length_drop]
    omega
  · rw [List.length_take]
    omega

/-! ### Reading with any checksum -/

/-- Read a payload and a checksum that is no `misfit` for it, `least` bytes at least. -/
def decodeWith (least : ℕ) (short mismatch : Fault) (misfit : Bytes → Bytes → Prop)
    [∀ payload sum, Decidable (misfit payload sum)] (t : Text) : Outcome Bytes := do
  let raw ← Base58.decode t
  if raw.length < least then throw short
  let (payload, sum) := splitTail raw
  if misfit payload sum then throw mismatch
  return payload

section DecodeWith

variable {least : ℕ} {short mismatch : Fault} {misfit : Bytes → Bytes → Prop}
  [∀ payload sum, Decidable (misfit payload sum)] {t : Text}

/-- The texts that are read, for either codec: a payload of sufficient length with a fitting
checksum. -/
theorem decodeWith_eq_ok (hleast : 4 ≤ least) {payload : Bytes} :
    decodeWith least short mismatch misfit t = .ok payload ↔ ∃ sum : Bytes, sum.length = 4 ∧
      least ≤ payload.length + 4 ∧ ¬misfit payload sum ∧ t = Base58.encode (payload ++ sum) := by
  simp only [decodeWith, Outcome.bind_eq_ok, Outcome.throw_eq, Outcome.error_bind,
    Outcome.check_eq_ok, Outcome.pure_eq, Except.ok.injEq, Base58.decode_eq_ok]
  constructor
  · rintro ⟨raw, rfl, hlen, hfits, rfl⟩
    have hfour : 4 ≤ raw.length := by omega
    obtain ⟨happ, hsum, hpos⟩ := splitTail_spec hfour
    exact ⟨(splitTail raw).2, hsum, by omega, hfits, by rw [happ]⟩
  · rintro ⟨sum, hsum, hlen, hfits, rfl⟩
    have hsplit : splitTail (payload ++ sum) = (payload, sum) := splitTail_append hsum
    refine ⟨payload ++ sum, rfl, ?_, ?_, by rw [hsplit]⟩
    · rw [List.length_append]
      omega
    · rw [hsplit]
      exact hfits

/-- A refusal is about the alphabet if some character is outside it, and about length or checksum
otherwise. -/
theorem fault_of_decodeWith {f : Fault} (h : decodeWith least short mismatch misfit t = .error f) :
    (∃ c ∈ t, c ∉ alphabet ∧ f = .alienSymbol c) ∨
      ((f = short ∨ f = mismatch) ∧ ∀ c ∈ t, c ∈ alphabet) := by
  simp only [decodeWith, Outcome.bind_eq_error, Outcome.throw_eq, Outcome.error_bind,
    Outcome.check_eq_error, Outcome.pure_eq, Base58.decode_eq_error, Base58.decode_eq_ok] at h
  rcases h with ⟨pre, c, post, rfl, -, hc, hf⟩ | ⟨raw, rfl, h⟩
  · exact .inl ⟨c, by simp, hc, hf⟩
  · have hmem : ∀ c ∈ Base58.encode raw, c ∈ alphabet := fun c hc => mem_alphabet_of_mem_encode hc
    rcases h with ⟨-, rfl⟩ | ⟨-, ⟨-, rfl⟩ | ⟨-, h⟩⟩
    · exact .inr ⟨.inl rfl, hmem⟩
    · exact .inr ⟨.inr rfl, hmem⟩
    · exact (nomatch h)

theorem mem_alphabet_of_decodeWith (hleast : 4 ≤ least) {payload : Bytes}
    (h : decodeWith least short mismatch misfit t = .ok payload) : ∀ c ∈ t, c ∈ alphabet := by
  obtain ⟨sum, -, -, -, rfl⟩ := (decodeWith_eq_ok hleast).1 h
  exact fun c hc => mem_alphabet_of_mem_encode hc

variable (hshort : short.family = .key) (hmismatch : mismatch.family = .key)

include hshort hmismatch

theorem family_of_decodeWith {f : Fault} (h : decodeWith least short mismatch misfit t = .error f) :
    (f.family = .base58 ∧ ∃ c ∈ t, c ∉ alphabet) ∨ (f.family = .key ∧ ∀ c ∈ t, c ∈ alphabet) := by
  rcases fault_of_decodeWith h with ⟨c, hc, hn, rfl⟩ | ⟨rfl | rfl, hall⟩
  · exact .inl ⟨rfl, c, hc, hn⟩
  · exact .inr ⟨hshort, hall⟩
  · exact .inr ⟨hmismatch, hall⟩

/-- Which texts are refused for a character. -/
theorem exists_base58_fault_iff (hleast : 4 ≤ least) :
    (∃ f, decodeWith least short mismatch misfit t = .error f ∧ f.family = .base58) ↔
      ∃ c ∈ t, c ∉ alphabet := by
  constructor
  · rintro ⟨f, hf, hfamily⟩
    rcases family_of_decodeWith hshort hmismatch hf with ⟨-, hc⟩ | ⟨hkey, -⟩
    · exact hc
    · exact (nomatch hfamily.symm.trans hkey)
  · rintro ⟨c, hc, hn⟩
    cases hread : decodeWith least short mismatch misfit t with
    | ok payload => exact absurd (mem_alphabet_of_decodeWith hleast hread c hc) hn
    | error f =>
      rcases family_of_decodeWith hshort hmismatch hread with ⟨hfamily, -⟩ | ⟨-, hall⟩
      · exact ⟨f, rfl, hfamily⟩
      · exact absurd (hall c hc) hn

/-- Which texts are refused for their length or checksum. -/
theorem exists_key_fault_iff :
    (∃ f, decodeWith least short mismatch misfit t = .error f ∧ f.family = .key) ↔
      (∀ c ∈ t, c ∈ alphabet) ∧
      ∀ payload, decodeWith least short mismatch misfit t ≠ .ok payload := by
  constructor
  · rintro ⟨f, hf, hfamily⟩
    rcases family_of_decodeWith hshort hmismatch hf with ⟨hbase58, -⟩ | ⟨-, hall⟩
    · exact (nomatch hfamily.symm.trans hbase58)
    · exact ⟨hall, fun payload hok => (nomatch hf.symm.trans hok)⟩
  · rintro ⟨hall, hno⟩
    cases hread : decodeWith least short mismatch misfit t with
    | ok payload => exact absurd hread (hno payload)
    | error f =>
      rcases family_of_decodeWith hshort hmismatch hread with ⟨-, c, hc, hn⟩ | ⟨hfamily, -⟩
      · exact absurd (hall c hc) hn
      · exact ⟨f, rfl, hfamily⟩

end DecodeWith

/-! ### The two codecs -/

namespace Checked

@[simp] theorem length_checksum (payload : Bytes) : (checksum payload).length = 4 := by
  rw [checksum, List.length_take, Hash.sha256d, Hash.length_sha256]
  rfl

theorem decode_eq_decodeWith (t : Text) :
    decode t = decodeWith 4 .checkedTooShort .checkedMismatch
      (fun payload sum => sum ≠ checksum payload) t := rfl

/-- A text is read exactly if it is the one written for the payload. -/
theorem decode_eq_ok {t : Text} {payload : Bytes} :
    decode t = .ok payload ↔ t = encode payload := by
  rw [decode_eq_decodeWith, decodeWith_eq_ok le_rfl]
  constructor
  · rintro ⟨sum, -, -, hsum, rfl⟩
    rw [encode, not_not.1 hsum]
  · intro h
    exact ⟨checksum payload, length_checksum payload, by omega, not_not.2 rfl, h⟩

theorem encode_injective : Function.Injective encode := by
  intro as bs h
  have has : decode (encode as) = .ok as := decode_eq_ok.2 rfl
  exact Except.ok.inj (has.symm.trans (decode_eq_ok.2 h))

theorem fault_of_decode {t : Text} {f : Fault} (h : decode t = .error f) :
    (∃ c ∈ t, c ∉ alphabet ∧ f = .alienSymbol c) ∨
      ((f = .checkedTooShort ∨ f = .checkedMismatch) ∧ ∀ c ∈ t, c ∈ alphabet) := by
  rw [decode_eq_decodeWith] at h
  exact fault_of_decodeWith h

end Checked

namespace KeyText

@[simp] theorem length_checksum (payload suffix : Bytes) :
    (checksum payload suffix).length = 4 := by
  rw [checksum, List.length_take, Hash.length_ripemd160]
  rfl

theorem decode_eq_decodeWith (t : Text) (suffixes : List Bytes) :
    decode t suffixes = decodeWith 5 .keyTextTooShort .keyTextMismatch
      (fun payload sum => suffixes.all fun s => checksum payload s ≠ sum) t := rfl

/-- A text is read exactly if it is the one written for a payload of at least one byte with one of
the suffixes. -/
theorem decode_eq_ok {t : Text} {suffixes : List Bytes} {payload : Bytes} :
    decode t suffixes = .ok payload ↔ payload ≠ [] ∧ ∃ s ∈ suffixes, t = encode payload s := by
  rw [decode_eq_decodeWith, decodeWith_eq_ok (by decide), ← List.length_pos_iff]
  constructor
  · rintro ⟨sum, -, hlen, hsum, rfl⟩
    obtain ⟨s, hs, hfits⟩ : ∃ s ∈ suffixes, checksum payload s = sum := by simpa using hsum
    exact ⟨by omega, s, hs, by rw [encode, hfits]⟩
  · rintro ⟨hpos, s, hs, rfl⟩
    refine ⟨checksum payload s, length_checksum payload s, by omega, ?_, rfl⟩
    intro hall
    have hne := List.all_eq_true.1 hall s hs
    simp at hne

theorem family_of_decode {t : Text} {suffixes : List Bytes} {f : Fault}
    (h : decode t suffixes = .error f) :
    (f.family = .base58 ∧ ∃ c ∈ t, c ∉ alphabet) ∨ (f.family = .key ∧ ∀ c ∈ t, c ∈ alphabet) := by
  rw [decode_eq_decodeWith] at h
  exact family_of_decodeWith rfl rfl h

/-- The suffix does not show in the text, but the payload does. -/
theorem payload_eq_of_encode {payload payload' suffix suffix' : Bytes}
    (h : encode payload suffix = encode payload' suffix') : payload = payload' := by
  have hlen : (checksum payload suffix).length = (checksum payload' suffix').length := by
    rw [length_checksum, length_checksum]
  exact (List.append_inj' (Base58.encode_injective h) hlen).1

theorem existsUnique_decode {payload : Bytes} (h : payload ≠ []) (suffix : Bytes) :
    ∃! t, decode t [suffix] = .ok payload := by
  refine ⟨encode payload suffix, decode_eq_ok.2 ⟨h, suffix, List.mem_singleton_self _, rfl⟩,
    fun t ht => ?_⟩
  obtain ⟨-, s, hs, rfl⟩ := decode_eq_ok.1 ht
  rw [List.mem_singleton.1 hs]

theorem decode_without_suffixes (t : Text) : ∃ f, decode t [] = .error f := by
  cases hread : decode t [] with
  | ok payload =>
    obtain ⟨-, s, hs, -⟩ := decode_eq_ok.1 hread
    exact absurd hs List.not_mem_nil
  | error f => exact ⟨f, rfl⟩

end KeyText

/-! ### All texts -/

/-- Either codec reads the texts that it writes and no others. A text with a character outside the
alphabet is refused for it, and all other texts on account of the key. So there is one text for each
payload, and for each payload of at least one byte and each suffix; which of the suffixes fits does
not matter for the payload, and without suffixes no text is read. -/
theorem checked_texts_are_written :
    (∀ t : Text,
      (∀ payload, Checked.decode t = .ok payload ↔ t = Checked.encode payload) ∧
      ((∃ f, Checked.decode t = .error f ∧ f.family = .base58) ↔ ∃ c ∈ t, c ∉ alphabet) ∧
      ((∃ f, Checked.decode t = .error f ∧ f.family = .key) ↔
        (∀ c ∈ t, c ∈ alphabet) ∧ ¬∃ payload, t = Checked.encode payload)) ∧
    (∀ (t : Text) (suffixes : List Bytes),
      (∀ payload, KeyText.decode t suffixes = .ok payload ↔
        payload ≠ [] ∧ ∃ s ∈ suffixes, t = KeyText.encode payload s) ∧
      ((∃ f, KeyText.decode t suffixes = .error f ∧ f.family = .base58) ↔ ∃ c ∈ t, c ∉ alphabet) ∧
      ((∃ f, KeyText.decode t suffixes = .error f ∧ f.family = .key) ↔
        (∀ c ∈ t, c ∈ alphabet) ∧ ¬∃ payload, payload ≠ [] ∧ ∃ s ∈ suffixes,
          t = KeyText.encode payload s)) ∧
    (∀ payload, ∃! t, Checked.decode t = .ok payload) ∧
    (∀ payload suffix, payload ≠ [] → ∃! t, KeyText.decode t [suffix] = .ok payload) ∧
    (∀ payload payload' suffix suffix',
      KeyText.encode payload suffix = KeyText.encode payload' suffix' →
      payload = payload') ∧
    ∀ t, ∃ f, KeyText.decode t [] = .error f := by
  refine ⟨fun t => ⟨fun payload => Checked.decode_eq_ok, ?_, ?_⟩,
    fun t suffixes => ⟨fun payload => KeyText.decode_eq_ok, ?_, ?_⟩, fun payload => ?_,
    fun payload suffix h => KeyText.existsUnique_decode h suffix,
    fun _ _ _ _ => KeyText.payload_eq_of_encode, KeyText.decode_without_suffixes⟩
  · rw [Checked.decode_eq_decodeWith]
    exact exists_base58_fault_iff rfl rfl (le_refl 4)
  · simp only [← Checked.decode_eq_ok, not_exists]
    rw [Checked.decode_eq_decodeWith]
    exact exists_key_fault_iff rfl rfl
  · rw [KeyText.decode_eq_decodeWith]
    exact exists_base58_fault_iff rfl rfl (by decide)
  · simp only [← KeyText.decode_eq_ok, not_exists]
    rw [KeyText.decode_eq_decodeWith]
    exact exists_key_fault_iff rfl rfl
  · exact ⟨Checked.encode payload, Checked.decode_eq_ok.2 rfl,
      fun t ht => Checked.decode_eq_ok.1 ht⟩

/-- The short end: four bytes of checksum are a text without payload in the one codec and too short
in the other. -/
theorem checked_texts_at_short_end :
    Checked.decode (Checked.encode []) = .ok [] ∧
    (∃ f, KeyText.decode (KeyText.encode [] []) [[], [0x4b]] = .error f ∧ f.family = .key) ∧
    KeyText.decode (KeyText.encode [0] [0x4b]) [[], [0x4b]] = .ok [0] ∧
    ∃! t, KeyText.decode t [[]] = .ok [0] := by
  obtain ⟨hchecked, hkeyText, -, hunique, hpayload, -⟩ := checked_texts_are_written
  refine ⟨((hchecked _).1 []).2 rfl, ((hkeyText _ _).2.2).2 ⟨?_, ?_⟩, ?_,
    hunique [0] [] (by decide)⟩
  · exact fun c hc => mem_alphabet_of_mem_encode hc
  · rintro ⟨payload, hne, s, -, h⟩
    exact hne (hpayload _ _ _ _ h).symm
  · exact ((hkeyText _ _).1 [0]).2 ⟨by decide, [0x4b], by decide, rfl⟩

end Keyring.Base58
