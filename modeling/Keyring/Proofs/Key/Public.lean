import Keyring.Key.Public
import Keyring.Proofs.Base58.Checked
import Keyring.Proofs.Bytes

/-!
# The accepted texts of a public key

A compressed key and its checksum spell a number between 2^289 and 2^290, which has fifty digits in
base 58. So the Base58 part of every written key passes the length check, and it cannot be taken for
the second form, whose start holds a character outside the alphabet. Reading then accepts the texts
that are written and no others (`ofText_eq_ok`).
-/

namespace Keyring.PublicKey

open Base58

/-! ### Length of the Base58 part -/

theorem isCompressed_iff {key : Bytes} :
    isCompressed key ↔ key.length = 33 ∧ (key.head? = some 2 ∨ key.head? = some 3) := by
  simp [isCompressed]

/-- The Base58 part of a written key has fifty characters. -/
theorem length_encode {key : Bytes} (h : isCompressed key) (suffix : Bytes) :
    (KeyText.encode key suffix).length = 50 := by
  obtain ⟨hlen, hhead⟩ := isCompressed_iff.1 h
  cases key with
  | nil => simp at hlen
  | cons m rest =>
    have hrest : (rest ++ KeyText.checksum (m :: rest) suffix).length = 36 := by
      rw [List.length_append, KeyText.length_checksum]
      simpa using hlen
    have hm : 2 ≤ m.toNat ∧ m.toNat ≤ 3 := by
      rcases hhead with hm | hm <;> obtain rfl := Option.some.inj hm <;> decide
    have hlow : 3 * 58 ^ 49 ≤ m.toNat * 256 ^ 36 :=
      calc 3 * 58 ^ 49 ≤ 2 * 256 ^ 36 := by norm_num
        _ ≤ _ := Nat.mul_le_mul_right _ hm.1
    have hhigh : (m.toNat + 1) * 256 ^ 36 ≤ 8 * 58 ^ 49 :=
      calc (m.toNat + 1) * 256 ^ 36 ≤ 4 * 256 ^ 36 := Nat.mul_le_mul_right _ (by omega)
        _ ≤ _ := by norm_num
    obtain ⟨d, tail, -, -, htail, htext⟩ :=
      exists_encode_eq_cons hrest (by decide) (by decide) hlow hhigh
    rw [KeyText.encode, List.cons_append, htext, List.length_cons, htail]

/-! ### Label and length -/

/-- `text` has the label and the lengths of key text with the Base58 part `body`. -/
def HasBody (text : Text) (labels : List Text) (body : Text) : Prop :=
  body.length = 50 ∧ (text = k1Start ++ body ∨
    (¬k1Start <+: text ∧ ∃ label ∈ labels, label.length = 3 ∧ text = label ++ body))

theorem payload_k1 (body : Text) (labels : List Text) :
    payload (k1Start ++ body) labels = .ok (body, [k1Suffix, []]) := by
  rw [payload, if_pos (List.isPrefixOf_iff_prefix.2 (List.prefix_append _ _)), List.drop_left]

theorem payload_legacy {label body : Text} {labels : List Text} (hk1 : ¬k1Start <+: label ++ body)
    (hmem : label ∈ labels) (hlabel : label.length = 3) (hbody : body.length = 50) :
    payload (label ++ body) labels = .ok (body, [[]]) := by
  have htake : (label ++ body).take labelLength = label := by
    rw [labelLength, ← hlabel, List.take_left]
  have hdrop : (label ++ body).drop labelLength = body := by
    rw [labelLength, ← hlabel, List.drop_left]
  rw [payload, if_neg (mt List.isPrefixOf_iff_prefix.1 hk1), if_neg, htake, if_neg (not_not.2 hmem),
    hdrop]
  simp [hlabel, hbody, textLength]

/-- The three ways in which the checks on label and length can end. -/
theorem payload_cases (text : Text) (labels : List Text) :
    (∃ body, text = k1Start ++ body) ∨
      (¬k1Start <+: text ∧ ∃ label ∈ labels, ∃ body, label.length = 3 ∧ body.length = 50 ∧
        text = label ++ body) ∨
      (∃ f, payload text labels = .error f ∧ f.family = .key ∧
        ∀ body, ¬HasBody text labels body) := by
  by_cases hk1 : k1Start <+: text
  · obtain ⟨body, rfl⟩ := hk1
    exact .inl ⟨body, rfl⟩
  have hpayload : payload text labels =
      if text.length ≠ textLength then .error (.publicTextLength text.length)
      else if text.take labelLength ∉ labels then .error (.labelUnknown (text.take labelLength))
      else .ok (text.drop labelLength, [[]]) := by
    rw [payload, if_neg (mt List.isPrefixOf_iff_prefix.1 hk1)]
  have hbody : ∀ body, HasBody text labels body →
      text.length = textLength ∧ text.take labelLength ∈ labels := by
    rintro body ⟨hlen, rfl | ⟨-, label, hmem, hlabel, rfl⟩⟩
    · exact absurd (List.prefix_append _ _) hk1
    · rw [List.length_append, hlen, labelLength, ← hlabel, List.take_left, hlabel]
      exact ⟨rfl, hmem⟩
  by_cases hlen : text.length = textLength
  · by_cases hmem : text.take labelLength ∈ labels
    · refine .inr (.inl ⟨hk1, text.take labelLength, hmem, text.drop labelLength, ?_, ?_,
        (List.take_append_drop labelLength text).symm⟩)
      · rw [List.length_take, hlen]
        rfl
      · rw [List.length_drop, hlen]
        rfl
    · refine .inr (.inr ⟨_,
        by rw [hpayload, if_neg (not_not.2 hlen), if_pos hmem], rfl, fun body h => ?_⟩)
      exact hmem (hbody body h).2
  · refine .inr (.inr ⟨_, by rw [hpayload, if_pos hlen], rfl, fun body h => ?_⟩)
    exact hlen (hbody body h).1

/-! ### The Base58 part -/

/-- Read the Base58 part of key text. -/
def readBody (body : Text) (suffixes : List Bytes) : Outcome Bytes := do
  if body.length ≠ textLength - labelLength then throw (.payloadLength body.length)
  let key ← KeyText.decode body suffixes
  if !isCompressed key then throw .notCompressed
  return key

theorem ofText_eq_bind (text : Text) (labels : List Text) :
    ofText text labels = payload text labels >>= fun p => readBody p.1 p.2 := rfl

section ReadBody

variable {body : Text} {suffixes : List Bytes}

/-- A body is read if it holds a compressed key and a checksum with one of the suffixes. -/
theorem readBody_eq_ok {key : Bytes} : readBody body suffixes = .ok key ↔
    isCompressed key ∧ ∃ s ∈ suffixes, body = KeyText.encode key s := by
  simp only [readBody, Outcome.throw_eq, Outcome.error_bind, Outcome.pure_eq, Outcome.check_eq_ok,
    Outcome.bind_eq_ok, KeyText.decode_eq_ok, not_not, Except.ok.injEq]
  constructor
  · rintro ⟨-, key, ⟨-, hs⟩, hc, rfl⟩
    exact ⟨by simpa using hc, hs⟩
  · rintro ⟨hc, s, hs, rfl⟩
    refine ⟨length_encode hc s, key, ⟨?_, s, hs, rfl⟩, by simp [hc], rfl⟩
    rintro rfl
    simp [isCompressed] at hc

/-- A refusal is about the alphabet exactly if the length is right and some character is outside it.
-/
theorem family_of_readBody {f : Fault} (h : readBody body suffixes = .error f) :
    (f.family = .base58 ∧ body.length = 50 ∧ ∃ c ∈ body, c ∉ alphabet) ∨
      (f.family = .key ∧ ¬(body.length = 50 ∧ ∃ c ∈ body, c ∉ alphabet)) := by
  simp only [readBody, Outcome.throw_eq, Outcome.error_bind, Outcome.pure_eq,
    Outcome.check_eq_error, Outcome.bind_eq_error, reduceCtorEq, and_false, or_false] at h
  rcases h with ⟨hlen, rfl⟩ | ⟨hlen, hdec | ⟨key, hdec, -, rfl⟩⟩
  · exact .inr ⟨rfl, fun hb => hlen hb.1⟩
  · rcases KeyText.family_of_decode hdec with ⟨hf, hc⟩ | ⟨hf, hc⟩
    · exact .inl ⟨hf, not_not.1 hlen, hc⟩
    · exact .inr ⟨hf, fun ⟨_, c, hm, hn⟩ => hn (hc c hm)⟩
  · obtain ⟨-, s, -, rfl⟩ := KeyText.decode_eq_ok.1 hdec
    exact .inr ⟨rfl, fun ⟨_, c, hm, hn⟩ => hn (mem_alphabet_of_mem_encode hm)⟩

end ReadBody

/-! ### Reading -/

/-- A labelled text cannot begin like the second form, which has a character outside the alphabet.
-/
theorem not_k1Start_of_label {label : Text} (hlabel : label.length = 3) (key suffix : Bytes) :
    ¬k1Start <+: label ++ KeyText.encode key suffix := by
  rintro ⟨rest, hrest⟩
  have hbody : KeyText.encode key suffix = '_' :: 'K' :: '1' :: '_' :: rest := by
    have hdrop : (label ++ KeyText.encode key suffix).drop 3 = KeyText.encode key suffix := by
      rw [← hlabel, List.drop_left]
    rw [← hdrop, ← hrest]
    rfl
  have hmem : '_' ∈ KeyText.encode key suffix := hbody ▸ List.mem_cons_self
  exact absurd (mem_alphabet_of_mem_encode hmem) (by decide)

theorem ofText_k1 (body : Text) (labels : List Text) :
    ofText (k1Start ++ body) labels = readBody body [k1Suffix, []] := by
  rw [ofText_eq_bind, payload_k1, Outcome.ok_bind]

theorem ofText_legacy {label body : Text} {labels : List Text} (hk1 : ¬k1Start <+: label ++ body)
    (hmem : label ∈ labels) (hlabel : label.length = 3) (hbody : body.length = 50) :
    ofText (label ++ body) labels = readBody body [[]] := by
  rw [ofText_eq_bind, payload_legacy hk1 hmem hlabel hbody, Outcome.ok_bind]

/-- The texts that are read as a public key. -/
theorem ofText_eq_ok {text : Text} {labels : List Text} {key : Bytes} :
    ofText text labels = .ok key ↔
    isCompressed key ∧ ((∃ label ∈ labels, label.length = 3 ∧ text = labelled label key) ∨
      text = k1Start ++ KeyText.encode key k1Suffix ∨ text = k1Start ++ KeyText.encode key []) := by
  constructor
  · intro h
    rcases payload_cases text labels with ⟨body, rfl⟩ |
      ⟨hk1, label, hmem, body, hlabel, hbody, rfl⟩ |
      ⟨f, hf, -⟩
    · rw [ofText_k1, readBody_eq_ok] at h
      obtain ⟨hc, s, hs, rfl⟩ := h
      rcases List.mem_pair.1 hs with rfl | rfl
      · exact ⟨hc, .inr (.inl rfl)⟩
      · exact ⟨hc, .inr (.inr rfl)⟩
    · rw [ofText_legacy hk1 hmem hlabel hbody, readBody_eq_ok] at h
      obtain ⟨hc, s, hs, rfl⟩ := h
      rw [List.mem_singleton.1 hs] at hk1 ⊢
      exact ⟨hc, .inl ⟨label, hmem, hlabel, rfl⟩⟩
    · rw [ofText_eq_bind, hf] at h
      exact (nomatch h)
  · rintro ⟨hc, ⟨label, hmem, hlabel, rfl⟩ | rfl | rfl⟩
    · rw [labelled,
        ofText_legacy (not_k1Start_of_label hlabel key []) hmem hlabel (length_encode hc [])]
      exact readBody_eq_ok.2 ⟨hc, [], by simp, rfl⟩
    · rw [ofText_k1]
      exact readBody_eq_ok.2 ⟨hc, k1Suffix, by simp, rfl⟩
    · rw [ofText_k1]
      exact readBody_eq_ok.2 ⟨hc, [], by simp, rfl⟩

theorem ofText_labelled {key : Bytes} {label : Text} {labels : List Text} (h : isCompressed key)
    (hlabel : label.length = 3) (hmem : label ∈ labels) :
    ofText (labelled label key) labels = .ok key :=
  ofText_eq_ok.2 ⟨h, .inl ⟨label, hmem, hlabel, rfl⟩⟩

/-- Whether the alphabet or the key is at fault shows in the text. -/
theorem family_of_ofText {text : Text} {labels : List Text} {f : Fault}
    (h : ofText text labels = .error f) :
    (f.family = .base58 ∧ ∃ body, HasBody text labels body ∧ ∃ c ∈ body, c ∉ alphabet) ∨
      (f.family = .key ∧ ¬∃ body, HasBody text labels body ∧ ∃ c ∈ body, c ∉ alphabet) := by
  rcases payload_cases text labels with ⟨body, rfl⟩ | ⟨hk1, label, hmem, body, hlabel, hbody, rfl⟩ |
    ⟨g, hg, hfam, hno⟩
  · rw [ofText_k1] at h
    rcases family_of_readBody h with ⟨hf, hlen, hc⟩ | ⟨hf, hno⟩
    · exact .inl ⟨hf, body, ⟨hlen, .inl rfl⟩, hc⟩
    · refine .inr ⟨hf, ?_⟩
      rintro ⟨body', ⟨hlen, heq | ⟨hk1, -⟩⟩, hc⟩
      · exact hno (List.append_cancel_left heq ▸ ⟨hlen, hc⟩)
      · exact hk1 (List.prefix_append _ _)
  · rw [ofText_legacy hk1 hmem hlabel hbody] at h
    rcases family_of_readBody h with ⟨hf, hlen, hc⟩ | ⟨hf, hno⟩
    · exact .inl ⟨hf, body, ⟨hlen, .inr ⟨hk1, label, hmem, hlabel, rfl⟩⟩, hc⟩
    · refine .inr ⟨hf, ?_⟩
      rintro ⟨body', ⟨hlen, heq | ⟨-, label', -, hlabel', heq⟩⟩, hc⟩
      · exact hk1 (heq ▸ List.prefix_append _ _)
      · obtain ⟨-, rfl⟩ := List.append_inj heq (hlabel.trans hlabel'.symm)
        exact hno ⟨hlen, hc⟩
  · rw [ofText_eq_bind, hg] at h
    obtain rfl : g = f := Except.error.inj h
    exact .inr ⟨hfam, fun ⟨body, hb, _⟩ => hno body hb⟩

/-- Key text is read as a key exactly if the key is compressed and the text is one of its written
forms: under a label of three characters that is asked for, or behind the second start with either
checksum. A refusal is about the alphabet exactly if label and lengths are right and the Base58 part
has a character outside it, and about the key in all other cases. So what is written under a label
can be read under it. -/
theorem ofText_accepts_written_forms (text : Text) (labels : List Text) :
    (∀ key, ofText text labels = .ok key ↔
      (key.length = 33 ∧ (key.head? = some 0x02 ∨ key.head? = some 0x03)) ∧
      ((∃ label ∈ labels, label.length = 3 ∧ text = label ++ KeyText.encode key []) ∨
        text = "PUB_K1_".toList ++ KeyText.encode key k1Suffix ∨
        text = "PUB_K1_".toList ++ KeyText.encode key [])) ∧
    (∀ f, ofText text labels = .error f →
      (f.family = .base58 ∨ f.family = .key) ∧
      (f.family = .base58 ↔ ∃ body, HasBody text labels body ∧ ∃ c ∈ body, c ∉ alphabet)) ∧
    (∀ key, key.length = 33 → key.head? = some 0x02 ∨ key.head? = some 0x03 →
      ∀ label ∈ labels, label.length = 3 →
        ∃ written, toText key label = .ok written ∧ ofText written labels = .ok key) := by
  refine ⟨fun key => ?_, fun f h => ?_, fun key hlen hhead label hmem hlabel => ?_⟩
  · rw [← isCompressed_iff]
    exact ofText_eq_ok
  · rcases family_of_ofText h with ⟨hf, hbody⟩ | ⟨hf, hno⟩
    · exact ⟨.inl hf, fun _ => hbody, fun _ => hf⟩
    · exact ⟨.inr hf, fun hb => (by simp [hf] at hb), fun hbody => absurd hbody hno⟩
  · have hwritten : toText key label = .ok (labelled label key) := by
      rw [toText, if_neg (not_not.2 hlen)]
      rfl
    exact ⟨_, hwritten,
      ofText_eq_ok.2 ⟨isCompressed_iff.2 ⟨hlen, hhead⟩, .inl ⟨label, hmem, hlabel, rfl⟩⟩⟩

/-- A key that is read as it was written, and a labelled text outside the alphabet. -/
theorem ofText_ones_and_zeros :
    (∃ written, toText (2 :: List.replicate 32 1) fio = .ok written ∧
      ofText written usualLabels = .ok (2 :: List.replicate 32 1)) ∧
    ∃ f, ofText (fio ++ List.replicate 50 '0') usualLabels = .error f ∧ f.family = .base58 := by
  refine ⟨(ofText_accepts_written_forms [] usualLabels).2.2 _ rfl (.inl rfl) fio (by decide) rfl,
    ?_⟩
  have hbody : HasBody (fio ++ List.replicate 50 '0') usualLabels (List.replicate 50 '0') :=
    ⟨rfl, .inr ⟨by decide, fio, by decide, rfl, rfl⟩⟩
  have hforms := ofText_accepts_written_forms (fio ++ List.replicate 50 '0') usualLabels
  rcases hread : ofText (fio ++ List.replicate 50 '0') usualLabels with f | key
  · exact ⟨f, rfl, (hforms.2.1 f hread).2.2 ⟨_, hbody, '0', by simp, by decide⟩⟩
  · have hnot : (ofText (fio ++ List.replicate 50 '0') usualLabels).isOk = false := by
      decide +kernel
    rw [hread] at hnot
    cases hnot

end Keyring.PublicKey
