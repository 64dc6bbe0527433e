import Keyring.Proofs.Envelope.Refusals
import Keyring.Proofs.Text.Base64
import Keyring.Proofs.Text.Hex

/-!
# Envelopes as text

An envelope has one text in either encoding, but more texts are read as it: hexadecimal text may
have gaps and capital letters, and Base64 text may have spare bits set and more fillers than it
needs. No text is read as bytes that its characters do not spell, and whatever is not read is
refused with one and the same fault.
-/

namespace Keyring.Envelope

open Text.Base64 (AgreeTo body spareBits)

section

variable {t encoding : Text} {e : Bytes}

theorem toText_hex (h : encoding = "hex".toList) (e : Bytes) :
    toText e encoding = Text.Hex.encode e := by
  have hnamed : Encoding.named encoding = .hex := if_pos h
  rw [toText, hnamed]

theorem toText_base64 (h : encoding ≠ "hex".toList) (e : Bytes) :
    toText e encoding = Text.Base64.encode e := by
  have hnamed : Encoding.named encoding = .base64 := if_neg h
  rw [toText, hnamed]

/-- The texts that are read as an envelope in hexadecimal text. -/
theorem ofText_hex (h : encoding = "hex".toList) :
    ofText t encoding = .ok e ↔ Text.Hex.Spells t e := by
  rw [ofText_eq_ok, bytesOf?, if_pos h, Text.Hex.decode?_eq_some_iff]

/-- The fillers of a text are counted by the symbols before them. -/
theorem ofText_base64 (h : encoding ≠ "hex".toList) : ofText t encoding = .ok e ↔
    AgreeTo (spareBits e.length) (body t) (body (toText e encoding)) ∧
      ∃ p, t = body t ++ List.replicate p '=' ∧ Text.Base64.padsFit (body t).length p := by
  rw [ofText_eq_ok, bytesOf?, if_neg h, toText_base64 h, Text.Base64.decode?_eq_some_iff,
    and_congr_right_iff]
  refine fun _ => ⟨fun hpads => ⟨_, Text.Base64.eq_body_append t, hpads⟩, ?_⟩
  rintro ⟨p, ht, hpads⟩
  have hlength : t.length = (body t).length + p := by
    have := congrArg List.length ht
    rwa [List.length_append, List.length_replicate] at this
  rwa [hlength, Nat.add_sub_cancel_left]

/-- There is one fault for all texts that are not read. -/
theorem ofText_eq_error_iff {f : Fault} : ofText t encoding = .error f ↔
    (∀ e, ofText t encoding ≠ .ok e) ∧ f = .envelopeText encoding := by
  simp only [ofText_eq]
  cases bytesOf? t encoding with
  | none => simp [eq_comm]
  | some e => simp

/-- Both encodings use ASCII only. -/
theorem ascii_of_ofText (h : ofText t encoding = .ok e) : ∀ c ∈ t, c.toNat < 128 := by
  by_cases hhex : encoding = "hex".toList
  · exact ((ofText_hex hhex).1 h).ascii
  · rw [ofText_eq_ok, bytesOf?, if_neg hhex] at h
    exact Text.Base64.ascii_of_decode? h

end

/-- An envelope is read from its text. Hexadecimal text is read exactly if it spells an envelope,
and in small letters without gaps it is the text of this envelope. Base64 text is read exactly if
its symbols agree with those of the text of an envelope in all but spare bits of the last one, and
fillers complete them: any number behind complete groups, and as many as it lacks behind an
incomplete group. All other text is refused with the one fault for text that is no envelope, and so
is all text with a character outside of ASCII. -/
theorem ofText_accepts_spellings (encoding : Text) :
    (∀ e, ofText (toText e encoding) encoding = .ok e) ∧
    (encoding = "hex".toList → ∀ t e,
      (ofText t encoding = .ok e ↔ Text.Hex.Spells t e) ∧
      (ofText t encoding = .ok e →
        Text.lower (t.filter fun c => !Text.Hex.isGap c) = toText e encoding)) ∧
    (encoding ≠ "hex".toList → ∀ t e,
      (ofText t encoding = .ok e ↔
        AgreeTo (spareBits e.length) (body t) (body (toText e encoding)) ∧
        ∃ p, t = body t ++ List.replicate p '=' ∧ ((body t).length % 4 = 0 ∧ (body t = [] → p = 0) ∨
          (body t).length % 4 = 2 ∧ p = 2 ∨ (body t).length % 4 = 3 ∧ p = 1)) ∧
      (ofText t encoding = .ok e → (body t).length = (body (toText e encoding)).length ∧
        (body t).dropLast = (body (toText e encoding)).dropLast)) ∧
    (∀ t f, ofText t encoding = .error f ↔
      (∀ e, ofText t encoding ≠ .ok e) ∧ f = .envelopeText encoding ∧
      f.family = .envelope) ∧
    (∀ t, (∃ c ∈ t, 128 ≤ c.toNat) → ofText t encoding = .error (.envelopeText encoding)) := by
  refine ⟨fun e => ofText_toText e encoding, fun h t e => ⟨ofText_hex h, fun hread => ?_⟩,
    fun h t e => ⟨?_, fun hread => ?_⟩, fun t f => ?_, fun t ⟨c, hc, hascii⟩ => ?_⟩
  · rw [toText_hex h]
    exact ((ofText_hex h).1 hread).lower_filter
  · rw [ofText_base64 h]
    simp only [Text.Base64.padsFit_iff, List.length_eq_zero_iff]
  · obtain ⟨hagree, -⟩ := (ofText_base64 h).1 hread
    exact ⟨hagree.length_eq, hagree.dropLast_eq⟩
  · rw [ofText_eq_error_iff, and_congr_right_iff]
    exact fun _ => ⟨fun hf => ⟨hf, hf ▸ rfl⟩, And.left⟩
  · refine ofText_eq_error_iff.2 ⟨fun e hread => ?_, rfl⟩
    exact absurd (ascii_of_ofText hread c hc) (Nat.not_lt.2 hascii)

/-- Hexadecimal text with gaps and a capital letter, Base64 text with spare bits set and with
fillers behind a complete group, and an incomplete group without one of its fillers. -/
theorem ofText_lax_spellings :
    (ofText "\t0A ff\n".toList "hex".toList = .ok [0x0a, 0xff] ∧
      Text.lower ("\t0A ff\n".toList.filter fun c => !Text.Hex.isGap c) =
        toText [0x0a, 0xff] "hex".toList) ∧
    (ofText "QR==".toList "base64".toList = .ok [0x41] ∧
      toText [0x41] "base64".toList = "QQ==".toList ∧
      AgreeTo 4 "QR".toList "QQ".toList) ∧
    ofText "AAAA=".toList "base64".toList = .ok [0, 0, 0] ∧
    ofText "QQ=".toList "base64".toList = .error (.envelopeText "base64".toList) ∧
    ofText "QQ=é".toList "base64".toList = .error (.envelopeText "base64".toList) := by
  obtain ⟨-, hhex, -⟩ := ofText_accepts_spellings "hex".toList
  obtain ⟨-, -, hbase64, herror, hascii⟩ := ofText_accepts_spellings "base64".toList
  have hname : "base64".toList ≠ "hex".toList := by decide
  have hspelled : ofText "\t0A ff\n".toList "hex".toList = .ok [0x0a, 0xff] := by decide +kernel
  have hspare : ofText "QR==".toList "base64".toList = .ok [0x41] := by decide +kernel
  refine ⟨⟨hspelled, (hhex rfl _ _).2 hspelled⟩, ⟨hspare, by decide +kernel, ?_⟩, ?_, ?_, ?_⟩
  · exact ((hbase64 hname _ _).1.1 hspare).1
  · have hbody : body "AAAA=".toList = "AAA".toList ++ [Text.Base64.symbol 0] := by decide +kernel
    have hwritten : body (toText [0, 0, 0] "base64".toList) =
        "AAA".toList ++ [Text.Base64.symbol (Text.Base64.clear (spareBits 3) 0)] := by
      decide +kernel
    refine (hbase64 hname _ _).1.2 ⟨?_, 1,
      by decide +kernel, .inl ⟨by decide +kernel, by decide +kernel⟩⟩
    rw [hbody, hwritten]
    exact .last _ (by decide)
  · refine (herror _ _).2 ⟨fun e hread => ?_, rfl, rfl⟩
    obtain ⟨-, p, ht, hshape⟩ := (hbase64 hname _ _).1.1 hread
    have hbody : body "QQ=".toList = "QQ".toList := by decide +kernel
    rw [hbody] at ht hshape
    obtain rfl : p = 1 := by simpa using congrArg List.length ht
    exact absurd hshape (by decide)
  · exact hascii _ ⟨'é', by decide, by decide⟩

end Keyring.Envelope
