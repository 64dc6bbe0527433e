import Keyring.Proofs.Agreement
import Keyring.Proofs.Key.Secret

/-!
# The lengths of written keys

How long a Base58 text is depends on the number that the bytes spell. The first byte of a written
key is the same for all keys, or one of two, and this is enough: the numbers that it leaves lie
between two multiples of one power of 58, whatever the key and the checksum behind it are.
-/

namespace Keyring

/-! ### Private keys -/

namespace SecretKey

variable {secret : Bytes} (h : secret.length = 32)

include h

/-- The version is the first byte of either form, and the flag makes one of them a byte longer. -/
theorem exists_toWif (compressed : Bool) {v w k : ℕ} (hv : 0 < v) (hw : w ≤ 58)
    (hlow : v * 58 ^ k ≤ version.toNat * 256 ^ (36 + compressed.toNat))
    (hhigh : (version.toNat + 1) * 256 ^ (36 + compressed.toNat) ≤ w * 58 ^ k) :
    ∃ d tail, v ≤ d ∧ d < w ∧ tail.length = k ∧
      toWif secret compressed = .ok (Base58.symbol d :: tail) := by
  have hlen : (secret ++ (if compressed then [flag] else []) ++
      Base58.Checked.checksum (wrapped secret compressed)).length = 36 + compressed.toNat := by
    rw [List.length_append, List.length_append, h, Base58.Checked.length_checksum]
    cases compressed <;> rfl
  obtain ⟨d, tail, hle, hlt, htail, htext⟩ := Base58.exists_encode_eq_cons hlen hv hw hlow hhigh
  exact ⟨d, tail, hle, hlt, htail, toWif_eq_ok.2 ⟨h, htext.symm⟩⟩

theorem exists_toWif_plain :
    ∃ tail : Text, tail.length = 50 ∧ toWif secret false = .ok ('5' :: tail) := by
  obtain ⟨d, tail, hle, hlt, htail, htext⟩ :=
    exists_toWif h false (v := 4) (w := 5) (k := 50) (by decide) (by decide) (by decide)
      (by decide)
  obtain rfl : d = 4 := by omega
  exact ⟨tail, htail, htext⟩

theorem exists_toWif_compressed : ∃ c, (c = 'K' ∨ c = 'L') ∧
    ∃ tail : Text, tail.length = 51 ∧ toWif secret true = .ok (c :: tail) := by
  obtain ⟨d, tail, hle, hlt, htail, htext⟩ :=
    exists_toWif h true (v := 18) (w := 20) (k := 51) (by decide) (by decide) (by decide)
      (by decide)
  have hd : d = 18 ∨ d = 19 := by omega
  rcases hd with rfl | rfl
  · exact ⟨'K', .inl rfl, tail, htail, htext⟩
  · exact ⟨'L', .inr rfl, tail, htail, htext⟩

end SecretKey

/-! ### All keys -/

/-- A private key has 51 characters in its plain form, the first of which is a 5, and 52 in its
compressed form, which begins with a K or an L. The Base58 part of a public key has 50 characters,
under any label and with any suffix in the checksum, so that its text under a label of three has 53.
-/
theorem written_keys_have_constant_length :
    (∀ secret : Bytes, secret.length = 32 →
      (∃ text, SecretKey.toWif secret false = .ok text ∧ text.length = 51 ∧ text.head? = some '5') ∧
      ∃ text, SecretKey.toWif secret true = .ok text ∧ text.length = 52 ∧
        (text.head? = some 'K' ∨ text.head? = some 'L')) ∧
    ∀ key : Bytes, key.length = 33 → key.head? = some 2 ∨ key.head? = some 3 →
      (∀ suffix, (Base58.KeyText.encode key suffix).length = 50) ∧
      ∀ label, ∃ text, PublicKey.toText key label = .ok text ∧
        text = label ++ Base58.KeyText.encode key [] ∧
        text.length = label.length + 50 ∧ (label.length = 3 → text.length = 53) := by
  refine ⟨fun secret h => ⟨?_, ?_⟩, fun key hlen hhead => ?_⟩
  · obtain ⟨tail, htail, htext⟩ := SecretKey.exists_toWif_plain h
    exact ⟨_, htext, by rw [List.length_cons, htail], rfl⟩
  · obtain ⟨c, hc, tail, htail, htext⟩ := SecretKey.exists_toWif_compressed h
    refine ⟨_, htext, by rw [List.length_cons, htail], ?_⟩
    rcases hc with rfl | rfl
    · exact .inl rfl
    · exact .inr rfl
  · have hbody : ∀ suffix, (Base58.KeyText.encode key suffix).length = 50 :=
      PublicKey.length_encode (PublicKey.isCompressed_iff.2 ⟨hlen, hhead⟩)
    refine ⟨hbody, fun label => ⟨_, PublicKey.toText_eq_ok hlen, rfl, ?_, fun hlabel => ?_⟩⟩
    · rw [PublicKey.labelled, List.length_append, hbody]
    · rw [PublicKey.labelled, List.length_append, hbody, hlabel]

/-- The least and the greatest private key of 32 bytes begin with different letters, and the least
compressed public key has the text length of all others. -/
theorem length_of_extreme_keys :
    (∃ text, SecretKey.toWif (Bytes.zeros 32) true = .ok text ∧ text.length = 52 ∧
      text.head? = some 'K') ∧
    (∃ text, SecretKey.toWif (List.replicate 32 255) true = .ok text ∧ text.length = 52 ∧
      text.head? = some 'L') ∧
    ∃ text, PublicKey.toText (2 :: Bytes.zeros 32) PublicKey.fio = .ok text ∧ text.length = 53 := by
  obtain ⟨hsecret, hkey⟩ := written_keys_have_constant_length
  refine ⟨?_, ?_, ?_⟩
  · obtain ⟨-, text, htext, hlen, -⟩ := hsecret (Bytes.zeros 32) rfl
    have hhead : (SecretKey.toWif (Bytes.zeros 32) true).map List.head? = .ok (some 'K') := by
      decide +kernel
    rw [htext] at hhead
    exact ⟨text, htext, hlen, Except.ok.inj hhead⟩
  · obtain ⟨-, text, htext, hlen, -⟩ := hsecret (List.replicate 32 255) rfl
    have hhead : (SecretKey.toWif (List.replicate 32 255) true).map List.head? =
        .ok (some 'L') := by decide +kernel
    rw [htext] at hhead
    exact ⟨text, htext, hlen, Except.ok.inj hhead⟩
  · obtain ⟨text, htext, -, -, hlen⟩ := (hkey (2 :: Bytes.zeros 32) rfl (.inl rfl)).2 PublicKey.fio
    exact ⟨text, htext, hlen rfl⟩

end Keyring
