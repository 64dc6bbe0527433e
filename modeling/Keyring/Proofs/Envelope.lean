import Keyring.Envelope
import Keyring.Proofs.Cipher.Chaining
import Keyring.Proofs.Outcome
import Keyring.Proofs.Text.Base64

/-!
# Decryption accepts what encryption produces, and nothing else

An envelope is cut from both ends: the initial block in front, the tag at the back.
`Parts.ofBytes_eq_ok` says what the parts of an envelope are and `Parts.message_eq_ok` which parts
open to a message. Together they make opening the exact inverse of closing (`opens_iff`): each
message has one envelope for each initial block, and every other byte string is refused.
-/

namespace Keyring.Envelope

open Cipher

/-! ### Closing -/

/-- The encrypted message of an envelope. -/
def ciphertextOf (keys : Keys) (iv msg : Bytes) : Bytes :=
  Chaining.encrypt (Aes.encrypt (Aes.schedule keys.cipher)) iv (Padding.fill msg)

theorem close_eq (keys : Keys) (iv msg : Bytes) :
    close keys iv msg = iv ++ ciphertextOf keys iv msg ++
      keys.tag (iv ++ ciphertextOf keys iv msg) := rfl

@[simp] theorem length_tag (keys : Keys) (body : Bytes) : (keys.tag body).length = tagSize :=
  Hash.length_hmacSha256 _ _

theorem length_ciphertextOf (keys : Keys) (iv msg : Bytes) :
    (ciphertextOf keys iv msg).length = blockSize * (msg.length / blockSize + 1) := by
  rw [ciphertextOf, Chaining.length_encrypt _ _ (Padding.dvd_length_fill msg), Padding.length_fill]

/-- The length of an envelope follows from the length of its message. -/
theorem length_close (keys : Keys) {iv : Bytes} (h : iv.length = ivSize) (msg : Bytes) :
    (close keys iv msg).length = ivSize + blockSize * (msg.length / blockSize + 1) + tagSize := by
  rw [close_eq, List.length_append, List.length_append, h, length_ciphertextOf, length_tag]

/-- An envelope begins with its initial block. -/
theorem take_close (keys : Keys) {iv : Bytes} (h : iv.length = ivSize) (msg : Bytes) :
    (close keys iv msg).take ivSize = iv := by
  rw [close_eq, List.append_assoc, ← h, List.take_left]

/-! ### The parts of an envelope -/

/-- A byte string has parts exactly if it is an initial block, at least one whole block and a tag.
-/
theorem Parts.ofBytes_eq_ok {e : Bytes} {p : Parts} :
    Parts.ofBytes e = .ok p ↔ e = p.iv ++ p.ciphertext ++ p.tag ∧ p.iv.length = ivSize ∧
      p.tag.length = tagSize ∧ blockSize ∣ p.ciphertext.length ∧
        blockSize ≤ p.ciphertext.length := by
  have hmin : minSize = ivSize + blockSize + tagSize := rfl
  simp only [Parts.ofBytes, Outcome.throw_eq, Outcome.error_bind, Outcome.pure_eq,
    Outcome.check_eq_ok, Except.ok.injEq]
  constructor
  · rintro ⟨hlen, hmod, rfl⟩
    have hsize : ((e.drop ivSize).take (e.length - ivSize - tagSize)).length =
        e.length - ivSize - tagSize := by
      rw [List.length_take, List.length_drop]
      omega
    refine ⟨?_,
      by rw [List.length_take]; omega, by rw [List.length_drop, List.length_drop]; omega, ?_, ?_⟩
    · rw [List.append_assoc, List.take_append_drop, List.take_append_drop]
    · rw [hsize]
      exact Nat.dvd_of_mod_eq_zero (not_not.1 hmod)
    · rw [hsize]
      omega
  · obtain ⟨iv, c, tag⟩ := p
    rintro ⟨rfl, hiv, htag, hdvd, hle⟩
    dsimp only at hiv htag hdvd hle
    have hsize : (iv ++ c ++ tag).length - ivSize - tagSize = c.length := by
      simp only [List.length_append]
      omega
    have hdrop : (iv ++ c ++ tag).drop ivSize = c ++ tag := by
      rw [← hiv, List.append_assoc, List.drop_left]
    have htake : (iv ++ c ++ tag).take ivSize = iv := by
      rw [← hiv, List.append_assoc, List.take_left]
    rw [hsize, hdrop, htake, List.take_left, List.drop_left]
    refine ⟨?_, not_not.2 (Nat.mod_eq_zero_of_dvd hdvd), rfl⟩
    simp only [List.length_append] at hsize ⊢
    omega

/-- What the ciphertext is decrypted to, filling included. -/
def Parts.filled (p : Parts) (keys : Keys) : Bytes :=
  Chaining.decrypt (Aes.decrypt (Aes.schedule keys.cipher)) p.iv p.ciphertext

section Filled

variable {p : Parts} (h : blockSize ∣ p.ciphertext.length) {keys : Keys} {msg : Bytes}

include h

theorem Parts.strip?_filled :
    Padding.strip? (p.filled keys) = some msg ↔ p.filled keys = Padding.fill msg :=
  Padding.strip?_eq_some_iff (by rwa [filled, Chaining.length_decrypt _ _ h])

theorem Parts.filled_eq_fill :
    p.filled keys = Padding.fill msg ↔ p.ciphertext = ciphertextOf keys p.iv msg := by
  rw [filled, ciphertextOf]
  constructor
  · intro hd
    rw [← hd, Chaining.encrypt_decrypt (Aes.encrypt_decrypt _) _ h]
  · intro hc
    rw [hc, Chaining.decrypt_encrypt (Aes.decrypt_encrypt _) _ (Padding.dvd_length_fill msg)]

/-- Parts open to a message exactly if the tag verifies and the ciphertext is that of the message.
-/
theorem Parts.message_eq_ok : p.message keys = .ok msg ↔
    p.ciphertext = ciphertextOf keys p.iv msg ∧ p.tag = keys.tag (p.iv ++ p.ciphertext) := by
  rw [← Parts.filled_eq_fill h, ← Parts.strip?_filled h, eq_comm (a := p.tag), and_comm,
    Parts.message]
  simp only [Outcome.throw_eq, Outcome.error_bind, Outcome.check_eq_ok, not_not, Parts.filled]
  cases
    Padding.strip? (Chaining.decrypt (Aes.decrypt (Aes.schedule keys.cipher)) p.iv p.ciphertext) <;>
    simp

end Filled

/-! ### Opening -/

/-- A byte string opens to a message exactly if it is the envelope of that message for its own first
bytes. -/
theorem opens_iff {keys : Keys} {e msg : Bytes} :
    (∃ p, Parts.ofBytes e = .ok p ∧ p.message keys = .ok msg) ↔
      (e.take ivSize).length = ivSize ∧ e = close keys (e.take ivSize) msg := by
  constructor
  · rintro ⟨p, hp, hmsg⟩
    obtain ⟨he, hiv, -, hdvd, -⟩ := Parts.ofBytes_eq_ok.1 hp
    obtain ⟨hc, htag⟩ := (Parts.message_eq_ok hdvd).1 hmsg
    have htake : e.take ivSize = p.iv := by rw [he, ← hiv, List.append_assoc, List.take_left]
    rw [htake, close_eq, ← hc, ← htag]
    exact ⟨hiv, he⟩
  · generalize e.take ivSize = iv
    rintro ⟨hiv, he⟩
    have hc : (ciphertextOf keys iv msg).length = blockSize * (msg.length / blockSize + 1) :=
      length_ciphertextOf keys iv msg
    let p : Parts := ⟨iv, ciphertextOf keys iv msg, keys.tag (iv ++ ciphertextOf keys iv msg)⟩
    have hdvd : blockSize ∣ p.ciphertext.length := ⟨_, hc⟩
    have hle : blockSize ≤ p.ciphertext.length := hc ▸ Nat.le_mul_of_pos_right _ (Nat.succ_pos _)
    have hp : Parts.ofBytes e = .ok p := Parts.ofBytes_eq_ok.2 ⟨he, hiv, length_tag _ _, hdvd, hle⟩
    exact ⟨p, hp, (Parts.message_eq_ok hdvd).2 ⟨rfl, rfl⟩⟩

variable {wif publicText : Text} {e iv msg : Bytes}

/-- When there is an envelope, and which one. -/
theorem encrypt_eq_ok : encrypt wif publicText msg iv = .ok e ↔
    ∃ secret, sharedSecret wif publicText = .ok secret ∧ iv.length = ivSize ∧
      e = close (Keys.ofSecret secret) iv msg := by
  simp only [encrypt, Outcome.throw_eq, Outcome.error_bind, Outcome.check_eq_ok, Outcome.bind_eq_ok,
    Outcome.pure_eq, Except.ok.injEq, not_not]
  constructor
  · rintro ⟨hiv, secret, hs, rfl⟩
    exact ⟨secret, hs, hiv, rfl⟩
  · rintro ⟨secret, hs, hiv, rfl⟩
    exact ⟨hiv, secret, hs, rfl⟩

/-- Which envelopes are opened: those that would be closed around the message. -/
theorem decrypt_eq_ok : decrypt wif publicText e = .ok msg ↔
    ∃ secret, sharedSecret wif publicText = .ok secret ∧ (e.take ivSize).length = ivSize ∧
      e = close (Keys.ofSecret secret) (e.take ivSize) msg := by
  simp only [decrypt, Outcome.bind_eq_ok, ← opens_iff]
  constructor
  · rintro ⟨p, hp, secret, hs, hmsg⟩
    exact ⟨secret, hs, p, hp, hmsg⟩
  · rintro ⟨secret, hs, p, hp, hmsg⟩
    exact ⟨p, hp, secret, hs, hmsg⟩

theorem decrypt_close {secret : Bytes} (hsecret : sharedSecret wif publicText = .ok secret)
    (hiv : iv.length = ivSize) (msg : Bytes) :
    decrypt wif publicText (close (Keys.ofSecret secret) iv msg) = .ok msg := by
  have htake : (close (Keys.ofSecret secret) iv msg).take ivSize = iv := take_close _ hiv msg
  refine decrypt_eq_ok.2 ⟨secret, hsecret, ?_, ?_⟩
  · rw [htake]
    exact hiv
  · rw [htake]

/-- Decryption yields a message exactly for the envelope that encryption makes of it with the same
initial block; this envelope has room for one block more than there are whole blocks in the message.
Where the parties share a secret, every message of every length can be encrypted and is decrypted
again. -/
theorem decrypt_eq_ok_iff_encrypt (wif publicText : Text) :
    (∀ e msg, decrypt wif publicText e = .ok msg ↔ encrypt wif publicText msg (e.take 16) = .ok e) ∧
    (∀ e msg, decrypt wif publicText e = .ok msg →
      e.length = 16 + 16 * (msg.length / 16 + 1) + 32) ∧
    (∀ secret, sharedSecret wif publicText = .ok secret → ∀ iv msg, iv.length = 16 →
      ∃ e, encrypt wif publicText msg iv = .ok e ∧ e.take 16 = iv ∧
        decrypt wif publicText e = .ok msg) := by
  have hiff : ∀ e msg, decrypt wif publicText e = .ok msg ↔
      encrypt wif publicText msg (e.take 16) = .ok e := fun e msg => by
    rw [decrypt_eq_ok, encrypt_eq_ok, ivSize]
  refine ⟨hiff, fun e msg h => ?_, fun secret hs iv msg hiv => ?_⟩
  · obtain ⟨secret, -, hiv, he⟩ := decrypt_eq_ok.1 h
    rw [he]
    exact length_close _ hiv msg
  · have henc : encrypt wif publicText msg iv = .ok (close (Keys.ofSecret secret) iv msg) :=
      encrypt_eq_ok.2 ⟨secret, hs, hiv, rfl⟩
    have htake : (close (Keys.ofSecret secret) iv msg).take 16 = iv := take_close _ hiv msg
    refine ⟨_, henc, htake, (hiff _ _).2 ?_⟩
    rw [htake]
    exact henc

/-- The holder of the private key 1 reads a message again that it wrote for the holder of another
key. -/
theorem decrypt_encrypt_own_message :
    ∃ e, encrypt "5HpHagT65TZzG1PH3CSu63k8DbpvD8s5ip4nEB3kEsreAnchuDf".toList
        "EOS6MRyAjQq8ud7hVNYcfnVPJqcVpscN5So8BhtHuGYqET5GDW5CV".toList [0x66, 0x69, 0x6f]
          (Bytes.zeros 16) = .ok e ∧ e.take 16 = Bytes.zeros 16 ∧
      decrypt "5HpHagT65TZzG1PH3CSu63k8DbpvD8s5ip4nEB3kEsreAnchuDf".toList
        "EOS6MRyAjQq8ud7hVNYcfnVPJqcVpscN5So8BhtHuGYqET5GDW5CV".toList e = .ok [0x66, 0x69, 0x6f] ∧
      e.length = 64 := by
  have hok : (sharedSecret "5HpHagT65TZzG1PH3CSu63k8DbpvD8s5ip4nEB3kEsreAnchuDf".toList
      "EOS6MRyAjQq8ud7hVNYcfnVPJqcVpscN5So8BhtHuGYqET5GDW5CV".toList).isOk = true := by
    decide +kernel
  obtain ⟨secret, hs⟩ := Outcome.exists_of_isOk hok
  obtain ⟨e, henc, htake, hdec⟩ :=
    (decrypt_eq_ok_iff_encrypt _ _).2.2 secret hs (Bytes.zeros 16) _ rfl
  exact ⟨e, henc, htake, hdec, (decrypt_eq_ok_iff_encrypt _ _).2.1 e _ hdec⟩

/-! ### Envelopes as text -/

/-- An envelope is read back from its text. -/
theorem ofText_toText (e : Bytes) (encoding : Text) :
    ofText (toText e encoding) encoding = .ok e := by
  rw [ofText, toText]
  cases Encoding.named encoding with
  | hex => simp only [Text.Hex.decode?_encode]
  | base64 => simp only [Text.Base64.decode?_encode]

end Keyring.Envelope
