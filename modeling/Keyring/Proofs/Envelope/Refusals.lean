import Keyring.Proofs.Agreement
import Keyring.Proofs.Curve.Order

/-!
# How opening an envelope ends

Each step of opening an envelope is followed by a value or by a fault of its own: the text, the two
lengths, the private key, the public key, the point, the tag and the padding. The lemmas say for
each step which it is; nothing else is looked at by the step.
-/

namespace Keyring.Envelope

open Cipher

/-! ### Text -/

/-- The bytes that a text stands for in the encoding of that name. -/
def bytesOf? (t encoding : Text) : Option Bytes :=
  if encoding = "hex".toList then Text.Hex.decode? t else Text.Base64.decode? t

theorem ofText_eq (t encoding : Text) :
    ofText t encoding = (bytesOf? t encoding).elim (.error (.envelopeText encoding)) .ok := by
  by_cases h : encoding = "hex".toList
  · have hnamed : Encoding.named encoding = .hex := if_pos h
    simp only [ofText, bytesOf?, hnamed, if_pos h]
    cases Text.Hex.decode? t <;> rfl
  · have hnamed : Encoding.named encoding = .base64 := if_neg h
    simp only [ofText, bytesOf?, hnamed, if_neg h]
    cases Text.Base64.decode? t <;> rfl

theorem ofText_eq_ok {t encoding : Text} {e : Bytes} :
    ofText t encoding = .ok e ↔ bytesOf? t encoding = some e := by
  rw [ofText_eq]
  cases bytesOf? t encoding <;> simp

/-! ### Lengths -/

/-- The parts are measured without the initial block and the tag, 48 bytes in all. -/
theorem Parts.ofBytes_eq_error {e : Bytes} {f : Fault} : Parts.ofBytes e = .error f ↔
    (e.length < 64 ∧ f = .envelopeTooShort e.length) ∨
      (64 ≤ e.length ∧ ¬16 ∣ e.length - 48 ∧ f = .envelopeMisaligned (e.length - 48)) := by
  have hmin : minSize = 64 := rfl
  have hsize : e.length - ivSize - tagSize = e.length - 48 := Nat.sub_sub _ _ _
  have hdvd : (e.length - 48) % blockSize ≠ 0 ↔ ¬16 ∣ e.length - 48 :=
    (Nat.dvd_iff_mod_eq_zero ..).not.symm
  simp only [Parts.ofBytes, Outcome.throw_eq, Outcome.error_bind, Outcome.pure_eq,
    Outcome.check_eq_error, hmin, hsize, hdvd, Nat.not_lt, reduceCtorEq, and_false, or_false,
    eq_comm (b := f)]

/-- An envelope of a fitting length is cut into parts. -/
theorem Parts.exists_ofBytes {e : Bytes} (hlen : 64 ≤ e.length) (hdvd : 16 ∣ e.length - 48) :
    ∃ p, Parts.ofBytes e = .ok p := by
  cases hcut : Parts.ofBytes e with
  | ok p => exact ⟨p, rfl⟩
  | error f =>
    rcases Parts.ofBytes_eq_error.1 hcut with ⟨hshort, -⟩ | ⟨-, hnot, -⟩
    · exact absurd hshort (Nat.not_lt.2 hlen)
    · exact absurd hdvd hnot

/-! ### Keys -/

section Keys

variable {wif publicText : Text} {k : ℕ} {key : Bytes} {f : Fault}

theorem sharedSecret_of_secret (h : SecretKey.ofWif wif >>= SecretKey.scalar = .error f) :
    sharedSecret wif publicText = .error f := by
  rw [sharedSecret]
  rcases Outcome.bind_eq_error.1 h with hwif | ⟨secret, hwif, hk⟩
  · rw [hwif]
    rfl
  · rw [hwif, Outcome.ok_bind, hk]
    rfl

variable (hk : SecretKey.ofWif wif >>= SecretKey.scalar = .ok k)

include hk

theorem sharedSecret_of_scalar : sharedSecret wif publicText =
    PublicKey.ofText publicText PublicKey.usualLabels >>= fun key =>
      match Curve.Point.decompress? key with
      | some p => .ok (Hash.sha512 (p.multiple k).xBytes)
      | none => .error .offCurve := by
  obtain ⟨secret, hwif, hscalar⟩ := Outcome.bind_eq_ok.1 hk
  rw [sharedSecret, hwif, Outcome.ok_bind, hscalar]
  rfl

theorem sharedSecret_of_publicText
    (h : PublicKey.ofText publicText PublicKey.usualLabels = .error f) :
    sharedSecret wif publicText = .error f := by
  rw [sharedSecret_of_scalar hk, h]
  rfl

theorem sharedSecret_of_offCurve
    (hkey : PublicKey.ofText publicText PublicKey.usualLabels = .ok key)
    (h : Curve.Point.decompress? key = none) : sharedSecret wif publicText = .error .offCurve := by
  rw [sharedSecret_of_scalar hk, hkey, Outcome.ok_bind, h]

theorem sharedSecret_of_point (hkey : PublicKey.ofText publicText PublicKey.usualLabels = .ok key)
    {p : Curve.Point} (h : Curve.Point.decompress? key = some p) :
    sharedSecret wif publicText = .ok (Hash.sha512 (p.multiple k).xBytes) := by
  rw [sharedSecret_of_scalar hk, hkey, Outcome.ok_bind, h]

omit hk in
/-- A secret takes a usable private key and a point of the curve. -/
theorem sharedSecret_eq_ok {secret : Bytes} : sharedSecret wif publicText = .ok secret ↔
    ∃ k key p, SecretKey.ofWif wif >>= SecretKey.scalar = .ok k ∧
      PublicKey.ofText publicText PublicKey.usualLabels = .ok key ∧
        Curve.Point.decompress? key = some p ∧
        secret = Hash.sha512 (p.multiple k).xBytes := by
  constructor
  · intro h
    cases hk : SecretKey.ofWif wif >>= SecretKey.scalar with
    | error f =>
      rw [sharedSecret_of_secret hk] at h
      exact (nomatch h)
    | ok k =>
      rw [sharedSecret_of_scalar hk] at h
      obtain ⟨key, hkey, h⟩ := Outcome.bind_eq_ok.1 h
      cases hp : Curve.Point.decompress? key with
      | none =>
        rw [hp] at h
        exact (nomatch h)
      | some p =>
        rw [hp, Except.ok.injEq] at h
        exact ⟨k, key, p, rfl, hkey, hp, h.symm⟩
  · rintro ⟨k, key, p, hk, hkey, hp, rfl⟩
    exact sharedSecret_of_point hk hkey hp

end Keys

/-! ### Tag and padding -/

section Message

variable {p : Parts} {keys : Keys}

/-- Nothing is decrypted where the tag does not match. -/
theorem Parts.message_of_mismatch (h : p.tag ≠ keys.tag (p.iv ++ p.ciphertext)) :
    p.message keys = .error .tagMismatch :=
  if_pos h.symm

variable (htag : p.tag = keys.tag (p.iv ++ p.ciphertext)) (hdvd : 16 ∣ p.ciphertext.length)

include htag

theorem Parts.message_of_match : p.message keys =
    match Padding.strip? (p.filled keys) with
    | some msg => .ok msg
    | none => .error .badPadding :=
  if_neg (not_not.2 htag.symm)

include hdvd

theorem Parts.message_of_unfilled (h : ∀ msg, p.filled keys ≠ Padding.fill msg) :
    p.message keys = .error .badPadding := by
  have hnone : Padding.strip? (p.filled keys) = none :=
    Option.eq_none_iff_forall_ne_some.2 fun msg hs => h msg ((Parts.strip?_filled hdvd).1 hs)
  rw [Parts.message_of_match htag, hnone]

end Message

end Keyring.Envelope
