import Keyring.Account
import Keyring.Proofs.Curve.Point
import Keyring.Proofs.Envelope
import Keyring.Proofs.Key.Public

/-!
# Two key pairs agree on a secret

The public key text of a private key is that of a scalar times the base point, and it is read back
as this point. So the secret of two key pairs comes from the product of their scalars, on either
side.
-/

namespace Keyring

/-! ### Public keys of private keys -/

theorem SecretKey.scalar_eq_ok {secret : Bytes} {k : ℕ} :
    scalar secret = .ok k ↔ secret.length = 32 ∧ secret.toNat = k ∧ 0 < k ∧ k < Curve.order := by
  rw [← scalar?_eq_some, scalar]
  cases scalar? secret <;> simp

theorem SecretKey.scalar_eq_error {secret : Bytes} {f : Fault} (h : scalar secret = .error f) :
    f = .secretRange := by
  rw [scalar] at h
  cases hs : scalar? secret with
  | none =>
    rw [hs] at h
    exact (Except.error.inj h).symm
  | some k =>
    rw [hs] at h
    exact (nomatch h)

/-- The public key of a scalar is that multiple of the base point. -/
theorem SecretKey.publicKey_eq_ok {secret key : Bytes} : publicKey secret = .ok key ↔
    ∃ k, scalar secret = .ok k ∧ key = (Curve.base.multiple k).compress := by
  simp only [publicKey, Outcome.bind_eq_ok, Outcome.pure_eq, Except.ok.injEq, eq_comm (a := key)]

/-- A public key is that of a usable scalar. -/
theorem SecretKey.exists_multiple {secret key : Bytes} (h : publicKey secret = .ok key) :
    ∃ k, (0 < k ∧ k < Curve.order) ∧ key = (Curve.base.multiple k).compress := by
  obtain ⟨k, hk, rfl⟩ := publicKey_eq_ok.1 h
  obtain ⟨-, -, hrange⟩ := scalar_eq_ok.1 hk
  exact ⟨k, hrange, rfl⟩

namespace PublicKey

variable {label curveLabel text : Text}

theorem isCompressed_compress {p : Curve.Point} (h : p ≠ .neutral) : isCompressed p.compress := by
  refine isCompressed_iff.2 ⟨Curve.Point.length_compress p, ?_⟩
  cases p with
  | neutral => exact absurd rfl h
  | affine x y =>
    rw [Curve.Point.compress, Curve.marker]
    cases y.isOdd <;> simp

theorem isCompressed_multiple {k : ℕ} (h : 0 < k ∧ k < Curve.order) :
    isCompressed (Curve.base.multiple k).compress :=
  isCompressed_compress (Curve.multiple_base_ne_neutral h)

theorem toText_eq_ok {key : Bytes} (h : key.length = 33) :
    toText key label = .ok (labelled label key) := by
  rw [toText, if_neg (not_not.2 h)]
  rfl

/-- A written key can be given any label of three characters. -/
theorem relabel_eq_ok {key : Bytes} (hkey : isCompressed key)
    (hcurve : curveLabel.length = labelLength) :
    relabel (labelled curveLabel key) label = .ok text ↔
      label.length = labelLength ∧ text = labelled label key := by
  have hlen : (labelled curveLabel key).length = textLength := by
    rw [labelled, List.length_append, hcurve, length_encode hkey]
    rfl
  have hdrop : (labelled curveLabel key).drop labelLength = Base58.KeyText.encode key [] := by
    rw [labelled, ← hcurve, List.drop_left]
  simp only [relabel, Outcome.throw_eq, Outcome.error_bind, Outcome.check_eq_ok, not_not,
    Outcome.pure_eq, Except.ok.injEq, hlen, hdrop, true_and, eq_comm (a := text)]
  rfl

/-- No check on the way over the first label can fail, and this label does not show. -/
theorem ofWif_eq_bind (hlabel : label.length = labelLength)
    (hcurve : curveLabel.length = labelLength) (wif : Text) :
    ofWif wif label curveLabel = SecretKey.ofWif wif >>= fun secret =>
      SecretKey.publicKey secret >>= fun key => toText key label := by
  refine congrArg _ (funext fun secret => ?_)
  cases hkey : SecretKey.publicKey secret with
  | error f => rfl
  | ok key =>
    obtain ⟨k, hrange, rfl⟩ := SecretKey.exists_multiple hkey
    simp only [Outcome.ok_bind, toText_eq_ok (Curve.Point.length_compress _)]
    exact (relabel_eq_ok (isCompressed_multiple hrange) hcurve).2 ⟨hlabel, rfl⟩

/-- Which private keys have a public key text, and the text. -/
theorem ofWif_eq_ok {wif : Text} (hcurve : curveLabel.length = labelLength) :
    ofWif wif label curveLabel = .ok text ↔ ∃ secret k, SecretKey.ofWif wif = .ok secret ∧
      SecretKey.scalar secret = .ok k ∧ label.length = labelLength ∧
        text = labelled label (Curve.base.multiple k).compress := by
  simp only [ofWif, Outcome.bind_eq_ok, SecretKey.publicKey_eq_ok]
  constructor
  · rintro ⟨secret, hsecret, key, ⟨k, hk, rfl⟩, written, hwritten, htext⟩
    rw [toText_eq_ok (Curve.Point.length_compress _), Except.ok.injEq] at hwritten
    subst hwritten
    obtain ⟨-, -, hrange⟩ := SecretKey.scalar_eq_ok.1 hk
    exact ⟨secret, k, hsecret, hk, (relabel_eq_ok (isCompressed_multiple hrange) hcurve).1 htext⟩
  · rintro ⟨secret, k, hsecret, hk, htext⟩
    obtain ⟨-, -, hrange⟩ := SecretKey.scalar_eq_ok.1 hk
    exact ⟨secret, hsecret, _, ⟨k, hk, rfl⟩, _, toText_eq_ok (Curve.Point.length_compress _),
      (relabel_eq_ok (isCompressed_multiple hrange) hcurve).2 htext⟩

/-- The text of a usable scalar is read back as its point. -/
theorem ofText_labelled_fio {k : ℕ} (h : 0 < k ∧ k < Curve.order) :
    ofText (labelled fio (Curve.base.multiple k).compress) usualLabels =
      .ok (Curve.base.multiple k).compress :=
  ofText_labelled (isCompressed_multiple h) rfl (by simp [usualLabels])

/-- Behind a public key text of a private key there is a usable scalar. -/
theorem exists_scalar {wif : Text} (h : ofWif wif fio eos = .ok text) :
    ∃ k, SecretKey.ofWif wif >>= SecretKey.scalar = .ok k ∧ (0 < k ∧ k < Curve.order) ∧
      text = labelled fio (Curve.base.multiple k).compress := by
  obtain ⟨secret, k, hsecret, hk, -, rfl⟩ := (ofWif_eq_ok rfl).1 h
  obtain ⟨-, -, hrange⟩ := SecretKey.scalar_eq_ok.1 hk
  exact ⟨k, Outcome.bind_eq_ok.2 ⟨secret, hsecret, hk⟩, hrange, rfl⟩

end PublicKey

/-! ### The secret of two key pairs -/

namespace Envelope

/-- The holder of a scalar and a public key text of another share the product of the two scalars. -/
theorem sharedSecret_of_scalars {wif : Text} {a b : ℕ}
    (hwif : SecretKey.ofWif wif >>= SecretKey.scalar = .ok a) (hb : 0 < b ∧ b < Curve.order) :
    sharedSecret wif (PublicKey.labelled PublicKey.fio (Curve.base.multiple b).compress) =
      .ok (Hash.sha512 (Curve.base.multiple (a * b)).xBytes) := by
  obtain ⟨secret, hsecret, ha⟩ := Outcome.bind_eq_ok.1 hwif
  have hpoint :=
    Curve.Point.decompress?_compress (Curve.Point.onCurve_multiple Curve.onCurve_base b)
    (Curve.multiple_base_ne_neutral hb)
  rw [sharedSecret, hsecret, Outcome.ok_bind, ha, Outcome.ok_bind, PublicKey.ofText_labelled_fio hb,
    Outcome.ok_bind, hpoint, ← Curve.Point.multiple_multiple Curve.onCurve_base]
  rfl

section KeyPairs

variable {a b pa pb : Text}

/-- The two parties share the same proper point of the curve, each with its own private key and the
public key of the other. -/
theorem exists_sharedSecret (ha : PublicKey.ofWif a PublicKey.fio PublicKey.eos = .ok pa)
    (hb : PublicKey.ofWif b PublicKey.fio PublicKey.eos = .ok pb) :
    ∃ p : Curve.Point, p ≠ .neutral ∧ sharedSecret a pb = .ok (Hash.sha512 p.xBytes) ∧
      sharedSecret b pa = .ok (Hash.sha512 p.xBytes) := by
  obtain ⟨j, hj, hjrange, rfl⟩ := PublicKey.exists_scalar ha
  obtain ⟨k, hk, hkrange, rfl⟩ := PublicKey.exists_scalar hb
  refine ⟨Curve.base.multiple (j * k), ?_, ?_, ?_⟩
  · exact Curve.multiple_mul_base_ne_neutral hjrange hkrange
  · exact sharedSecret_of_scalars hj hkrange
  · rw [sharedSecret_of_scalars hk hjrange, Nat.mul_comm]

/-- Whoever has private keys with public key texts shares 64 bytes, computed on either side. So both
make the same envelope of a message and an initial block, and both open it. -/
theorem encrypt_same_on_both_sides (ha : PublicKey.ofWif a PublicKey.fio PublicKey.eos = .ok pa)
    (hb : PublicKey.ofWif b PublicKey.fio PublicKey.eos = .ok pb) :
    ∃ secret : Bytes, secret.length = 64 ∧
      sharedSecret a pb = .ok secret ∧ sharedSecret b pa = .ok secret ∧
      ∀ msg iv : Bytes, iv.length = 16 → ∃ e,
        encrypt a pb msg iv = .ok e ∧ encrypt b pa msg iv = .ok e ∧
        decrypt a pb e = .ok msg ∧ decrypt b pa e = .ok msg := by
  obtain ⟨p, -, hsa, hsb⟩ := exists_sharedSecret ha hb
  refine ⟨Hash.sha512 p.xBytes, Hash.length_sha512 _, hsa, hsb, ?_⟩
  intro msg iv hiv
  refine ⟨close (Keys.ofSecret (Hash.sha512 p.xBytes)) iv msg, ?_, ?_, ?_, ?_⟩
  · exact encrypt_eq_ok.2 ⟨_, hsa, hiv, rfl⟩
  · exact encrypt_eq_ok.2 ⟨_, hsb, hiv, rfl⟩
  · exact decrypt_close hsa hiv msg
  · exact decrypt_close hsb hiv msg

/-- The holders of the private keys 1 and n - 1, whose public keys differ in the sign of a
coordinate only. -/
theorem encrypt_same_for_opposite_keys : ∃ pa pb secret,
    PublicKey.ofWif "5HpHagT65TZzG1PH3CSu63k8DbpvD8s5ip4nEB3kEsreAnchuDf".toList
      PublicKey.fio PublicKey.eos = .ok pa ∧
    PublicKey.ofWif "5Km2kuu7vtFDPpxywn4u3NLpbr5jKpTB3jsuDU2KYEqetqj84qw".toList
      PublicKey.fio PublicKey.eos = .ok pb ∧
    sharedSecret "5HpHagT65TZzG1PH3CSu63k8DbpvD8s5ip4nEB3kEsreAnchuDf".toList pb = .ok secret ∧
    sharedSecret "5Km2kuu7vtFDPpxywn4u3NLpbr5jKpTB3jsuDU2KYEqetqj84qw".toList pa = .ok secret ∧
    ∃ e, encrypt "5HpHagT65TZzG1PH3CSu63k8DbpvD8s5ip4nEB3kEsreAnchuDf".toList pb []
        (Bytes.zeros 16) = .ok e ∧
      decrypt "5Km2kuu7vtFDPpxywn4u3NLpbr5jKpTB3jsuDU2KYEqetqj84qw".toList pa e = .ok [] := by
  have ha : (PublicKey.ofWif "5HpHagT65TZzG1PH3CSu63k8DbpvD8s5ip4nEB3kEsreAnchuDf".toList
      PublicKey.fio PublicKey.eos).isOk = true := by decide +kernel
  have hb : (PublicKey.ofWif "5Km2kuu7vtFDPpxywn4u3NLpbr5jKpTB3jsuDU2KYEqetqj84qw".toList
      PublicKey.fio PublicKey.eos).isOk = true := by decide +kernel
  obtain ⟨pa, hpa⟩ := Outcome.exists_of_isOk ha
  obtain ⟨pb, hpb⟩ := Outcome.exists_of_isOk hb
  obtain ⟨secret, -, hsa, hsb, hmessages⟩ := encrypt_same_on_both_sides hpa hpb
  obtain ⟨e, henc, -, -, hdec⟩ := hmessages [] (Bytes.zeros 16) rfl
  exact ⟨pa, pb, secret, hpa, hpb, hsa, hsb, e, henc, hdec⟩

end KeyPairs

end Envelope

namespace Account

/-- An account consists of a private key text as it is, its public key text, and the actor of this
text. -/
theorem ofWif_eq_ok {wif : Text} {A : Account} : ofWif wif = .ok A ↔
    A.wif = wif ∧ PublicKey.ofWif wif PublicKey.fio PublicKey.eos = .ok A.publicKey ∧
      Actor.ofText A.publicKey = .ok A.actor := by
  simp only [ofWif, Outcome.bind_eq_ok, Outcome.pure_eq, Except.ok.injEq]
  constructor
  · rintro ⟨text, htext, actor, hactor, rfl⟩
    exact ⟨rfl, htext, hactor⟩
  · rintro ⟨rfl, htext, hactor⟩
    exact ⟨_, htext, _, hactor, rfl⟩

/-- Two accounts share a secret, on whichever side it is computed. -/
theorem exists_sharedSecret {a b : Text} {A B : Account} (ha : ofWif a = .ok A)
    (hb : ofWif b = .ok B) :
    ∃ p : Curve.Point, p ≠ .neutral ∧
      Envelope.sharedSecret A.wif B.publicKey = .ok (Hash.sha512 p.xBytes) ∧
      Envelope.sharedSecret B.wif A.publicKey = .ok (Hash.sha512 p.xBytes) := by
  obtain ⟨rfl, hA, -⟩ := ofWif_eq_ok.1 ha
  obtain ⟨rfl, hB, -⟩ := ofWif_eq_ok.1 hb
  exact Envelope.exists_sharedSecret hA hB

end Account

end Keyring
