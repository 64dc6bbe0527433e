import Keyring.Proofs.Actor
import Keyring.Proofs.Agreement
import Keyring.Proofs.Key.Secret

/-!
# What can fail on the way to an account

The public key text of a private key is first written under the label of the curve, and the name of
an account is found by reading this text again. On these detours lengths, labels, a checksum and a
marker are checked. None of the checks can fail: what decides is whether the private key text can be
read, whether its scalar is in range, and how many fields the public key has.
-/

namespace Keyring

variable {wif label curveLabel text : Text} {f : Fault}

/-! ### Public keys -/

namespace SecretKey

variable {secret key : Bytes}

theorem isCompressed_publicKey (h : publicKey secret = .ok key) : PublicKey.isCompressed key := by
  obtain ⟨k, hrange, rfl⟩ := exists_multiple h
  exact PublicKey.isCompressed_multiple hrange

theorem length_publicKey (h : publicKey secret = .ok key) : key.length = 33 :=
  (PublicKey.isCompressed_iff.1 (isCompressed_publicKey h)).1

/-- Of 32 bytes, just the usable scalars have a public key. -/
theorem exists_publicKey_iff (hlen : secret.length = 32) :
    (∃ key, publicKey secret = .ok key) ↔ 1 ≤ secret.toNat ∧ secret.toNat ≤ Curve.order - 1 := by
  have horder : 0 < Curve.order := by decide
  simp only [publicKey_eq_ok, scalar_eq_ok]
  constructor
  · rintro ⟨key, k, ⟨-, rfl, hpos, hlt⟩, -⟩
    exact ⟨hpos, Nat.le_sub_one_of_lt hlt⟩
  · rintro ⟨hpos, hle⟩
    exact ⟨_, secret.toNat, ⟨hlen, rfl, hpos, by omega⟩, rfl⟩

end SecretKey

/-! ### Public key texts -/

namespace PublicKey

variable (hlabel : label.length = labelLength) (hcurve : curveLabel.length = labelLength)

include hlabel hcurve

theorem exists_ofWif_iff : (∃ text, ofWif wif label curveLabel = .ok text) ↔
    ∃ secret, SecretKey.ofWif wif = .ok secret ∧ 1 ≤ secret.toNat ∧
      secret.toNat ≤ Curve.order - 1 := by
  rw [ofWif_eq_bind hlabel hcurve]
  simp only [Outcome.bind_eq_ok]
  constructor
  · rintro ⟨text, secret, hsecret, key, hkey, -⟩
    exact ⟨secret, hsecret,
      (SecretKey.exists_publicKey_iff (SecretKey.ofWif_eq_ok.1 hsecret).1).1 ⟨key, hkey⟩⟩
  · rintro ⟨secret, hsecret, hrange⟩
    obtain ⟨key, hkey⟩ :=
      (SecretKey.exists_publicKey_iff (SecretKey.ofWif_eq_ok.1 hsecret).1).2 hrange
    exact ⟨_, secret, hsecret, key, hkey, toText_eq_ok (SecretKey.length_publicKey hkey)⟩

/-- A fault is that of reading the private key, or else that of its scalar. -/
theorem ofWif_eq_error : ofWif wif label curveLabel = .error f ↔ SecretKey.ofWif wif = .error f ∨
    ∃ secret, SecretKey.ofWif wif = .ok secret ∧ SecretKey.publicKey secret = .error f := by
  -- A public key has 33 bytes, so its text can be written.
  have hwritten : ∀ secret,
      (SecretKey.publicKey secret >>= fun key => toText key label) = .error f ↔
      SecretKey.publicKey secret = .error f := by
    intro secret
    rw [Outcome.bind_eq_error]
    refine ⟨fun h => h.resolve_right ?_, .inl⟩
    rintro ⟨key, hkey, htext⟩
    rw [toText_eq_ok (SecretKey.length_publicKey hkey)] at htext
    exact (nomatch htext)
  rw [ofWif_eq_bind hlabel hcurve, Outcome.bind_eq_error]
  simp only [hwritten]

/-- What a public key text is, and what it is read as. -/
theorem reads_back (h : ofWif wif label curveLabel = .ok text) : text.length = 53 ∧
    ∃ secret key, SecretKey.ofWif wif = .ok secret ∧ SecretKey.publicKey secret = .ok key ∧
      toText key label = .ok text ∧ ∀ labels, label ∈ labels → ofText text labels = .ok key := by
  rw [ofWif_eq_bind hlabel hcurve] at h
  obtain ⟨secret, hsecret, h⟩ := Outcome.bind_eq_ok.1 h
  obtain ⟨key, hkey, htext⟩ := Outcome.bind_eq_ok.1 h
  have hcompressed := SecretKey.isCompressed_publicKey hkey
  obtain rfl : labelled label key = text := by
    rw [toText_eq_ok (SecretKey.length_publicKey hkey)] at htext
    exact Except.ok.inj htext
  refine ⟨?_, secret, key, hsecret, hkey, htext,
    fun labels hmem => ofText_labelled hcompressed hlabel hmem⟩
  rw [labelled, List.length_append, hlabel, length_encode hcompressed]
  rfl

end PublicKey

/-! ### Accounts -/

namespace Account

/-- The name is that of the key which the public key text was written for. -/
theorem actor_ofText {secret key : Bytes} (hkey : SecretKey.publicKey secret = .ok key) :
    Actor.ofText (PublicKey.labelled PublicKey.fio key) = Actor.ofKey key := by
  have hread := PublicKey.ofText_labelled (SecretKey.isCompressed_publicKey hkey) rfl
    (show PublicKey.fio ∈ PublicKey.usualLabels by simp [PublicKey.usualLabels])
  rw [Actor.ofText, hread, Outcome.ok_bind]

/-- A text makes no account because it has no public key text or because its key has no name. -/
theorem ofWif_eq_error :
    ofWif wif = .error f ↔ PublicKey.ofWif wif PublicKey.fio PublicKey.eos = .error f ∨
    (f = .fieldsExhausted ∧ ∃ secret key, SecretKey.ofWif wif = .ok secret ∧
      SecretKey.publicKey secret = .ok key ∧ ¬Actor.HasName key) := by
  rw [ofWif, Outcome.bind_eq_error]
  refine or_congr_right ?_
  simp only [Outcome.bind_eq_error, Outcome.pure_eq, reduceCtorEq, and_false, exists_false,
    or_false]
  constructor
  · rintro ⟨text, htext, hactor⟩
    rw [PublicKey.ofWif_eq_bind rfl rfl] at htext
    obtain ⟨secret, hsecret, htext⟩ := Outcome.bind_eq_ok.1 htext
    obtain ⟨key, hkey, htext⟩ := Outcome.bind_eq_ok.1 htext
    have hlen := SecretKey.length_publicKey hkey
    rw [PublicKey.toText_eq_ok hlen] at htext
    rw [← Except.ok.inj htext, actor_ofText hkey, Actor.ofKey_eq_error hlen.ge] at hactor
    exact ⟨hactor.2, secret, key, hsecret, hkey, hactor.1⟩
  · rintro ⟨rfl, secret, key, hsecret, hkey, hname⟩
    have hlen := SecretKey.length_publicKey hkey
    refine ⟨PublicKey.labelled PublicKey.fio key, ?_, ?_⟩
    · rw [PublicKey.ofWif_eq_bind rfl rfl, hsecret, Outcome.ok_bind, hkey, Outcome.ok_bind,
        PublicKey.toText_eq_ok hlen]
    · rw [actor_ofText hkey, Actor.ofKey_of_not_hasName hlen.ge hname]

/-- For labels of three characters a private key text has a public key text exactly if it is read as
a scalar between 1 and the group order, and fails otherwise as the reading or the scalar does. The
text has 53 characters, is the one that is written for the public key of the scalar, whatever label
it is written under first, and is read as this key where its label is accepted. An account fails as
the public key text does or because the public key has too few fields for a name. It keeps the
private key text as it is given, and its name is that of its public key text. -/
theorem ofWif_fails_by_key_or_name (wif : Text) :
    (∀ label curveLabel : Text, label.length = 3 → curveLabel.length = 3 →
      ((∃ text, PublicKey.ofWif wif label curveLabel = .ok text) ↔
        ∃ secret, SecretKey.ofWif wif = .ok secret ∧ 1 ≤ secret.toNat ∧
          secret.toNat ≤ Curve.order - 1) ∧
      (∀ f, PublicKey.ofWif wif label curveLabel = .error f ↔ SecretKey.ofWif wif = .error f ∨
        ∃ secret, SecretKey.ofWif wif = .ok secret ∧ SecretKey.publicKey secret = .error f) ∧
      ∀ text, PublicKey.ofWif wif label curveLabel = .ok text → text.length = 53 ∧
        (∀ other : Text, other.length = 3 → PublicKey.ofWif wif label other = .ok text) ∧
        ∃ secret key, SecretKey.ofWif wif = .ok secret ∧ SecretKey.publicKey secret = .ok key ∧
          PublicKey.toText key label = .ok text ∧
          ∀ labels, label ∈ labels → PublicKey.ofText text labels = .ok key) ∧
    (∀ f, ofWif wif = .error f ↔
      (SecretKey.ofWif wif = .error f ∨
        ∃ secret, SecretKey.ofWif wif = .ok secret ∧ SecretKey.publicKey secret = .error f) ∨
      (f = .fieldsExhausted ∧ ∃ secret key, SecretKey.ofWif wif = .ok secret ∧
        SecretKey.publicKey secret = .ok key ∧ ¬Actor.HasName key)) ∧
    ∀ A, ofWif wif = .ok A → A.wif = wif ∧
      PublicKey.ofWif wif PublicKey.fio PublicKey.eos = .ok A.publicKey ∧
        Actor.ofText A.publicKey = .ok A.actor := by
  refine ⟨fun label curveLabel hlabel hcurve => ⟨?_, fun f => ?_, fun text htext => ?_⟩,
    fun f => ?_, fun A hA => ?_⟩
  · exact PublicKey.exists_ofWif_iff hlabel hcurve
  · exact PublicKey.ofWif_eq_error hlabel hcurve
  · obtain ⟨hlen, hread⟩ := PublicKey.reads_back hlabel hcurve htext
    refine ⟨hlen, fun other hother => ?_, hread⟩
    rw [PublicKey.ofWif_eq_bind hlabel hother, ← PublicKey.ofWif_eq_bind hlabel hcurve, htext]
  · rw [ofWif_eq_error, PublicKey.ofWif_eq_error rfl rfl]
  · exact ofWif_eq_ok.1 hA

/-- The account and a public key text of the scalar 1, and the scalar 0, which has neither. -/
theorem ofWif_one_and_zero :
    (∃ text, PublicKey.ofWif "5HpHagT65TZzG1PH3CSu63k8DbpvD8s5ip4nEB3kEsreAnchuDf".toList
        "ABC".toList "XYZ".toList = .ok text ∧
      text.length = 53 ∧ ∃ key, PublicKey.ofText text ["ABC".toList] = .ok key) ∧
    (∃ A, ofWif "5HpHagT65TZzG1PH3CSu63k8DbpvD8s5ip4nEB3kEsreAnchuDf".toList = .ok A ∧
      A.wif = "5HpHagT65TZzG1PH3CSu63k8DbpvD8s5ip4nEB3kEsreAnchuDf".toList ∧
      Actor.ofText A.publicKey = .ok A.actor) ∧
    ofWif "5HpHagT65TZzG1PH3CSu63k8DbpvD8s5ip4nEB3kEsreAbuatmU".toList = .error .secretRange := by
  refine ⟨?_, ?_, ?_⟩
  · have hone : SecretKey.ofWif "5HpHagT65TZzG1PH3CSu63k8DbpvD8s5ip4nEB3kEsreAnchuDf".toList =
        .ok (Bytes.ofNat 32 1) := by decide +kernel
    obtain ⟨hexists, -, htext⟩ := (ofWif_fails_by_key_or_name _).1 "ABC".toList "XYZ".toList rfl rfl
    obtain ⟨text, h⟩ := hexists.2 ⟨_, hone, by decide, by decide⟩
    obtain ⟨hlen, -, secret, key, -, -, -, hread⟩ := htext text h
    exact ⟨text, h, hlen, key, hread _ (List.mem_singleton_self _)⟩
  · have hok :
        (ofWif "5HpHagT65TZzG1PH3CSu63k8DbpvD8s5ip4nEB3kEsreAnchuDf".toList).isOk = true := by
      decide +kernel
    obtain ⟨A, hA⟩ := Outcome.exists_of_isOk hok
    obtain ⟨hwif, -, hactor⟩ := (ofWif_fails_by_key_or_name _).2.2 A hA
    exact ⟨A, hA, hwif, hactor⟩
  · have hzero : SecretKey.ofWif "5HpHagT65TZzG1PH3CSu63k8DbpvD8s5ip4nEB3kEsreAbuatmU".toList =
        .ok (Bytes.zeros 32) := by decide +kernel
    have hkey : SecretKey.publicKey (Bytes.zeros 32) = .error .secretRange := by decide +kernel
    exact ((ofWif_fails_by_key_or_name _).2.1 _).2 (.inl (.inr ⟨_, hzero, hkey⟩))

end Account

end Keyring
