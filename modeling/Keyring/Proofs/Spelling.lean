import Keyring.Proofs.Envelope.Refusals
import Keyring.Proofs.Key.Secret

/-!
# Spellings of keys

A private key has two written forms, and blanks around them do not count; a public key has a text
under each of two labels and two more in its second form. All operations on keys read the text once
and go on with the bytes, so that one spelling does for another.
-/

namespace Keyring

/-! ### The spellings of a key -/

/-- The spellings of a private key: wallet import format of either form, with any blanks around it.
-/
def SecretKey.Spelling (secret : Bytes) (wif : Text) : Prop :=
  ∃ pre written post compressed, toWif secret compressed = .ok written ∧
    (∀ c ∈ pre, Text.isBlank c) ∧ (∀ c ∈ post, Text.isBlank c) ∧ wif = pre ++ written ++ post

/-- The spellings of a public key: under either label, and in the second form with either checksum.
-/
inductive PublicKey.Spelling (key : Bytes) : Text → Prop
  | fio : Spelling key (labelled fio key)
  | eos : Spelling key (labelled eos key)
  | k1Legacy : Spelling key (k1Start ++ Base58.KeyText.encode key [])
  | k1 : Spelling key (k1Start ++ Base58.KeyText.encode key k1Suffix)

/-- The spellings of a private key are the texts that are read as it. -/
theorem SecretKey.spelling_iff {secret : Bytes} (h : secret.length = 32) {wif : Text} :
    Spelling secret wif ↔ ofWif wif = .ok secret := by
  rw [ofWif_eq_ok]
  constructor
  · rintro ⟨pre, written, post, compressed, hwritten, hpre, hpost, rfl⟩
    obtain ⟨-, rfl⟩ := toWif_eq_ok.1 hwritten
    exact ⟨h, compressed, trim_encode hpre hpost _⟩
  · rintro ⟨-, compressed, htrim⟩
    obtain ⟨pre, post, hpre, hpost, hwif⟩ := Text.exists_margins Text.isBlank wif
    exact ⟨pre, wif.trim, post, compressed, toWif_eq_ok.2 ⟨h, htrim⟩, hpre, hpost, hwif⟩

/-- The spellings of a public key are the texts that are read as it. -/
theorem PublicKey.spelling_iff {key : Bytes} (h : isCompressed key) {text : Text} :
    Spelling key text ↔ ofText text usualLabels = .ok key := by
  rw [ofText_eq_ok, and_iff_right h]
  constructor
  · rintro (_ | _ | _ | _)
    · exact .inl ⟨fio, List.mem_cons_self, rfl, rfl⟩
    · exact .inl ⟨eos, List.mem_cons_of_mem _ List.mem_cons_self, rfl, rfl⟩
    · exact .inr (.inr rfl)
    · exact .inr (.inl rfl)
  · rintro (⟨label, hmem, -, rfl⟩ | rfl | rfl)
    · rcases List.mem_pair.1 hmem with rfl | rfl
      · exact .fio
      · exact .eos
    · exact .k1
    · exact .k1Legacy

/-! ### Texts that are read alike -/

section Alike

variable {wif wif' text text' : Text} (hwif : SecretKey.ofWif wif = SecretKey.ofWif wif')
  (htext : PublicKey.ofText text PublicKey.usualLabels =
    PublicKey.ofText text' PublicKey.usualLabels)

include htext in
theorem Actor.ofText_congr : ofText text = ofText text' := by
  rw [ofText, ofText, htext]

include hwif in
theorem PublicKey.ofWif_congr (label curveLabel : Text) :
    ofWif wif label curveLabel = ofWif wif' label curveLabel := by
  rw [ofWif, ofWif, hwif]

/-- An account keeps the text of its private key, but what else it shows comes from the public key
text. -/
theorem Account.shown_eq (wif : Text) : (ofWif wif).map (fun A => (A.publicKey, A.actor)) =
    PublicKey.ofWif wif PublicKey.fio PublicKey.eos >>= fun text =>
      (Actor.ofText text).map fun actor => (text, actor) := by
  rw [ofWif]
  cases PublicKey.ofWif wif PublicKey.fio PublicKey.eos with
  | error f => rfl
  | ok text =>
    simp only [Outcome.ok_bind]
    cases Actor.ofText text <;> rfl

include hwif in
theorem Account.shown_congr : (ofWif wif).map (fun A => (A.publicKey, A.actor)) =
    (ofWif wif').map (fun A => (A.publicKey, A.actor)) := by
  rw [shown_eq, shown_eq, PublicKey.ofWif_congr hwif]

namespace Envelope

include hwif htext

/-- Texts that are read alike share the same secrets. -/
theorem sharedSecret_congr : sharedSecret wif text = sharedSecret wif' text' := by
  rw [sharedSecret, sharedSecret, hwif, htext]

theorem encrypt_congr (msg iv : Bytes) : encrypt wif text msg iv = encrypt wif' text' msg iv := by
  rw [encrypt, encrypt, sharedSecret_congr hwif htext]

theorem decrypt_congr (e : Bytes) : decrypt wif text e = decrypt wif' text' e := by
  rw [decrypt, decrypt, sharedSecret_congr hwif htext]

end Envelope

end Alike

/-! ### Two runs -/

/-- Let a private key be a usable scalar and a public key have the form of a compressed point. Their
spellings are the texts that are read as them, and each spelling does for another: actor, shared
secret, encryption and decryption end with the same result or the same fault, and the account of the
private key has the same public key text, that of the scalar, and the same actor. The secret is
there for every point of the curve. Exchanging the label leads from either labelled text of a key to
the other. -/
theorem spellings_interchangeable {secret key : Bytes}
    (hsecret : secret.length = 32 ∧ 0 < secret.toNat ∧ secret.toNat < Curve.order)
    (hkey : key.length = 33 ∧ (key.head? = some 0x02 ∨ key.head? = some 0x03)) :
    (∀ wif, SecretKey.Spelling secret wif ↔ SecretKey.ofWif wif = .ok secret) ∧
    (∀ text, PublicKey.Spelling key text ↔ PublicKey.ofText text PublicKey.usualLabels = .ok key) ∧
    (∀ text text', PublicKey.Spelling key text → PublicKey.Spelling key text' →
      Actor.ofText text = Actor.ofText text') ∧
    (∀ wif wif', SecretKey.Spelling secret wif → SecretKey.Spelling secret wif' →
      (PublicKey.ofWif wif PublicKey.fio PublicKey.eos =
        .ok (PublicKey.labelled PublicKey.fio (Curve.base.multiple secret.toNat).compress)) ∧
      (Account.ofWif wif).map (fun A => (A.publicKey, A.actor)) =
        (Account.ofWif wif').map (fun A => (A.publicKey, A.actor))) ∧
    (∀ wif wif' text text', SecretKey.Spelling secret wif → SecretKey.Spelling secret wif' →
      PublicKey.Spelling key text → PublicKey.Spelling key text' →
      (∀ p, Curve.Point.decompress? key = some p →
        Envelope.sharedSecret wif text = .ok (Hash.sha512 (p.multiple secret.toNat).xBytes)) ∧
      Envelope.sharedSecret wif text = Envelope.sharedSecret wif' text' ∧
      (∀ msg iv, Envelope.encrypt wif text msg iv = Envelope.encrypt wif' text' msg iv) ∧
      ∀ e, Envelope.decrypt wif text e = Envelope.decrypt wif' text' e) ∧
    (PublicKey.relabel (PublicKey.labelled PublicKey.fio key) PublicKey.eos =
        .ok (PublicKey.labelled PublicKey.eos key) ∧
      PublicKey.relabel (PublicKey.labelled PublicKey.eos key) PublicKey.fio =
        .ok (PublicKey.labelled PublicKey.fio key)) := by
  have hcompressed : PublicKey.isCompressed key := PublicKey.isCompressed_iff.2 hkey
  have hwif : ∀ wif, SecretKey.Spelling secret wif ↔ SecretKey.ofWif wif = .ok secret := fun wif =>
    SecretKey.spelling_iff hsecret.1
  have htext : ∀ text, PublicKey.Spelling key text ↔
      PublicKey.ofText text PublicKey.usualLabels = .ok key :=
    fun text => PublicKey.spelling_iff hcompressed
  have hscalar : SecretKey.scalar secret = .ok secret.toNat :=
    SecretKey.scalar_eq_ok.2 ⟨hsecret.1, rfl, hsecret.2⟩
  refine ⟨hwif, htext, ?_, ?_, ?_, ?_⟩
  · intro text text' h h'
    exact Actor.ofText_congr (((htext text).1 h).trans ((htext text').1 h').symm)
  · intro wif wif' h h'
    refine ⟨?_, Account.shown_congr (((hwif wif).1 h).trans ((hwif wif').1 h').symm)⟩
    exact (PublicKey.ofWif_eq_ok rfl).2 ⟨secret, secret.toNat, (hwif wif).1 h, hscalar, rfl, rfl⟩
  · intro wif wif' text text' h h' ht ht'
    have hw : SecretKey.ofWif wif = SecretKey.ofWif wif' :=
      ((hwif wif).1 h).trans ((hwif wif').1 h').symm
    have hk : PublicKey.ofText text PublicKey.usualLabels =
        PublicKey.ofText text' PublicKey.usualLabels :=
      ((htext text).1 ht).trans ((htext text').1 ht').symm
    refine ⟨?_, Envelope.sharedSecret_congr hw hk, Envelope.encrypt_congr hw hk,
      Envelope.decrypt_congr hw hk⟩
    intro p hp
    have hread : SecretKey.ofWif wif >>= SecretKey.scalar = .ok secret.toNat :=
      Outcome.bind_eq_ok.2 ⟨secret, (hwif wif).1 h, hscalar⟩
    exact Envelope.sharedSecret_of_point hread ((htext text).1 ht) hp
  · constructor
    · exact (PublicKey.relabel_eq_ok hcompressed rfl).2 ⟨rfl, rfl⟩
    · exact (PublicKey.relabel_eq_ok hcompressed rfl).2 ⟨rfl, rfl⟩

/-- The private key 1 in both forms, and its own public key under a label and in the second form. -/
theorem spellings_of_one_interchangeable :
    Envelope.sharedSecret " KwDiBf89QgGbjEhKnhXJuH7LrciVrZi3qYjgd9M7rFU73sVHnoWn\n".toList
        "FIO5p78kHbL33Rn3JWkTWRE2B9uz6gy4r1KbfAKLNQGE3ovMBS5bu".toList =
      Envelope.sharedSecret "5HpHagT65TZzG1PH3CSu63k8DbpvD8s5ip4nEB3kEsreAnchuDf".toList
        "PUB_K1_5p78kHbL33Rn3JWkTWRE2B9uz6gy4r1KbfAKLNQGE3ovLY8E9M".toList ∧
    Actor.ofText "FIO5p78kHbL33Rn3JWkTWRE2B9uz6gy4r1KbfAKLNQGE3ovMBS5bu".toList =
      Actor.ofText "PUB_K1_5p78kHbL33Rn3JWkTWRE2B9uz6gy4r1KbfAKLNQGE3ovLY8E9M".toList := by
  have hsecret : (Bytes.ofNat 32 1).length = 32 ∧ 0 < (Bytes.ofNat 32 1).toNat ∧
      (Bytes.ofNat 32 1).toNat < Curve.order := by decide +kernel
  have hkey : Curve.base.compress.length = 33 ∧
      (Curve.base.compress.head? = some 0x02 ∨ Curve.base.compress.head? = some 0x03) := by
    decide +kernel
  have hcompressed :
      SecretKey.ofWif " KwDiBf89QgGbjEhKnhXJuH7LrciVrZi3qYjgd9M7rFU73sVHnoWn\n".toList =
      .ok (Bytes.ofNat 32 1) := by decide +kernel
  have huncompressed :
      SecretKey.ofWif "5HpHagT65TZzG1PH3CSu63k8DbpvD8s5ip4nEB3kEsreAnchuDf".toList =
      .ok (Bytes.ofNat 32 1) := by decide +kernel
  have hlabelled : PublicKey.ofText "FIO5p78kHbL33Rn3JWkTWRE2B9uz6gy4r1KbfAKLNQGE3ovMBS5bu".toList
      PublicKey.usualLabels = .ok Curve.base.compress := by decide +kernel
  have hsecond : PublicKey.ofText "PUB_K1_5p78kHbL33Rn3JWkTWRE2B9uz6gy4r1KbfAKLNQGE3ovLY8E9M".toList
      PublicKey.usualLabels = .ok Curve.base.compress := by decide +kernel
  obtain ⟨hwif, htext, hactor, -, hshared, -⟩ := spellings_interchangeable hsecret hkey
  refine ⟨?_, hactor _ _ ((htext _).2 hlabelled) ((htext _).2 hsecond)⟩
  exact (hshared _ _ _ _ ((hwif _).2 hcompressed) ((hwif _).2 huncompressed) ((htext _).2 hlabelled)
    ((htext _).2 hsecond)).2.1

end Keyring
