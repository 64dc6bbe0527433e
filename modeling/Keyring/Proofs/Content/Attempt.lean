import Keyring.Proofs.Content.Message
import Keyring.Proofs.Envelope.Refusals
import Keyring.Proofs.Key.Secret

/-!
# Attempts to read a content field

A content field is read in nine stages, from the name of the kind to the record. What a stage asks
for is said of the attempt as a whole (`Attempt.Passes`), whatever becomes of the other stages, and
so is the fault that it reports (`Attempt.Reports`). Nothing here runs the reader: bytes, parts,
keys and message are found one after the other, and each is the only one of its sort.
-/

namespace Keyring.Message

open Envelope Cipher

/-! ### The stages -/

/-- The stages of reading a content field, in their order. -/
inductive Stage
  /-- The name of the kind. -/
  | kind
  /-- The text in its encoding. -/
  | text
  /-- The lengths of the envelope. -/
  | shape
  /-- The private key text and its scalar. -/
  | privateKey
  /-- The public key text. -/
  | publicKey
  /-- The public key as a point of the curve. -/
  | point
  /-- The tag. -/
  | tag
  /-- The filling of the decrypted text. -/
  | padding
  /-- The record in the decrypted text. -/
  | record
  deriving DecidableEq, Repr

namespace Stage

instance : LT Stage :=
  ⟨fun r s => r.ctorIdx < s.ctorIdx⟩

instance (r s : Stage) : Decidable (r < s) :=
  inferInstanceAs (Decidable (r.ctorIdx < s.ctorIdx))

/-- The families of the faults that a stage reports. -/
def families : Stage → List Family
  | kind | record => [.content]
  | text | shape => [.envelope]
  | privateKey | publicKey => [.key, .base58]
  | point => [.pointDecode]
  | tag => [.authentication]
  | padding => [.padding]

theorem kind_lt {s : Stage} (h : s ≠ kind) : kind < s := by
  cases s with
  | kind => exact absurd rfl h
  | _ => decide

variable {P : Stage → Prop} {r s : Stage}

/-- Where some stage fails, one fails first. -/
theorem exists_first (h : ∃ s, ¬P s) : ∃ s, ¬P s ∧ ∀ r < s, P r := by
  obtain ⟨s, hs, hmin⟩ := WellFounded.has_min (measure Stage.ctorIdx).wf {s | ¬P s} h
  exact ⟨s, hs, fun r hr => not_not.1 fun hn => hmin r hn hr⟩

theorem eq_of_first (hr : ¬P r ∧ ∀ t < r, P t) (hs : ¬P s ∧ ∀ t < s, P t) : r = s := by
  rcases Nat.lt_trichotomy r.ctorIdx s.ctorIdx with hlt | heq | hlt
  · exact absurd (hs.2 r hlt) hr.1
  · exact Function.LeftInverse.injective ofNat_ctorIdx heq
  · exact absurd (hr.2 s hlt) hs.1

end Stage

/-! ### Attempts -/

/-- What the reader of a content field is given. -/
structure Attempt where
  account : Account
  sender : Text
  text : Text
  kindName : Text
  asked : Option Text
  settings : Encoding

namespace Attempt

/-- The name of the encoding. -/
def encoding (q : Attempt) : Text :=
  encodingName q.asked q.settings

/-- How the attempt ends. -/
def outcome (q : Attempt) : Outcome Content :=
  read q.account q.sender q.text q.kindName q.encoding

/-- The same attempt on another text. -/
def onText (q : Attempt) (text : Text) : Attempt :=
  { q with text }

/-- The text stands for these bytes. -/
def Decodes (q : Attempt) (e : Bytes) : Prop :=
  bytesOf? q.text q.encoding = some e

/-- The text stands for an envelope with these parts. -/
def Cuts (q : Attempt) (p : Parts) : Prop :=
  q.Decodes (p.iv ++ p.ciphertext ++ p.tag) ∧ p.iv.length = 16 ∧ p.tag.length = 32 ∧
    16 ∣ p.ciphertext.length ∧ 16 ≤ p.ciphertext.length

/-- The private key text holds this scalar. -/
def HasScalar (q : Attempt) (k : ℕ) : Prop :=
  ∃ secret, SecretKey.ofWif q.account.wif = .ok secret ∧ secret.toNat = k ∧ 0 < k ∧ k < Curve.order

/-- The public key text holds this key. -/
def HasKey (q : Attempt) (key : Bytes) : Prop :=
  PublicKey.ofText q.sender PublicKey.usualLabels = .ok key

/-- The public key is this point of the curve. -/
def HasPoint (q : Attempt) (p : Curve.Point) : Prop :=
  q.HasKey p.compress ∧ p.OnCurve ∧ p ≠ .neutral

/-- The two key texts agree on these keys. -/
def Shares (q : Attempt) (keys : Keys) : Prop :=
  ∃ k p, q.HasScalar k ∧ q.HasPoint p ∧ keys = Keys.ofSecret (Hash.sha512 (p.multiple k).xBytes)

/-- The tag is that of the initial block and the ciphertext, under the agreed key. -/
def Verifies (q : Attempt) : Prop :=
  ∃ keys p, q.Shares keys ∧ q.Cuts p ∧ p.tag = Hash.hmacSha256 keys.mac (p.iv ++ p.ciphertext)

/-- The ciphertext is decrypted to this message, properly filled. -/
def Decrypts (q : Attempt) (msg : Bytes) : Prop :=
  ∃ keys p, q.Shares keys ∧ q.Cuts p ∧
    Chaining.decrypt (Aes.decrypt (Aes.schedule keys.cipher)) p.iv p.ciphertext = Padding.fill msg

/-- The decrypted message is this record, of the kind that is asked for. -/
def Holds (q : Attempt) (record : Content) : Prop :=
  ∃ kind msg, q.kindName = ContentKind.name kind ∧ q.Decrypts msg ∧
    Content.ofBytes? kind msg = some record

/-- A stage gets what it asks for. -/
def Passes (q : Attempt) : Stage → Prop
  | .kind => ∃ kind, q.kindName = ContentKind.name kind
  | .text => ∃ e, q.Decodes e
  | .shape => ∃ e, q.Decodes e ∧ 64 ≤ e.length ∧ 16 ∣ e.length - 48
  | .privateKey => ∃ k, q.HasScalar k
  | .publicKey => ∃ key, q.HasKey key
  | .point => ∃ p, q.HasPoint p
  | .tag => q.Verifies
  | .padding => ∃ msg, q.Decrypts msg
  | .record => ∃ record, q.Holds record

/-- A stage reports this fault, if it is reached and does not pass. -/
def Reports (q : Attempt) : Stage → Fault → Prop
  | .kind, f => f = .contentKind q.kindName
  | .text, f => f = .envelopeText q.encoding
  | .shape, f => ∃ e, q.Decodes e ∧ ((e.length < 64 ∧ f = .envelopeTooShort e.length) ∨
      (64 ≤ e.length ∧ f = .envelopeMisaligned (e.length - 48)))
  | .privateKey, f => SecretKey.ofWif q.account.wif = .error f ∨
      ∃ secret, SecretKey.ofWif q.account.wif = .ok secret ∧ f = .secretRange
  | .publicKey, f => PublicKey.ofText q.sender PublicKey.usualLabels = .error f
  | .point, f => f = .offCurve
  | .tag, f => f = .tagMismatch
  | .padding, f => f = .badPadding
  | .record, f => f = .contentRejected q.kindName

/-- A stage fails, and those before it pass. -/
def FirstFailure (q : Attempt) (s : Stage) : Prop :=
  ¬q.Passes s ∧ ∀ r < s, q.Passes r

variable {q : Attempt}

/-! ### What the stages find -/

section Found

variable {e e' : Bytes} {p p' : Parts} {keys keys' : Keys} {k : ℕ}

theorem Decodes.unique (h : q.Decodes e) (h' : q.Decodes e') : e = e' :=
  Option.some.inj (h.symm.trans h')

theorem Decodes.ofText (h : q.Decodes e) : Envelope.ofText q.text q.encoding = .ok e :=
  ofText_eq_ok.2 h

theorem cuts_iff : q.Cuts p ↔ ∃ e, q.Decodes e ∧ Parts.ofBytes e = .ok p := by
  simp only [Parts.ofBytes_eq_ok]
  constructor
  · rintro ⟨he, hparts⟩
    exact ⟨_, he, rfl, hparts⟩
  · rintro ⟨e, he, rfl, hparts⟩
    exact ⟨he, hparts⟩

/-- A text of the right shape is cut into parts. -/
theorem exists_cuts (h : q.Passes .shape) : ∃ p, q.Cuts p := by
  obtain ⟨e, he, hlen, hdvd⟩ := h
  obtain ⟨p, hp⟩ := Parts.exists_ofBytes hlen hdvd
  exact ⟨p, cuts_iff.2 ⟨e, he, hp⟩⟩

/-- An attempt has one envelope. -/
theorem Cuts.unique (h : q.Cuts p) (h' : q.Cuts p') : p = p' := by
  obtain ⟨e, he, hp⟩ := cuts_iff.1 h
  obtain ⟨e', he', hp'⟩ := cuts_iff.1 h'
  obtain rfl := he.unique he'
  exact Except.ok.inj (hp.symm.trans hp')

theorem Cuts.dvd (h : q.Cuts p) : 16 ∣ p.ciphertext.length :=
  h.2.2.2.1

theorem hasScalar_iff :
    q.HasScalar k ↔ SecretKey.ofWif q.account.wif >>= SecretKey.scalar = .ok k := by
  simp only [HasScalar, Outcome.bind_eq_ok, SecretKey.scalar_eq_ok]
  constructor
  · rintro ⟨secret, hwif, hk⟩
    exact ⟨secret, hwif, (SecretKey.ofWif_eq_ok.1 hwif).1, hk⟩
  · rintro ⟨secret, hwif, -, hk⟩
    exact ⟨secret, hwif, hk⟩

theorem shares_iff : q.Shares keys ↔
    ∃ secret, sharedSecret q.account.wif q.sender = .ok secret ∧ keys = Keys.ofSecret secret := by
  constructor
  · rintro ⟨k, p, hk, ⟨hkey, hp⟩, rfl⟩
    exact ⟨_, sharedSecret_of_point (hasScalar_iff.1 hk) hkey
      (Curve.Point.decompress?_eq_some.2 ⟨hp.1, hp.2, rfl⟩), rfl⟩
  · rintro ⟨secret, hs, rfl⟩
    obtain ⟨k, key, p, hk, hkey, hp, rfl⟩ := sharedSecret_eq_ok.1 hs
    obtain ⟨hcurve, hne, rfl⟩ := Curve.Point.decompress?_eq_some.1 hp
    exact ⟨k, p, hasScalar_iff.2 hk, ⟨hkey, hcurve, hne⟩, rfl⟩

/-- Two good keys share a pair of keys. -/
theorem exists_shares (hk : q.Passes .privateKey) (hp : q.Passes .point) :
    ∃ keys, q.Shares keys := by
  obtain ⟨k, hk⟩ := hk
  obtain ⟨p, hp⟩ := hp
  exact ⟨_, k, p, hk, hp, rfl⟩

/-- An attempt has one pair of keys. -/
theorem Shares.unique (h : q.Shares keys) (h' : q.Shares keys') : keys = keys' := by
  obtain ⟨secret, hs, rfl⟩ := shares_iff.1 h
  obtain ⟨secret', hs', rfl⟩ := shares_iff.1 h'
  rw [Except.ok.inj (hs.symm.trans hs')]

/-- The point behind the secret of two good keys is not neutral, so that it has a coordinate. -/
theorem multiple_ne_neutral {p : Curve.Point} (hk : q.HasScalar k) (hp : q.HasPoint p) :
    p.multiple k ≠ .neutral := by
  obtain ⟨-, -, -, hrange⟩ := hk
  exact Curve.Point.multiple_ne_neutral hp.2.1 hp.2.2 hrange

end Found

end Attempt

end Keyring.Message
