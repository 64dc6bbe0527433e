import Keyring.Content.Message
import Keyring.Proofs.Agreement
import Keyring.Proofs.Content.Record
import Keyring.Proofs.Envelope

/-!
# Messages arrive

A record is written into the envelope of the secret that sender and recipient share, and every
reader with this secret gets the record back (`read_sealed`). Two accounts share the secret
whichever side it is computed on, so the recipient can read a message, and so can its sender.
-/

namespace Keyring

/-- The private keys 1 and 2 have accounts. -/
theorem Account.exists_one_two : ∃ A B : Account,
    ofWif "5HpHagT65TZzG1PH3CSu63k8DbpvD8s5ip4nEB3kEsreAnchuDf".toList = .ok A ∧
    ofWif "5HpHagT65TZzG1PH3CSu63k8DbpvD8s5ip4nEB3kEsreAvUcVfH".toList = .ok B := by
  have ha : (ofWif "5HpHagT65TZzG1PH3CSu63k8DbpvD8s5ip4nEB3kEsreAnchuDf".toList).isOk = true := by
    decide +kernel
  have hb : (ofWif "5HpHagT65TZzG1PH3CSu63k8DbpvD8s5ip4nEB3kEsreAvUcVfH".toList).isOk = true := by
    decide +kernel
  obtain ⟨A, hA⟩ := Outcome.exists_of_isOk ha
  obtain ⟨B, hB⟩ := Outcome.exists_of_isOk hb
  exact ⟨A, B, hA, hB⟩

namespace Message

open Envelope

theorem named?_name (kind : ContentKind) : ContentKind.named? kind.name = some kind := by
  cases kind <;> decide

/-- The record of a kind that a decrypted text is read as. -/
def recordOf (kind : ContentKind) (plaintext : Bytes) : Outcome Content :=
  match Content.ofBytes? kind plaintext with
  | some record => .ok record
  | none => .error (.contentRejected kind.name)

/-- Under the name of a kind, a field is read as text, then as an envelope, then as a record. -/
theorem read_of_kind (account : Account) (sender text : Text) (kind : ContentKind)
    (encoding : Text) :
    read account sender text kind.name encoding =
      Envelope.ofText text encoding >>= fun e =>
        decrypt account.wif sender e >>= recordOf kind := by
  simp only [read, named?_name]
  rfl

section Secret

variable {account : Account} {key : Text} {secret iv : Bytes}

/-- A record in the envelope of a shared secret, as text. -/
def sealed (secret iv : Bytes) (record : Content) (encoding : Text) : Text :=
  Envelope.toText (close (Keys.ofSecret secret) iv record.toBytes) encoding

theorem write_eq_sealed (hsecret : sharedSecret account.wif key = .ok secret)
    (hiv : iv.length = ivSize) (record : Content) (encoding : Text) :
    write account key record encoding iv = .ok (sealed secret iv record encoding) := by
  rw [write, encrypt_eq_ok.2 ⟨secret, hsecret, hiv, rfl⟩]
  rfl

/-- Every reader with the secret gets the record back. -/
theorem read_sealed (hsecret : sharedSecret account.wif key = .ok secret) (hiv : iv.length = ivSize)
    (record : Content) (encoding : Text) :
    read account key (sealed secret iv record encoding) record.kind.name encoding = .ok record := by
  rw [read_of_kind, sealed, ofText_toText, Outcome.ok_bind, decrypt_close hsecret hiv,
    Outcome.ok_bind, recordOf, Content.ofBytes?_toBytes]

end Secret

/-- What one account writes to another is read by the recipient, and by the sender itself, as the
record that was written. -/
theorem read_write_between_accounts {a b : Text} {A B : Account} (ha : Account.ofWif a = .ok A)
    (hb : Account.ofWif b = .ok B) (record : Content) (asked : Option Text) (settings : Encoding)
    (iv : Bytes) (hiv : iv.length = 16) :
    ∃ text, write A B.publicKey record (encodingName asked settings) iv = .ok text ∧
      read B A.publicKey text record.kind.name (encodingName asked settings) = .ok record ∧
      read A B.publicKey text record.kind.name (encodingName asked settings) = .ok record := by
  obtain ⟨p, -, hsender, hrecipient⟩ := Account.exists_sharedSecret ha hb
  exact ⟨_, write_eq_sealed hsender hiv record _, read_sealed hrecipient hiv record _,
    read_sealed hsender hiv record _⟩

/-- A request with a memo of one quoted word, between the holders of the private keys 1 and 2. -/
theorem read_write_quoted_memo : ∃ A B text,
    Account.ofWif "5HpHagT65TZzG1PH3CSu63k8DbpvD8s5ip4nEB3kEsreAnchuDf".toList = .ok A ∧
    Account.ofWif "5HpHagT65TZzG1PH3CSu63k8DbpvD8s5ip4nEB3kEsreAvUcVfH".toList = .ok B ∧
    write A B.publicKey
      (.request ⟨"ann@fio".toList, ['1'], "FIO".toList, "FIO".toList,
        some "\"hi\"".toList, none, none⟩) (encodingName none .base64) (Bytes.zeros 16) = .ok text ∧
    read B A.publicKey text ContentKind.request.name (encodingName none .base64) =
      .ok (.request ⟨"ann@fio".toList, ['1'], "FIO".toList, "FIO".toList,
        some "\"hi\"".toList, none, none⟩) := by
  obtain ⟨A, B, hA, hB⟩ := Account.exists_one_two
  obtain ⟨text, hwrite, hread, -⟩ := read_write_between_accounts hA hB
    (.request ⟨"ann@fio".toList, ['1'], "FIO".toList, "FIO".toList,
      some "\"hi\"".toList, none, none⟩) none .base64 (Bytes.zeros 16) rfl
  exact ⟨A, B, text, hA, hB, hwrite, hread⟩

end Message

end Keyring
