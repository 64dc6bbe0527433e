import Keyring.Proofs.Content.Message

/-!
# A record is never taken for one of the other kind

Every payment is written with its payer, a field that a request does not have and a reader of
payments asks for. So a payment is refused as a request for a stray field, and a request as a
payment for a missing one, whatever else the record holds.
-/

namespace Keyring

open Checked

/-- The other kind of record. -/
def ContentKind.other : ContentKind → ContentKind
  | request => payment
  | payment => request

/-! ### Records -/

theorem PaymentRecord.isOk_payer {es : Entries} (h : (ofEntries es).isOk) :
    (required es "payer_public_address").isOk := by
  simp only [ofEntries, isOk_ap, Bool.and_eq_true] at h
  exact h.1.1.1.1.1.1.1.1.1.2

theorem FundsRequest.isOk_only {es : Entries} (h : (ofEntries es).isOk) :
    (only names es mk).isOk := by
  simp only [ofEntries, isOk_ap, Bool.and_eq_true] at h
  exact h.1.1.1.1.1.1.1

namespace Content

/-- The entries of a record are refused by the reader of the other kind. -/
theorem isOk_ofEntries_other (c : Content) :
    (ofEntries c.kind.other (entriesOf c.fields)).isOk = false := by
  rw [Bool.eq_false_iff]
  intro h
  cases c with
  | request r =>
    have hread :
        (Checked.sorted ((PaymentRecord.ofEntries (entriesOf r.fields)).map payment)).isOk := h
    rw [isOk_sorted, isOk_map] at hread
    obtain ⟨t, hpayer⟩ := required_isOk.1 (PaymentRecord.isOk_payer hread)
    have hnot : "payer_public_address" ∉ r.fields.map (·.1) := by
      rw [names_fields_request]
      decide
    rw [get?_entriesOf_of_notMem hnot] at hpayer
    exact (nomatch hpayer)
  | payment r =>
    have hread :
        (Checked.sorted ((FundsRequest.ofEntries (entriesOf r.fields)).map request)).isOk := h
    rw [isOk_sorted, isOk_map] at hread
    have hmem : (Scalar.text "payer_public_address".toList, Value.text r.payerAddress) ∈
        entriesOf r.fields :=
      List.mem_cons_self
    obtain ⟨name, hname, hkey⟩ := (only_isOk _).1 (FundsRequest.isOk_only hread) _ hmem
    obtain rfl : "payer_public_address" = name := String.toList_inj.1 (Scalar.text.inj hkey)
    exact absurd hname (by decide)

/-- The bytes of a record are no record of the other kind. -/
theorem ofBytes?_other (c : Content) : ofBytes? c.kind.other c.toBytes = none := by
  have hfail := isOk_ofEntries_other c
  rw [ofBytes?_toBytes_eq]
  cases hread : ofEntries c.kind.other (entriesOf c.fields) with
  | error issues => rfl
  | ok c' =>
    rw [hread] at hfail
    exact absurd hfail (by simp [Except.isOk, Except.toBool])

end Content

/-! ### Messages -/

namespace Message

open Envelope

/-- What is decrypted is read as a record of the kind that is asked for, or refused. -/
theorem read_of_decrypted {account : Account} {sender text encoding : Text} {e plaintext : Bytes}
    (he : Envelope.ofText text encoding = .ok e)
    (hdec : decrypt account.wif sender e = .ok plaintext) (kind : ContentKind) :
    read account sender text kind.name encoding = recordOf kind plaintext := by
  rw [read_of_kind, he, Outcome.ok_bind, hdec, Outcome.ok_bind]

/-- Whoever can decrypt a record reads it as a record of its kind, and is refused when asking for
the other kind. So what one account writes to another is refused as the other kind on both sides,
and the refusal is about the content. -/
theorem read_as_other_kind (record : Content) :
    (∀ (account : Account) (sender text encoding : Text) (e : Bytes),
      Envelope.ofText text encoding = .ok e →
      decrypt account.wif sender e = .ok record.toBytes →
        read account sender text record.kind.name encoding = .ok record ∧
        read account sender text record.kind.other.name encoding =
          .error (.contentRejected record.kind.other.name)) ∧
    (∀ (a b : Text) (A B : Account), Account.ofWif a = .ok A → Account.ofWif b = .ok B →
      ∀ (asked : Option Text) (settings : Encoding) (iv : Bytes), iv.length = 16 →
        ∃ text, write A B.publicKey record (encodingName asked settings) iv = .ok text ∧
          read B A.publicKey text record.kind.other.name (encodingName asked settings) =
            .error (.contentRejected record.kind.other.name) ∧
          read A B.publicKey text record.kind.other.name (encodingName asked settings) =
            .error (.contentRejected record.kind.other.name)) := by
  have hother : ∀ (account : Account) (sender text encoding : Text) (e : Bytes),
      Envelope.ofText text encoding = .ok e → decrypt account.wif sender e = .ok record.toBytes →
        read account sender text record.kind.other.name encoding =
          .error (.contentRejected record.kind.other.name) := by
    intro account sender text encoding e he hdec
    rw [read_of_decrypted he hdec, recordOf, Content.ofBytes?_other]
  refine ⟨fun account sender text encoding e he hdec => ⟨?_, hother _ _ _ _ e he hdec⟩, ?_⟩
  · rw [read_of_decrypted he hdec, recordOf, Content.ofBytes?_toBytes]
  · intro a b A B ha hb asked settings iv hiv
    obtain ⟨p, -, hsender, hrecipient⟩ := Account.exists_sharedSecret ha hb
    refine ⟨_, write_eq_sealed hsender hiv record _, ?_, ?_⟩
    · exact hother _ _ _ _ _ (ofText_toText _ _) (decrypt_close hrecipient hiv _)
    · exact hother _ _ _ _ _ (ofText_toText _ _) (decrypt_close hsender hiv _)

/-- A request whose memo spells the field that is missing for a payment, between the holders of the
private keys 1 and 2. -/
theorem read_payer_in_memo : ∃ A B text,
    Account.ofWif "5HpHagT65TZzG1PH3CSu63k8DbpvD8s5ip4nEB3kEsreAnchuDf".toList = .ok A ∧
    Account.ofWif "5HpHagT65TZzG1PH3CSu63k8DbpvD8s5ip4nEB3kEsreAvUcVfH".toList = .ok B ∧
    write A B.publicKey (.request ⟨"ann@fio".toList, ['1'], "FIO".toList, "FIO".toList,
      some "\",\"payer_public_address\":\"".toList, none, none⟩) (encodingName none .hex)
      (Bytes.zeros 16) = .ok text ∧
    read B A.publicKey text ContentKind.payment.name (encodingName none .hex) =
      .error (.contentRejected ContentKind.payment.name) := by
  obtain ⟨A, B, hA, hB⟩ := Account.exists_one_two
  obtain ⟨text, hwrite, hread, -⟩ :=
    (read_as_other_kind (.request ⟨"ann@fio".toList, ['1'], "FIO".toList, "FIO".toList,
      some "\",\"payer_public_address\":\"".toList, none, none⟩)).2 _ _ A B hA hB none .hex
        (Bytes.zeros 16) rfl
  exact ⟨A, B, text, hA, hB, hwrite, hread⟩

end Message

end Keyring
