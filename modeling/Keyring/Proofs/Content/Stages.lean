import Keyring.Proofs.Content.Attempt

/-!
# Reading ends at the first stage that fails

For each stage there is a lemma on how an attempt ends that gets there and no further. So the first
stage that does not pass decides how reading ends (`outcome_of_firstFailure`), and there is a record
where all nine pass (`outcome_of_holds`).

What is decrypted shows in the outcome only behind the stage of the tag. An envelope that does not
verify ends like any other one (`outcome_of_forgery`).
-/

namespace Keyring.Message

open Envelope Cipher

namespace Attempt

variable {q : Attempt}

/-! ### How the stages end -/

section Ends

variable {kind : ContentKind} {e : Bytes} {p : Parts} {keys : Keys}

theorem named?_of_unknown (h : ¬q.Passes .kind) : ContentKind.named? q.kindName = none := by
  rw [ContentKind.named?, if_neg fun hr => h ⟨.request, hr⟩, if_neg fun hp => h ⟨.payment, hp⟩]

theorem outcome_of_unknown_kind (h : ¬q.Passes .kind) :
    q.outcome = .error (.contentKind q.kindName) := by
  simp only [outcome, read, named?_of_unknown h]
  rfl

variable (hkind : q.kindName = kind.name)

include hkind

theorem outcome_of_kind : q.outcome =
    Envelope.ofText q.text q.encoding >>= fun e =>
      decrypt q.account.wif q.sender e >>= recordOf kind := by
  rw [outcome, hkind, read_of_kind]

theorem outcome_of_undecodable (h : ¬q.Passes .text) :
    q.outcome = .error (.envelopeText q.encoding) := by
  have hnone : bytesOf? q.text q.encoding = none :=
    Option.eq_none_iff_forall_ne_some.2 fun e he => h ⟨e, he⟩
  rw [outcome_of_kind hkind, ofText_eq, hnone]
  rfl

theorem outcome_of_decodes (he : q.Decodes e) : q.outcome = Parts.ofBytes e >>= fun p =>
    sharedSecret q.account.wif q.sender >>= fun secret =>
      p.message (Keys.ofSecret secret) >>= recordOf kind := by
  rw [outcome_of_kind hkind, he.ofText, Outcome.ok_bind, decrypt]
  cases Parts.ofBytes e with
  | error f => rfl
  | ok p => cases sharedSecret q.account.wif q.sender <;> rfl

theorem outcome_of_cuts (hp : q.Cuts p) : q.outcome =
    sharedSecret q.account.wif q.sender >>= fun secret =>
      p.message (Keys.ofSecret secret) >>= recordOf kind := by
  obtain ⟨e, he, hcut⟩ := cuts_iff.1 hp
  rw [outcome_of_decodes hkind he, hcut, Outcome.ok_bind]

/-- With parts and keys at hand, the message in the parts decides. -/
theorem outcome_of_shares (hp : q.Cuts p) (hs : q.Shares keys) :
    q.outcome = p.message keys >>= recordOf kind := by
  obtain ⟨secret, hsecret, rfl⟩ := shares_iff.1 hs
  rw [outcome_of_cuts hkind hp, hsecret, Outcome.ok_bind]

theorem outcome_of_message (hv : q.Verifies) {msg : Bytes} (hmsg : q.Decrypts msg) :
    q.outcome = recordOf kind msg := by
  obtain ⟨keys, p, hkeys, hp, htag⟩ := hv
  obtain ⟨keys', p', hkeys', hp', hfill⟩ := hmsg
  obtain rfl := hkeys.unique hkeys'
  obtain rfl := hp.unique hp'
  have hopen : p.message keys = .ok msg :=
    (Parts.message_eq_ok hp.dvd).2 ⟨(Parts.filled_eq_fill hp.dvd).1 hfill, htag⟩
  rw [outcome_of_shares hkind hp hkeys, hopen, Outcome.ok_bind]

end Ends

/-! ### The first stage that fails -/

section Fails

variable {kind : ContentKind} {p : Parts} {keys : Keys} {k : ℕ} {key : Bytes}
  (hkind : q.kindName = kind.name)

include hkind

theorem outcome_of_misshapen (ht : q.Passes .text) (hfail : ¬q.Passes .shape) :
    ∃ f, q.Reports .shape f ∧ q.outcome = .error f := by
  obtain ⟨e, he⟩ := ht
  have hcut : ∀ f, Parts.ofBytes e = .error f → q.outcome = .error f := by
    intro f hf
    rw [outcome_of_decodes hkind he, hf, Outcome.error_bind]
  by_cases hshort : e.length < 64
  · exact ⟨_, ⟨e, he, .inl ⟨hshort, rfl⟩⟩, hcut _ (Parts.ofBytes_eq_error.2 (.inl ⟨hshort, rfl⟩))⟩
  · have hlen : 64 ≤ e.length := Nat.not_lt.1 hshort
    have hdvd : ¬16 ∣ e.length - 48 := fun hdvd => hfail ⟨e, he, hlen, hdvd⟩
    exact ⟨_, ⟨e, he, .inr ⟨hlen, rfl⟩⟩, hcut _ (Parts.ofBytes_eq_error.2 (.inr ⟨hlen, hdvd, rfl⟩))⟩

theorem outcome_of_bad_secret (hp : q.Cuts p) (hfail : ¬q.Passes .privateKey) :
    ∃ f, q.Reports .privateKey f ∧ q.outcome = .error f := by
  cases hk : SecretKey.ofWif q.account.wif >>= SecretKey.scalar with
  | ok k => exact absurd ⟨k, hasScalar_iff.2 hk⟩ hfail
  | error f =>
    refine ⟨f, ?_, ?_⟩
    · rcases Outcome.bind_eq_error.1 hk with hwif | ⟨secret, hwif, hscalar⟩
      · exact .inl hwif
      · exact .inr ⟨secret, hwif, SecretKey.scalar_eq_error hscalar⟩
    · rw [outcome_of_cuts hkind hp, sharedSecret_of_secret hk, Outcome.error_bind]

theorem outcome_of_bad_key (hp : q.Cuts p) (hk : q.HasScalar k) (hfail : ¬q.Passes .publicKey) :
    ∃ f, q.Reports .publicKey f ∧ q.outcome = .error f := by
  cases hkey : PublicKey.ofText q.sender PublicKey.usualLabels with
  | ok key => exact absurd ⟨key, hkey⟩ hfail
  | error f =>
    refine ⟨f, hkey, ?_⟩
    rw [outcome_of_cuts hkind hp, sharedSecret_of_publicText (hasScalar_iff.1 hk) hkey,
      Outcome.error_bind]

theorem outcome_of_offCurve (hp : q.Cuts p) (hk : q.HasScalar k) (hkey : q.HasKey key)
    (hfail : ¬q.Passes .point) : q.outcome = .error .offCurve := by
  have hnone : Curve.Point.decompress? key = none := by
    refine Option.eq_none_iff_forall_ne_some.2 fun P hP => ?_
    obtain ⟨hcurve, hne, rfl⟩ := Curve.Point.decompress?_eq_some.1 hP
    exact hfail ⟨P, hkey, hcurve, hne⟩
  rw [outcome_of_cuts hkind hp, sharedSecret_of_offCurve (hasScalar_iff.1 hk) hkey hnone,
    Outcome.error_bind]

theorem outcome_of_unverified (hp : q.Cuts p) (hkeys : q.Shares keys) (hfail : ¬q.Verifies) :
    q.outcome = .error .tagMismatch := by
  have htag : p.tag ≠ keys.tag (p.iv ++ p.ciphertext) :=
    fun htag => hfail ⟨keys, p, hkeys, hp, htag⟩
  rw [outcome_of_shares hkind hp hkeys, Parts.message_of_mismatch htag, Outcome.error_bind]

theorem outcome_of_unfilled (hv : q.Verifies) (hfail : ¬q.Passes .padding) :
    q.outcome = .error .badPadding := by
  obtain ⟨keys, p, hkeys, hp, htag⟩ := hv
  have hfill : ∀ msg, p.filled keys ≠ Padding.fill msg :=
    fun msg hmsg => hfail ⟨msg, keys, p, hkeys, hp, hmsg⟩
  rw [outcome_of_shares hkind hp hkeys, Parts.message_of_unfilled htag hp.dvd hfill,
    Outcome.error_bind]

theorem outcome_of_rejected (hv : q.Verifies) {msg : Bytes} (hmsg : q.Decrypts msg)
    (hfail : ¬q.Passes .record) : q.outcome = .error (.contentRejected q.kindName) := by
  have hnone : Content.ofBytes? kind msg = none :=
    Option.eq_none_iff_forall_ne_some.2 fun record hr => hfail ⟨record, kind, msg, hkind, hmsg, hr⟩
  rw [outcome_of_message hkind hv hmsg, recordOf, hnone, hkind]

end Fails

/-- The first stage that fails reports how the attempt ends. -/
theorem outcome_of_firstFailure {s : Stage} (h : q.FirstFailure s) :
    ∃ f, q.Reports s f ∧ q.outcome = .error f := by
  obtain ⟨hfail, hbefore⟩ := h
  by_cases hs : s = .kind
  · subst hs
    exact ⟨_, rfl, outcome_of_unknown_kind hfail⟩
  -- All other stages are reached with a known kind, and those behind the lengths with an envelope
  -- in parts.
  obtain ⟨kind, hkind⟩ : q.Passes .kind := hbefore .kind (Stage.kind_lt hs)
  have hcuts : .shape < s → ∃ p, q.Cuts p := fun hlt => exists_cuts (hbefore .shape hlt)
  cases s with
  | kind => exact absurd rfl hs
  | text => exact ⟨_, rfl, outcome_of_undecodable hkind hfail⟩
  | shape => exact outcome_of_misshapen hkind (hbefore .text (by decide)) hfail
  | privateKey =>
    obtain ⟨p, hp⟩ := hcuts (by decide)
    exact outcome_of_bad_secret hkind hp hfail
  | publicKey =>
    obtain ⟨p, hp⟩ := hcuts (by decide)
    obtain ⟨k, hk⟩ := hbefore .privateKey (by decide)
    exact outcome_of_bad_key hkind hp hk hfail
  | point =>
    obtain ⟨p, hp⟩ := hcuts (by decide)
    obtain ⟨k, hk⟩ := hbefore .privateKey (by decide)
    obtain ⟨key, hkey⟩ := hbefore .publicKey (by decide)
    exact ⟨_, rfl, outcome_of_offCurve hkind hp hk hkey hfail⟩
  | tag =>
    obtain ⟨p, hp⟩ := hcuts (by decide)
    obtain ⟨keys, hkeys⟩ :=
      exists_shares (hbefore .privateKey (by decide)) (hbefore .point (by decide))
    exact ⟨_, rfl, outcome_of_unverified hkind hp hkeys hfail⟩
  | padding => exact ⟨_, rfl, outcome_of_unfilled hkind (hbefore .tag (by decide)) hfail⟩
  | record =>
    obtain ⟨msg, hmsg⟩ := hbefore .padding (by decide)
    exact ⟨_, rfl, outcome_of_rejected hkind (hbefore .tag (by decide)) hmsg hfail⟩

/-- Where all nine stages pass, reading ends in the record. -/
theorem outcome_of_holds {record : Content} (hv : q.Verifies) (hr : q.Holds record) :
    q.outcome = .ok record := by
  obtain ⟨kind, msg, hkind, hmsg, hrecord⟩ := hr
  rw [outcome_of_message hkind hv hmsg, recordOf, hrecord]

/-- A stage reports one fault. -/
theorem Reports.unique {s : Stage} {f f' : Fault} (h : q.Reports s f) (h' : q.Reports s f') :
    f = f' := by
  cases s with
  | shape =>
    obtain ⟨e, he, hf⟩ := h
    obtain ⟨e', he', hf'⟩ := h'
    obtain rfl := he.unique he'
    rcases hf with ⟨hlt, rfl⟩ | ⟨hle, rfl⟩ <;> rcases hf' with ⟨hlt', rfl⟩ | ⟨hle', rfl⟩
    · rfl
    · exact absurd hlt (Nat.not_lt.2 hle')
    · exact absurd hlt' (Nat.not_lt.2 hle)
    · rfl
  | privateKey =>
    rcases h with h | ⟨secret, hwif, rfl⟩ <;> rcases h' with h' | ⟨secret', hwif', rfl⟩
    · exact Except.error.inj (h.symm.trans h')
    · exact (nomatch h.symm.trans hwif')
    · exact (nomatch h'.symm.trans hwif)
    · rfl
  | publicKey => exact Except.error.inj (Eq.trans (Eq.symm h) h')
  | kind | text | point | tag | padding | record => exact Eq.trans h (Eq.symm h')

theorem Reports.family {s : Stage} {f : Fault} (h : q.Reports s f) : f.family ∈ s.families := by
  cases s with
  | shape => obtain ⟨e, -, ⟨-, rfl⟩ | ⟨-, rfl⟩⟩ := h <;> exact List.mem_cons_self
  | privateKey =>
    rcases h with h | ⟨secret, -, rfl⟩
    · rcases SecretKey.family_of_ofWif h with ⟨hf, -⟩ | ⟨hf, -⟩ <;> simp [Stage.families, hf]
    · exact List.mem_cons_self
  | publicKey =>
    rcases PublicKey.family_of_ofText h with ⟨hf, -⟩ | ⟨hf, -⟩ <;> simp [Stage.families, hf]
  | kind | text | point | tag | padding | record =>
    obtain rfl : f = _ := h
    exact List.mem_cons_self

/-- Reading fails with the fault of the first stage that does not pass. -/
theorem outcome_eq_error {f : Fault} :
    q.outcome = .error f ↔ ∃ s, q.FirstFailure s ∧ q.Reports s f := by
  constructor
  · intro h
    by_cases hall : ∀ s, q.Passes s
    · obtain ⟨record, hr⟩ := hall .record
      rw [outcome_of_holds (hall .tag) hr] at h
      exact (nomatch h)
    · obtain ⟨s, hs⟩ := Stage.exists_first (not_forall.1 hall)
      obtain ⟨g, hg, hend⟩ := outcome_of_firstFailure hs
      obtain rfl := Except.error.inj (hend.symm.trans h)
      exact ⟨s, hs, hg⟩
  · rintro ⟨s, hs, hf⟩
    obtain ⟨g, hg, hend⟩ := outcome_of_firstFailure hs
    rw [hend, hg.unique hf]

/-- Reading succeeds exactly if all stages pass. -/
theorem outcome_eq_ok {record : Content} :
    q.outcome = .ok record ↔ (∀ s, q.Passes s) ∧ q.Holds record := by
  constructor
  · intro h
    have hall : ∀ s, q.Passes s := by
      by_contra hnot
      obtain ⟨s, hs⟩ := Stage.exists_first (not_forall.1 hnot)
      obtain ⟨f, -, hend⟩ := outcome_of_firstFailure hs
      exact (nomatch hend.symm.trans h)
    obtain ⟨record', hr⟩ := hall .record
    obtain rfl := Except.ok.inj ((outcome_of_holds (hall .tag) hr).symm.trans h)
    exact ⟨hall, hr⟩
  · rintro ⟨hall, hr⟩
    exact outcome_of_holds (hall .tag) hr

/-! ### Forgeries -/

/-- Only behind the stage of the tag there is a fault that tells of what was decrypted. -/
theorem verifies_of_outcome {f : Fault} (h : q.outcome = .error f)
    (hf : f = .badPadding ∨ f = .contentRejected q.kindName) : q.Verifies := by
  obtain ⟨s, ⟨-, hbefore⟩, hs⟩ := outcome_eq_error.1 h
  have hlate : s = .padding ∨ s = .record := by
    have hfamily := hs.family
    rcases hf with rfl | rfl
    · cases s <;> simp [Stage.families, Fault.family] at hfamily ⊢
    · cases s with
      | kind => exact (nomatch (show Fault.contentRejected _ = .contentKind _ from hs))
      | record => exact .inr rfl
      | _ => simp [Stage.families, Fault.family] at hfamily
  rcases hlate with rfl | rfl
  · exact hbefore .tag (by decide)
  · exact hbefore .tag (by decide)

/-- How reading an envelope ends whose tag does not verify; the envelope is not asked for. -/
def refusal (account : Account) (sender kindName : Text) : Outcome Content :=
  match ContentKind.named? kindName with
  | none => .error (.contentKind kindName)
  | some _ => sharedSecret account.wif sender >>= fun _ => .error .tagMismatch

/-- An envelope that does not verify ends like any other one. -/
theorem outcome_of_forgery {p : Parts} (hp : q.Cuts p) (hfail : ¬q.Verifies) :
    q.outcome = refusal q.account q.sender q.kindName := by
  by_cases hkind : q.Passes .kind
  · obtain ⟨kind, hkind⟩ := hkind
    have hnamed : ContentKind.named? q.kindName = some kind := hkind ▸ named?_name kind
    simp only [refusal, hnamed]
    cases hsecret : sharedSecret q.account.wif q.sender with
    | error f => rw [outcome_of_cuts hkind hp, hsecret, Outcome.error_bind, Outcome.error_bind]
    | ok secret =>
      rw [outcome_of_unverified hkind hp (shares_iff.2 ⟨secret, hsecret, rfl⟩) hfail,
        Outcome.ok_bind]
  · simp only [outcome_of_unknown_kind hkind, refusal, named?_of_unknown hkind]

/-- Reading ends in exactly one way. A fault is that of the first stage that fails, in the order of
the stages, and of a family of that stage; a record is read where every stage passes, and it is the
one that the envelope holds. The point whose coordinate the secret comes from is not neutral, so
that agreement on keys cannot fail beside the stages. Whether the padding is good, what the
plaintext is and which record it holds shows only where the tag verifies: two envelopes that do not
verify end alike under the same keys, whatever their parts are. -/
theorem outcome_by_first_failure (q : Attempt) :
    (∀ f, q.outcome = .error f ↔ ∃! s, q.FirstFailure s ∧ q.Reports s f) ∧
    (∀ record, q.outcome = .ok record ↔ (∀ s, q.Passes s) ∧ q.Holds record) ∧
    (∀ s f, q.Reports s f → f.family ∈ s.families) ∧
    (∀ k p, q.HasScalar k → q.HasPoint p → p.multiple k ≠ .neutral) ∧
    (∀ f, q.outcome = .error f → f = .badPadding ∨ f = .contentRejected q.kindName → q.Verifies) ∧
    (∀ record, q.outcome = .ok record → q.Verifies) ∧
    (∀ text p p', q.Cuts p → (q.onText text).Cuts p' → ¬q.Verifies → ¬(q.onText text).Verifies →
      (q.onText text).outcome = q.outcome) := by
  refine ⟨fun f => ?_, fun record => outcome_eq_ok, fun s f => Reports.family,
    fun k p => multiple_ne_neutral, fun f => verifies_of_outcome, fun record h => ?_,
    fun text p p' hp hp' hnot hnot' => ?_⟩
  · rw [outcome_eq_error]
    constructor
    · rintro ⟨s, hs, hf⟩
      exact ⟨s, ⟨hs, hf⟩, fun r hr => Stage.eq_of_first hr.1 hs⟩
    · exact ExistsUnique.exists
  · exact (outcome_eq_ok.1 h).1 .tag
  · rw [outcome_of_forgery hp hnot, outcome_of_forgery hp' hnot']
    rfl

/-- The holder of the private key 1 and an envelope from its own public key, with a ciphertext of
one repeated byte and no proper tag. -/
def forged (b : UInt8) : Attempt where
  account := ⟨"5HpHagT65TZzG1PH3CSu63k8DbpvD8s5ip4nEB3kEsreAnchuDf".toList, [], []⟩
  sender := "EOS6MRyAjQq8ud7hVNYcfnVPJqcVpscN5So8BhtHuGYqET5GDW5CV".toList
  text := Text.Hex.encode (Bytes.zeros 16 ++ List.replicate 16 b ++ Bytes.zeros 32)
  kindName := ContentKind.request.name
  asked := none
  settings := .hex

theorem cuts_forged (b : UInt8) :
    (forged b).Cuts ⟨Bytes.zeros 16, List.replicate 16 b, Bytes.zeros 32⟩ := by
  have hencoding : (forged b).encoding = "hex".toList := rfl
  have hdecode : bytesOf? (forged b).text (forged b).encoding =
      some (Bytes.zeros 16 ++ List.replicate 16 b ++ Bytes.zeros 32) := by
    rw [bytesOf?, if_pos hencoding]
    exact Text.Hex.decode?_encode _
  exact ⟨hdecode, rfl, rfl, dvd_refl 16, le_refl 16⟩

/-- Two forgeries with different ciphertexts fail at the tag and end alike. -/
theorem forged_end_alike : (forged 0).outcome = .error .tagMismatch ∧ (forged 0).FirstFailure .tag ∧
    (forged 1).FirstFailure .tag ∧ (forged 1).outcome = (forged 0).outcome := by
  have htag : ∀ b, (forged b).outcome = .error .tagMismatch → (forged b).FirstFailure .tag := by
    intro b h
    obtain ⟨s, ⟨hs, hf⟩, -⟩ := ((outcome_by_first_failure (forged b)).1 _).1 h
    have hfamily : Family.authentication ∈ s.families :=
      (outcome_by_first_failure (forged b)).2.2.1 s _ hf
    obtain rfl : s = .tag := by
      revert hfamily
      cases s <;> decide
    exact hs
  have hzero : (forged 0).outcome = .error .tagMismatch := by decide +kernel
  have hone : (forged 1).outcome = .error .tagMismatch := by decide +kernel
  have halike :=
    (outcome_by_first_failure (forged 0)).2.2.2.2.2.2 (forged 1).text _ _ (cuts_forged 0)
      (cuts_forged 1) (htag 0 hzero).1 (htag 1 hone).1
  exact ⟨hzero, htag 0 hzero, htag 1 hone, halike⟩

end Attempt

end Keyring.Message
