import Keyring.Key.Secret
import Keyring.Proofs.Base58.Checked
import Keyring.Proofs.Text.Words

/-!
# The accepted texts of a private key

Behind the checksum, wallet import format is a version byte, the 32 bytes of the key and possibly a
flag (`wrapped`). The length of the payload tells the two forms apart, so the last byte of a key is
never taken for the flag. No Base58 symbol is a blank, hence trimming changes nothing in a written
text.
-/

namespace Keyring.SecretKey

open Base58

/-! ### Payloads -/

/-- The payload of a private key in one of the two forms. -/
def wrapped (secret : Bytes) (compressed : Bool) : Bytes :=
  version :: secret ++ if compressed then [flag] else []

/-- The private key that a payload holds. -/
def unwrap (payload : Bytes) : Outcome Bytes := do
  if payload.length ≠ 33 ∧ payload.length ≠ 34 then throw (.wifLength payload.length)
  let first := payload.headD 0
  if first ≠ version then throw (.wifVersion first)
  if payload.length = 34 ∧ payload.getLast? ≠ some flag then throw .wifFlag
  return payload.tail.take 32

theorem ofWif_eq_bind (wif : Text) : ofWif wif = Checked.decode wif.trim >>= unwrap := rfl

variable {secret payload : Bytes} {f : Fault}

theorem toWif_eq_ok {compressed : Bool} {text : Text} : toWif secret compressed = .ok text ↔
    secret.length = 32 ∧ text = Checked.encode (wrapped secret compressed) := by
  simp only [toWif, Outcome.throw_eq, Outcome.error_bind, Outcome.check_eq_ok, Outcome.pure_eq,
    Except.ok.injEq, not_not, eq_comm (a := text)]
  rfl

/-- A wrapped key is taken out again. -/
theorem unwrap_wrapped (h : secret.length = 32) (compressed : Bool) :
    unwrap (wrapped secret compressed) = .ok secret := by
  have htake : (secret ++ if compressed then [flag] else []).take 32 = secret := by
    rw [← h, List.take_left]
  simp only [unwrap, Outcome.throw_eq, Outcome.error_bind, Outcome.check_eq_ok, Outcome.pure_eq,
    Except.ok.injEq]
  refine ⟨?_, not_not.2 rfl, ?_, htake⟩
  · cases compressed <;> simp [wrapped, h]
  · rintro ⟨hlen, hlast⟩
    cases compressed with
    | false => simp [wrapped, h] at hlen
    | true => exact hlast (List.getLast?_concat (l := version :: secret))

/-- The last byte is the flag exactly where the payload is one byte longer than version and key. -/
theorem unwrap_eq_ok :
    unwrap payload = .ok secret ↔
      secret.length = 32 ∧ ∃ compressed, payload = wrapped secret compressed := by
  constructor
  · intro h
    simp only [unwrap, Outcome.throw_eq, Outcome.error_bind, Outcome.check_eq_ok, Outcome.pure_eq,
      Except.ok.injEq] at h
    obtain ⟨hlen, hversion, hflag, rfl⟩ := h
    cases payload with
    | nil => simp at hlen
    | cons b rest =>
      obtain rfl : b = version := not_not.1 hversion
      rw [List.length_cons] at hlen
      rw [List.tail_cons]
      have hrest : rest.length = 32 ∨ rest.length = 33 := by omega
      refine ⟨by rw [List.length_take]; omega, ?_⟩
      rcases hrest with hshort | hlong
      · refine ⟨false, ?_⟩
        rw [wrapped, List.take_of_length_le hshort.le]
        simp
      · refine ⟨true, ?_⟩
        have hlast : rest.getLast? = some flag := by
          have hlast := not_not.1 (not_and.1 hflag (by rw [List.length_cons, hlong]))
          rwa [List.getLast?_cons_of_ne_nil (List.ne_nil_of_length_pos (by omega))] at hlast
        have hdrop : rest.drop 32 = [flag] := by
          obtain ⟨c, hc⟩ : ∃ c, rest.drop 32 = [c] :=
            List.length_eq_one_iff.1 (by rw [List.length_drop, hlong])
          rw [← List.take_append_drop 32 rest, hc, List.getLast?_concat] at hlast
          rw [hc, Option.some.inj hlast]
        rw [wrapped, if_pos rfl, List.cons_append, ← hdrop, List.take_append_drop]
  · rintro ⟨h, compressed, rfl⟩
    exact unwrap_wrapped h compressed

theorem family_of_unwrap (h : unwrap payload = .error f) : f.family = .key := by
  simp only [unwrap, Outcome.throw_eq, Outcome.error_bind, Outcome.check_eq_error,
    Outcome.pure_eq] at h
  rcases h with ⟨-, rfl⟩ | ⟨-, ⟨-, rfl⟩ | ⟨-, ⟨-, rfl⟩ | ⟨-, h⟩⟩⟩
  · rfl
  · rfl
  · rfl
  · exact (nomatch h)

/-- A version byte that is told as wrong stands at the start of the payload. -/
theorem head_of_unwrap_version {b : UInt8} (h : unwrap payload = .error (.wifVersion b)) :
    ∃ rest, payload = b :: rest := by
  simp only [unwrap, Outcome.throw_eq, Outcome.error_bind, Outcome.check_eq_error,
    Outcome.pure_eq] at h
  rcases h with ⟨-, heq⟩ | ⟨hlen, ⟨-, heq⟩ | ⟨-, ⟨-, heq⟩ | ⟨-, heq⟩⟩⟩
  · exact (nomatch heq)
  · cases payload with
    | nil => simp at hlen
    | cons c rest =>
      obtain rfl := Fault.wifVersion.inj heq
      exact ⟨rest, rfl⟩
  · exact (nomatch heq)
  · exact (nomatch heq)

/-! ### Texts -/

theorem isBlank_of_mem_alphabet {c : Char} (h : c ∈ alphabet) : Text.isBlank c = false := by
  have hall : alphabet.all fun c => !Text.isBlank c := by decide +kernel
  simpa using List.all_eq_true.1 hall c h

/-- Blanks around a written text do not count. -/
theorem trim_encode {pre post : Text} (hpre : ∀ c ∈ pre, Text.isBlank c)
    (hpost : ∀ c ∈ post, Text.isBlank c) (payload : Bytes) :
    (pre ++ Checked.encode payload ++ post).trim = Checked.encode payload := by
  have hmem : ∀ c ∈ Checked.encode payload, Text.isBlank c = false := fun c hc =>
    isBlank_of_mem_alphabet (mem_alphabet_of_mem_encode hc)
  exact Text.trimBy_surrounded hpre hpost (fun c hc => hmem c (List.mem_of_head? hc))
    fun c hc => hmem c (List.mem_of_getLast? hc)

/-- Reading accepts the two written forms, trimmed, and no other text. -/
theorem ofWif_eq_ok {wif : Text} : ofWif wif = .ok secret ↔
    secret.length = 32 ∧ ∃ compressed, wif.trim = Checked.encode (wrapped secret compressed) := by
  simp only [ofWif_eq_bind, Outcome.bind_eq_ok, Checked.decode_eq_ok, unwrap_eq_ok]
  constructor
  · rintro ⟨payload, htext, hlen, compressed, rfl⟩
    exact ⟨hlen, compressed, htext⟩
  · rintro ⟨hlen, compressed, htext⟩
    exact ⟨_, htext, hlen, compressed, rfl⟩

theorem ofWif_of_toWif {compressed : Bool} {wif : Text} (h : toWif secret compressed = .ok wif) :
    ofWif wif = .ok secret := by
  obtain ⟨hlen, rfl⟩ := toWif_eq_ok.1 h
  have htrim : Text.trim (Checked.encode (wrapped secret compressed)) =
      Checked.encode (wrapped secret compressed) :=
    Text.trimBy_of_forall fun c hc => isBlank_of_mem_alphabet (mem_alphabet_of_mem_encode hc)
  exact ofWif_eq_ok.2 ⟨hlen, compressed, htrim⟩

/-- How a text can be refused, and what is then true of its characters. -/
theorem ofWif_eq_error {wif : Text} (h : ofWif wif = .error f) :
    (∃ c ∈ wif.trim, c ∉ alphabet ∧ f = .alienSymbol c) ∨
      ((∀ c ∈ wif.trim, c ∈ alphabet) ∧ (f = .checkedTooShort ∨ f = .checkedMismatch ∨
        ∃ payload, Checked.decode wif.trim = .ok payload ∧ unwrap payload = .error f)) := by
  rw [ofWif_eq_bind, Outcome.bind_eq_error] at h
  rcases h with h | ⟨payload, htext, h⟩
  · rcases Checked.fault_of_decode h with hc | ⟨hf | hf, hall⟩
    · exact .inl hc
    · exact .inr ⟨hall, .inl hf⟩
    · exact .inr ⟨hall, .inr (.inl hf)⟩
  · refine .inr ⟨?_, .inr (.inr ⟨payload, htext, h⟩)⟩
    rw [Checked.decode_eq_ok.1 htext]
    exact fun c hc => mem_alphabet_of_mem_encode hc

theorem family_of_ofWif {wif : Text} (h : ofWif wif = .error f) :
    (f.family = .base58 ∧ ∃ c ∈ wif.trim, c ∉ alphabet) ∨
      (f.family = .key ∧ ∀ c ∈ wif.trim, c ∈ alphabet) := by
  rcases ofWif_eq_error h with ⟨c, hc, hn, rfl⟩ | ⟨hall, rfl | rfl | ⟨payload, -, hf⟩⟩
  · exact .inl ⟨rfl, c, hc, hn⟩
  · exact .inr ⟨rfl, hall⟩
  · exact .inr ⟨rfl, hall⟩
  · exact .inr ⟨family_of_unwrap hf, hall⟩

theorem head_of_ofWif_version {wif : Text} {b : UInt8} (h : ofWif wif = .error (.wifVersion b)) :
    ∃ rest, Checked.decode wif.trim = .ok (b :: rest) := by
  rcases ofWif_eq_error h with ⟨c, -, -, hf⟩ | ⟨-, hf | hf | ⟨payload, htext, hf⟩⟩
  · exact (nomatch hf)
  · exact (nomatch hf)
  · exact (nomatch hf)
  · obtain ⟨rest, rfl⟩ := head_of_unwrap_version hf
    exact ⟨rest, htext⟩

/-- Wallet import format is read as a key exactly if, trimmed, it is one of the two written forms of
these 32 bytes. A refusal is about the alphabet if the trimmed text has a character outside it and
about the key otherwise; a version byte that it names was read. So both forms of every key can be
read, with any blanks around them. -/
theorem ofWif_accepts_both_forms (wif : Text) :
    (∀ key, ofWif wif = .ok key ↔
      key.length = 32 ∧ (toWif key false = .ok wif.trim ∨ toWif key true = .ok wif.trim)) ∧
    (∀ f, ofWif wif = .error f → (f.family = .base58 ∨ f.family = .key) ∧
      (f.family = .base58 ↔ ∃ c ∈ wif.trim, c ∉ alphabet) ∧
      ∀ b, f = .wifVersion b → ∃ rest, Checked.decode wif.trim = .ok (b :: rest)) ∧
    (∀ key compressed, key.length = 32 → ∃ written, toWif key compressed = .ok written ∧
      ∀ pre post, (∀ c ∈ pre, Text.isBlank c) → (∀ c ∈ post, Text.isBlank c) →
        ofWif (pre ++ written ++ post) = .ok key) := by
  refine ⟨fun key => ?_, fun f h => ?_, fun key compressed hlen => ?_⟩
  · rw [ofWif_eq_ok, toWif_eq_ok, toWif_eq_ok, ← and_or_left, Bool.exists_bool, and_self_left]
  · refine ⟨?_, ?_, ?_⟩
    · rcases family_of_ofWif h with ⟨hf, -⟩ | ⟨hf, -⟩
      · exact .inl hf
      · exact .inr hf
    · rcases family_of_ofWif h with ⟨hf, hc⟩ | ⟨hf, hall⟩
      · exact ⟨fun _ => hc, fun _ => hf⟩
      · exact ⟨fun hb => (by simp [hf] at hb), fun ⟨c, hc, hn⟩ => absurd (hall c hc) hn⟩
    · rintro b rfl
      exact head_of_ofWif_version h
  · refine ⟨_, toWif_eq_ok.2 ⟨hlen, rfl⟩, fun pre post hpre hpost => ?_⟩
    exact ofWif_eq_ok.2 ⟨hlen, compressed, trim_encode hpre hpost _⟩

/-- The private key 1, whose last byte looks like the flag, in its compressed form and between
blanks in the other, and a text outside the alphabet. -/
theorem ofWif_one_like_flag :
    ofWif "KwDiBf89QgGbjEhKnhXJuH7LrciVrZi3qYjgd9M7rFU73sVHnoWn".toList = .ok (Bytes.ofNat 32 1) ∧
    (∃ written, toWif (Bytes.ofNat 32 1) false = .ok written ∧
      ofWif (['\n', ' '] ++ written ++ ['\u3000']) = .ok (Bytes.ofNat 32 1)) ∧
    ∃ f, ofWif ['0'] = .error f ∧ f.family = .base58 := by
  refine ⟨?_, ?_, ?_⟩
  · have hform : toWif (Bytes.ofNat 32 1) true =
        .ok (Text.trim "KwDiBf89QgGbjEhKnhXJuH7LrciVrZi3qYjgd9M7rFU73sVHnoWn".toList) := by
      decide +kernel
    exact ((ofWif_accepts_both_forms _).1 _).2 ⟨rfl, .inr hform⟩
  · obtain ⟨written, hwritten, hread⟩ :=
      (ofWif_accepts_both_forms []).2.2 (Bytes.ofNat 32 1) false rfl
    have hpre : ∀ c ∈ ['\n', ' '], Text.isBlank c :=
      List.forall_mem_cons.2 ⟨rfl, List.forall_mem_singleton.2 rfl⟩
    exact ⟨written, hwritten, hread _ _ hpre (List.forall_mem_singleton.2 rfl)⟩
  · cases hread : ofWif ['0'] with
    | error f => exact ⟨f, rfl,
      ((ofWif_accepts_both_forms ['0']).2.1 f hread).2.1.2 ⟨'0', by decide, by decide⟩⟩
    | ok key =>
      have hnot : (ofWif ['0']).isOk = false := by decide +kernel
      rw [hread] at hnot
      cases hnot

end Keyring.SecretKey
