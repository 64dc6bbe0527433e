import Keyring.Proofs.Bytes
import Keyring.Proofs.Key.Child

/-!
# The serialized form of extended keys

The serialized form is made of fields of fixed width: version, place in the tree, chain code and
key. Where the parts of a key fill their fields (`Fits`), no two keys have the same form. In
Base58Check the version decides the first four symbols and the length of the text, whatever the
other 74 bytes and the checksum are.

* `Fits.serialize_eq`: the fields of a serialized key.
* `Fits.eq_of_serialize`, `Fits.eq_of_toText`: a key is determined by its serialized form and by its
  text.
* `exists_encode_versionBytes`: the first symbols and the length of a text.
* `serialize_of_out_of_range`: a number out of range makes no form.
* `serialized_form_of_fits`: the form, the text, and the form of the public counterpart.
-/

namespace Keyring.ExtendedKey

/-- The parts of the key fill their fields in the serialized form. -/
structure Fits (k : ExtendedKey) : Prop where
  depth_range : 0 ≤ k.depth ∧ k.depth ≤ 255
  childIndex_range : 0 ≤ k.childIndex ∧ k.childIndex < 2 ^ 32
  length_parentFingerprint : k.parentFingerprint.length = 4
  length_chainCode : k.chainCode.length = 32
  length_key : k.key.length = if k.isPrivate then 32 else 33

/-- The fields for the place in the tree and the chain code, which a key shares with its public
counterpart. -/
def placeFields (k : ExtendedKey) : Bytes :=
  Bytes.ofNat 1 k.depth.toNat ++
    (k.parentFingerprint ++ (Bytes.ofNat 4 k.childIndex.toNat ++ k.chainCode))

/-- The field for the key, with a zero byte in front of a private one. -/
def keyField (k : ExtendedKey) : Bytes :=
  if k.isPrivate then 0 :: k.key else k.key

/-- How the text of a key begins. -/
def textStart (isPrivate : Bool) : Text :=
  if isPrivate then "xprv".toList else "xpub".toList

theorem length_versionBytes (isPrivate : Bool) : (versionBytes isPrivate).length = 4 := by
  cases isPrivate <;> rfl

theorem versionBytes_injective : Function.Injective versionBytes := by
  decide

theorem key_eq_of_keyField {k k' : ExtendedKey} (hprivate : k.isPrivate = k'.isPrivate)
    (h : k.keyField = k'.keyField) : k.key = k'.key := by
  unfold keyField at h
  rw [← hprivate] at h
  cases hp : k.isPrivate with
  | false => simpa [hp] using h
  | true => simpa [hp] using h

/-! ### Fields of a key -/

namespace Fits

variable {k k' : ExtendedKey} (h : Fits k)

include h

theorem serialize_eq :
    k.serialize = .ok (versionBytes k.isPrivate ++ (k.placeFields ++ k.keyField)) := by
  have hdepth : 0 ≤ k.depth ∧ k.depth < 256 :=
    ⟨h.depth_range.1, Int.lt_add_one_of_le h.depth_range.2⟩
  rw [serialize_eq_ok.2 ⟨hdepth, h.childIndex_range, rfl⟩]
  simp only [placeFields, keyField, List.append_assoc]

theorem toText_eq : k.toText =
    .ok (Base58.Checked.encode (versionBytes k.isPrivate ++ (k.placeFields ++ k.keyField))) := by
  rw [toText, h.serialize_eq]
  rfl

theorem length_placeFields : k.placeFields.length = 41 := by
  simp only [placeFields, List.length_append, Bytes.length_ofNat, h.length_parentFingerprint,
    h.length_chainCode]

theorem length_keyField : k.keyField.length = 33 := by
  have hkey := h.length_key
  unfold keyField
  cases hp : k.isPrivate with
  | false => simpa [hp] using hkey
  | true => simpa [hp] using hkey

theorem length_serialize {bs : Bytes} (hbs : k.serialize = .ok bs) : bs.length = 78 := by
  rw [h.serialize_eq] at hbs
  rw [← Except.ok.inj hbs, List.length_append, List.length_append, length_versionBytes,
    h.length_placeFields, h.length_keyField]

theorem place_eq (h' : Fits k') (heq : k.placeFields = k'.placeFields) : k.depth = k'.depth ∧
    k.parentFingerprint = k'.parentFingerprint ∧ k.childIndex = k'.childIndex ∧
      k.chainCode = k'.chainCode := by
  obtain ⟨hdepth, heq⟩ := List.append_inj heq (by rw [Bytes.length_ofNat, Bytes.length_ofNat])
  obtain ⟨hfp, heq⟩ :=
    List.append_inj heq (h.length_parentFingerprint.trans h'.length_parentFingerprint.symm)
  obtain ⟨hindex, hchain⟩ := List.append_inj heq (by rw [Bytes.length_ofNat, Bytes.length_ofNat])
  have hd := h.depth_range
  have hi := h.childIndex_range
  have hd' := h'.depth_range
  have hi' := h'.childIndex_range
  rw [Bytes.ofNat_inj (by omega) (by omega)] at hdepth hindex
  exact ⟨by omega, hfp, by omega, hchain⟩

theorem eq_of_serialize (h' : Fits k') (heq : k.serialize = k'.serialize) : k = k' := by
  rw [h.serialize_eq, h'.serialize_eq] at heq
  have hlen : (versionBytes k.isPrivate).length = (versionBytes k'.isPrivate).length := by
    rw [length_versionBytes, length_versionBytes]
  obtain ⟨hversion, heq⟩ := List.append_inj (Except.ok.inj heq) hlen
  obtain ⟨hplace, hfield⟩ :=
    List.append_inj heq (h.length_placeFields.trans h'.length_placeFields.symm)
  obtain ⟨hdepth, hfp, hindex, hchain⟩ := h.place_eq h' hplace
  have hprivate : k.isPrivate = k'.isPrivate := versionBytes_injective hversion
  have hkey : k.key = k'.key := key_eq_of_keyField hprivate hfield
  cases k
  cases k'
  simp only at hdepth hfp hindex hchain hprivate hkey
  rw [hdepth, hfp, hindex, hchain, hprivate, hkey]

end Fits

/-- The keys in the tree of a seed fill their fields, down to the last depth that has a form. -/
theorem Sound.fits {k : ExtendedKey} (h : Sound k) (hdepth : k.depth ≤ 255) : Fits k where
  depth_range := ⟨h.depth_nonneg, hdepth⟩
  childIndex_range := h.childIndex_range
  length_parentFingerprint := h.length_parentFingerprint
  length_chainCode := h.length_chainCode
  length_key := h.length_key

theorem Sound.length_serialize {k : ExtendedKey} (h : Sound k) {bs : Bytes}
    (hbs : k.serialize = .ok bs) : bs.length = 78 :=
  (h.fits (h.exists_serialize_iff.1 ⟨bs, hbs⟩)).length_serialize hbs

/-! ### The text of a key -/

/-- The four upper digits of each version stay the same for all 78 bytes that can follow it. -/
theorem exists_leading_digits (isPrivate : Bool) : ∃ v : ℕ, 0 < v ∧
    v * 58 ^ 107 ≤ (versionBytes isPrivate).toNat * 256 ^ 78 ∧
    ((versionBytes isPrivate).toNat + 1) * 256 ^ 78 ≤ (v + 1) * 58 ^ 107 ∧
    (Radix.digits 58 v).map Base58.symbol = textStart isPrivate := by
  -- The two numbers are what the four symbols spell in base 58.
  cases isPrivate with
  | false => exact ⟨10892318, by decide, by decide, by decide, by decide⟩
  | true => exact ⟨10892163, by decide, by decide, by decide, by decide⟩

theorem exists_encode_versionBytes (isPrivate : Bool) {rest : Bytes} (h : rest.length = 74) :
    ∃ tail : Text, tail.length = 107 ∧
      Base58.Checked.encode (versionBytes isPrivate ++ rest) = textStart isPrivate ++ tail := by
  obtain ⟨v, hv, hlow, hhigh, hstart⟩ := exists_leading_digits isPrivate
  set sum := Base58.Checked.checksum (versionBytes isPrivate ++ rest)
  have hlen : (rest ++ sum).length = 78 := by
    rw [List.length_append, h, Base58.Checked.length_checksum]
  obtain ⟨hle, hlt⟩ := Bytes.toNat_append_bounds (versionBytes isPrivate) (rest ++ sum)
  rw [hlen] at hle hlt
  obtain ⟨bs, hbs⟩ : ∃ bs, versionBytes isPrivate ++ (rest ++ sum) = 4 :: bs := by
    cases isPrivate <;> exact ⟨_, rfl⟩
  -- The version does not begin with a zero byte, so the text has no ones in front of its digits.
  rw [hbs] at hle hlt
  rw [Base58.Checked.encode, List.append_assoc, hbs, ← hstart]
  exact Base58.exists_encode_eq_append (by decide) hv (hlow.trans hle) (hlt.trans_le hhigh)

namespace Fits

variable {k k' : ExtendedKey} (h : Fits k)

include h

theorem exists_toText : ∃ text tail : Text, k.toText = .ok text ∧ tail.length = 107 ∧
    text = textStart k.isPrivate ++ tail := by
  have hrest : (k.placeFields ++ k.keyField).length = 74 := by
    rw [List.length_append, h.length_placeFields, h.length_keyField]
  obtain ⟨tail, htail, htext⟩ := exists_encode_versionBytes k.isPrivate hrest
  exact ⟨_, tail, h.toText_eq, htail, htext⟩

theorem eq_of_toText (h' : Fits k') (heq : k.toText = k'.toText) : k = k' := by
  rw [h.toText_eq, h'.toText_eq] at heq
  have hbytes := Base58.Checked.encode_injective (Except.ok.inj heq)
  exact h.eq_of_serialize h' (by rw [h.serialize_eq, h'.serialize_eq, hbytes])

/-! ### The public counterpart -/

theorem neuter {p : ExtendedKey} (hp : k.neuter = .ok p) : Fits p ∧ p.isPrivate = false ∧
    p.placeFields = k.placeFields ∧ k.publicKey = .ok p.key := by
  cases hprivate : k.isPrivate with
  | false =>
    rw [neuter_of_public hprivate] at hp
    obtain rfl := Except.ok.inj hp
    exact ⟨h, hprivate, rfl, by rw [publicKey, hprivate]; rfl⟩
  | true =>
    rw [ExtendedKey.neuter, if_pos hprivate] at hp
    obtain ⟨key, hkey, hp⟩ := Outcome.bind_eq_ok.1 hp
    obtain rfl := Except.ok.inj hp
    obtain ⟨-, rfl⟩ := (publicKey_of_private hprivate).1 hkey
    exact ⟨{ h with length_key := Curve.Point.length_compress _ }, rfl, rfl, hkey⟩

end Fits

variable {k p : ExtendedKey}

/-- The form of the public counterpart, field by field. -/
theorem Fits.serialize_neuter (h : Fits k) (hp : k.neuter = .ok p) :
    p.serialize = .ok (versionBytes false ++ (k.placeFields ++ p.key)) := by
  obtain ⟨hfits, hpublic, hplace, -⟩ := h.neuter hp
  have hkey : p.keyField = p.key := by
    rw [keyField, hpublic]
    rfl
  rw [hfits.serialize_eq, hpublic, hplace, hkey]

theorem fault_of_field {w : ℕ} {n : Int} {f : Fault} (h : field w n = .error f) :
    f = .fieldOverflow := by
  unfold field at h
  split at h
  · exact (nomatch h)
  · exact (Except.error.inj h).symm

theorem serialize_of_out_of_range
    (h : ¬((0 ≤ k.depth ∧ k.depth ≤ 255) ∧ (0 ≤ k.childIndex ∧ k.childIndex < 2 ^ 32))) :
    k.serialize = .error .fieldOverflow := by
  cases hs : k.serialize with
  | ok bs =>
    obtain ⟨hdepth, hindex, -⟩ := serialize_eq_ok.1 hs
    exact absurd ⟨⟨hdepth.1, by omega⟩, hindex⟩ h
  | error f =>
    simp only [serialize, Outcome.bind_eq_error, Outcome.pure_eq, reduceCtorEq, and_false,
      exists_false, or_false] at hs
    rcases hs with hdepth | ⟨-, -, hindex⟩
    · rw [fault_of_field hdepth]
    · rw [fault_of_field hindex]

/-- Where the parts of a key fill their fields, the serialized form has 78 bytes and its text 111
characters, the first four of which tell private from public keys. The form is read back from the
text, and either determines the key. The public counterpart has the form of the key but for the
version in front and the compressed public key at the end. A depth or an index that its field does
not hold leaves a key without a form. -/
theorem serialized_form_of_fits :
    (∀ k : ExtendedKey, Fits k → ∃ bs text, k.serialize = .ok bs ∧ k.toText = .ok text ∧
      bs.length = 78 ∧ text.length = 111 ∧
      text.take 4 = (if k.isPrivate then "xprv".toList else "xpub".toList) ∧
      Base58.Checked.decode text = .ok bs) ∧
    (∀ k k' : ExtendedKey, Fits k → Fits k' → k.serialize = k'.serialize ∨ k.toText = k'.toText →
      k = k') ∧
    (∀ k p : ExtendedKey, Fits k → k.neuter = .ok p →
      ∃ bs bs' key, k.serialize = .ok bs ∧ p.serialize = .ok bs' ∧
      k.publicKey = .ok key ∧ key.length = 33 ∧ (bs'.drop 4).take 41 = (bs.drop 4).take 41 ∧
      bs'.drop 45 = key ∧ (k.isPrivate = true → key = (Curve.base.multiple k.key.toNat).compress)) ∧
    ∀ k : ExtendedKey,
      ¬(0 ≤ k.depth ∧ k.depth ≤ 255) ∨ ¬(0 ≤ k.childIndex ∧ k.childIndex < 2 ^ 32) →
      k.serialize = .error .fieldOverflow ∧ k.toText = .error .fieldOverflow := by
  refine ⟨fun k h => ?_, fun k k' h h' heq => ?_, fun k p h hp => ?_, fun k h => ?_⟩
  · obtain ⟨text, tail, htext, htail, rfl⟩ := h.exists_toText
    have hstart : (textStart k.isPrivate).length = 4 := by
      cases k.isPrivate <;> rfl
    refine ⟨_, _, h.serialize_eq, htext, ?_, ?_, ?_, ?_⟩
    · exact h.length_serialize h.serialize_eq
    · rw [List.length_append, hstart, htail]
    · rw [← hstart, List.take_left, textStart]
    · exact Base58.Checked.decode_eq_ok.2 (Except.ok.inj (htext.symm.trans h.toText_eq))
  · rcases heq with heq | heq
    · exact h.eq_of_serialize h' heq
    · exact h.eq_of_toText h' heq
  · obtain ⟨hfits, hpublic, -, hkey⟩ := h.neuter hp
    refine ⟨_, _, p.key, h.serialize_eq, h.serialize_neuter hp, hkey, ?_, ?_, ?_,
      fun hprivate => ?_⟩
    · simpa [hpublic] using hfits.length_key
    · rw [List.drop_left' (length_versionBytes _), List.drop_left' (length_versionBytes _),
        List.take_left' h.length_placeFields, List.take_left' h.length_placeFields]
    · have hfront : (versionBytes false ++ k.placeFields).length = 45 := by
        rw [List.length_append, length_versionBytes, h.length_placeFields]
      rw [← List.append_assoc, List.drop_left' hfront]
    · exact ((publicKey_of_private hprivate).1 hkey).2
  · have hs := serialize_of_out_of_range (not_and_or.2 h)
    exact ⟨hs, by rw [toText, hs]; rfl⟩

/-- The scalar 1 at the last depth and the last index, and one step deeper. -/
theorem serialized_form_at_last_place :
    let k := ExtendedKey.mk (Bytes.ofNat 32 1) (Bytes.zeros 32) 255 (Bytes.zeros 4) (2 ^ 32 - 1)
      true
    (∃ bs text, k.serialize = .ok bs ∧ k.toText = .ok text ∧ bs.length = 78 ∧ text.length = 111 ∧
      text.take 4 = "xprv".toList ∧ Base58.Checked.decode text = .ok bs) ∧
    k.toText ≠ { k with childIndex := 0 }.toText ∧
    (∃ p bs bs' key, k.neuter = .ok p ∧ k.serialize = .ok bs ∧ p.serialize = .ok bs' ∧
      key.length = 33 ∧ (bs'.drop 4).take 41 = (bs.drop 4).take 41 ∧ bs'.drop 45 = key ∧
        key = (Curve.base.multiple 1).compress) ∧
    { k with depth := 256 }.serialize = .error .fieldOverflow := by
  intro k
  have hfits : Fits k := ⟨by decide, by decide, rfl, rfl, rfl⟩
  have hfits' : Fits { k with childIndex := 0 } := ⟨by decide, by decide, rfl, rfl, rfl⟩
  refine ⟨serialized_form_of_fits.1 k hfits, ?_, ?_, ?_⟩
  · intro heq
    exact absurd (congrArg childIndex (serialized_form_of_fits.2.1 _ _ hfits hfits' (.inr heq)))
      (by decide)
  · have hok : k.neuter.isOk = true := by
      decide +kernel
    obtain ⟨p, hp⟩ := Outcome.exists_of_isOk hok
    obtain ⟨bs, bs', key, hbs, hbs', -, hlen, hplace, hend, hkey⟩ :=
      serialized_form_of_fits.2.2.1 k p hfits hp
    exact ⟨p, bs, bs', key, hp, hbs, hbs', hlen, hplace, hend, hkey rfl⟩
  · exact (serialized_form_of_fits.2.2.2 { k with depth := 256 } (.inl (by decide))).1

end Keyring.ExtendedKey
