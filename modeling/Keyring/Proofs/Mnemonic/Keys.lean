import Keyring.Account
import Keyring.Mnemonic.Keys
import Keyring.Proofs.Agreement
import Keyring.Proofs.Key.Path
import Keyring.Proofs.Key.Secret

/-!
# The key pairs of a branch

The path of a branch is written out of five numbers, so the key at its end is reached by five child
derivations (`Branch.leaf`). This key is shown as a pair: the private key in its uncompressed form,
and the public key under the wallet's own label. Both texts are read back as what they show.
-/

namespace Keyring

/-! ### The path of a branch -/

namespace Branch

variable (b : Branch) {root child : ExtendedKey} {index : Int}

/-- The key at an index of a branch, child by child. -/
def leaf (root : ExtendedKey) (index : Int) : Outcome ExtendedKey := do
  let purpose ← root.child (2 ^ 31 + 44)
  let coin ← purpose.child (2 ^ 31 + b.coinType)
  let account ← coin.child (2 ^ 31 + b.account)
  let change ← account.child b.change
  change.child index

/-- The parts of the path of a key of a branch. -/
def parts (index : Fin ExtendedKey.hardenedOffset) : List Path.Part :=
  [⟨44, true, by decide⟩, ⟨b.coinType, true, b.coinType.isLt⟩, ⟨b.account, true, b.account.isLt⟩,
    ⟨b.change, false, b.change.isLt⟩, ⟨index, false, index.isLt⟩]

theorem path_eq (index : Fin ExtendedKey.hardenedOffset) :
    b.path (index : ℕ) = Path.Part.path (b.parts index) := by
  have hstart : "m/44'/".toList = 'm' :: '/' :: (['4', '4'] ++ ['\'']) ++ ['/'] := rfl
  have hmark : "'/".toList = ['\'', '/'] := rfl
  have hpurpose : Text.ofNat 44 = ['4', '4'] := by decide
  unfold path
  rw [Text.ofInt_natCast, hstart, hmark]
  unfold parts Path.Part.path
  simp only [List.map_cons, List.map_nil, Path.Part.written, Text.joinWith, if_true,
    Bool.false_eq_true, if_false, List.append_nil]
  rw [hpurpose]
  simp only [List.append_assoc, List.cons_append, List.nil_append]

theorem exists_index_eq (h : 0 ≤ index ∧ index < 2 ^ 31) :
    ∃ i : Fin ExtendedKey.hardenedOffset, index = (i : ℕ) := by
  lift index to ℕ using h.1
  have hlt : index < ExtendedKey.hardenedOffset := by exact_mod_cast h.2
  exact ⟨⟨index, hlt⟩, rfl⟩

/-- The path of a branch is derived number by number. -/
theorem derive_path (h : 0 ≤ index ∧ index < 2 ^ 31) (root : ExtendedKey) :
    root.derive (b.path index) = b.leaf root index := by
  obtain ⟨i, rfl⟩ := exists_index_eq h
  rw [b.path_eq i, ExtendedKey.derive_path]
  simp only [parts, List.foldlM_cons, List.foldlM_nil, bind_pure]
  simp [Path.Part.index, leaf, ExtendedKey.hardenedOffset]

theorem isPrivate_leaf (h : b.leaf root index = .ok child) : child.isPrivate = true := by
  simp only [leaf, Outcome.bind_eq_ok] at h
  obtain ⟨_, -, _, -, _, -, _, -, hchild⟩ := h
  exact ExtendedKey.isPrivate_of_child hchild

/-- The key at the end of a branch exists, unless a derivation code yields no key. -/
theorem leaf_cases (h : 0 ≤ index ∧ index < 2 ^ 31) (hroot : root.Sound)
    (hp : root.isPrivate = true) :
    (∃ child, b.leaf root index = .ok child ∧ child.Sound ∧ child.isPrivate = true) ∨
      b.leaf root index = .error .childTooLarge ∨ b.leaf root index = .error .childZero := by
  obtain ⟨i, rfl⟩ := exists_index_eq h
  rw [← b.derive_path h, b.path_eq i]
  exact hroot.derive_path_cases hp _

end Branch

/-! ### The pair of a key -/

namespace KeyPair

variable {b : Branch} {root child : ExtendedKey} {index : Int} {pair : KeyPair}

/-- The pair that shows a key. -/
def ofChild (index : Int) (child : ExtendedKey) : Outcome KeyPair := do
  let wif ← SecretKey.toWif child.key false
  let publicKey ← PublicKey.toText (← child.publicKey) PublicKey.fio
  return ⟨index, wif, publicKey⟩

/-- What can be read out of a pair again: the private key, the public key, and the account. -/
structure Shows (pair : KeyPair) (child : ExtendedKey) : Prop where
  wif : SecretKey.toWif child.key false = .ok pair.wif
  readWif : SecretKey.ofWif pair.wif = .ok child.key
  publicKey : ∃ key, child.publicKey = .ok key ∧
    PublicKey.toText key PublicKey.fio = .ok pair.publicKey ∧
    PublicKey.ofText pair.publicKey PublicKey.usualLabels = .ok key
  account : ∀ A, Account.ofWif pair.wif = .ok A ↔
    A.wif = pair.wif ∧ A.publicKey = pair.publicKey ∧ Actor.ofText pair.publicKey = .ok A.actor

/-- Writing a private key and reading it again on the way to the public key changes nothing, not
even a fault. -/
theorem publicKey_ofWif {secret : Bytes} {wif : Text} (h : SecretKey.toWif secret false = .ok wif) :
    PublicKey.ofWif wif PublicKey.fio PublicKey.eos =
      SecretKey.publicKey secret >>= fun key => PublicKey.toText key PublicKey.fio := by
  rw [PublicKey.ofWif_eq_bind rfl rfl, SecretKey.ofWif_of_toWif h, Outcome.ok_bind]

/-- The way through the two texts of a private key changes nothing. -/
theorem ofRoot_eq (b : Branch) (h : 0 ≤ index ∧ index < 2 ^ 31) (root : ExtendedKey) :
    ofRoot root b index = b.leaf root index >>= ofChild index := by
  rw [ofRoot, b.derive_path h]
  cases hleaf : b.leaf root index with
  | error f => rfl
  | ok child =>
    rw [Outcome.ok_bind, Outcome.ok_bind, ofChild, ExtendedKey.publicKey,
      if_pos (b.isPrivate_leaf hleaf)]
    cases hwif : SecretKey.toWif child.key false with
    | error f => rfl
    | ok wif =>
      rw [Outcome.ok_bind, Outcome.ok_bind, publicKey_ofWif hwif, bind_assoc]

theorem exists_ofChild (h : child.Sound) (hp : child.isPrivate = true) (index : Int) :
    ∃ pair, ofChild index child = .ok pair := by
  obtain ⟨key, hkey, hcompressed⟩ := h.exists_publicKey
  have hlen : child.key.length = 32 := by rw [h.length_key, if_pos hp]
  obtain ⟨wif, hwif⟩ : ∃ wif, SecretKey.toWif child.key false = .ok wif :=
    ⟨_, SecretKey.toWif_eq_ok.2 ⟨hlen, rfl⟩⟩
  have htext : PublicKey.toText key PublicKey.fio = .ok (PublicKey.labelled PublicKey.fio key) :=
    PublicKey.toText_eq_ok (PublicKey.isCompressed_iff.1 hcompressed).1
  exact ⟨_, by rw [ofChild, hwif, Outcome.ok_bind, hkey, Outcome.ok_bind, htext]; rfl⟩

theorem shows_of_ofChild (h : ofChild index child = .ok pair) (hp : child.isPrivate = true) :
    pair.index = index ∧ pair.Shows child := by
  simp only [ofChild, Outcome.bind_eq_ok, Outcome.pure_eq, Except.ok.injEq] at h
  obtain ⟨wif, hwif, key, hkey, text, htext, rfl⟩ := h
  have hsecret : SecretKey.publicKey child.key = .ok key := by
    rwa [ExtendedKey.publicKey, if_pos hp] at hkey
  have hpublic : PublicKey.ofWif wif PublicKey.fio PublicKey.eos = .ok text := by
    rw [publicKey_ofWif hwif, hsecret]
    exact htext
  refine ⟨rfl, hwif, SecretKey.ofWif_of_toWif hwif, ⟨key, hkey, htext, ?_⟩, fun A => ?_⟩
  · obtain ⟨k, hrange, rfl⟩ := SecretKey.exists_multiple hsecret
    rw [PublicKey.toText_eq_ok (Curve.Point.length_compress _)] at htext
    obtain rfl := Except.ok.inj htext
    exact PublicKey.ofText_labelled_fio hrange
  · rw [Account.ofWif_eq_ok, hpublic, Except.ok.injEq]
    constructor
    · rintro ⟨hA, rfl, hactor⟩
      exact ⟨hA, rfl, hactor⟩
    · rintro ⟨hA, htext, hactor⟩
      exact ⟨hA, htext.symm, htext ▸ hactor⟩

end KeyPair

/-! ### Pairs of a mnemonic -/

namespace Mnemonic

/-- The seed of a mnemonic has a proper length, so only its code can fail to be a scalar. -/
theorem masterKey_cases (m : Mnemonic) :
    (∃ root, m.masterKey = .ok root ∧ root.Sound ∧ root.isPrivate = true) ∨
    m.masterKey = .error .masterRange := by
  have hlen : m.seed.length = 64 := Hash.length_stretch _ _ _
  have hseed : 16 ≤ m.seed.length ∧ m.seed.length ≤ 64 := by omega
  rcases ExtendedKey.master_cases hseed with ⟨root, hroot⟩ | hf
  · obtain ⟨hsound, -, hp⟩ := ExtendedKey.Sound.master hroot
    exact .inl ⟨root, hroot, hsound, hp⟩
  · exact .inr hf

end Mnemonic

namespace Source

variable {index : Int}

theorem checkIndex_eq_ok (h : 0 ≤ index ∧ index < 2 ^ 31) : checkIndex index = .ok () :=
  if_pos h

theorem keyAt_out_of_range (s : Source) (b : Branch) (h : ¬(0 ≤ index ∧ index < 2 ^ 31)) :
    s.keyAt index b = .error (.indexRange index) := by
  have hcheck : checkIndex index = .error (.indexRange index) := if_neg h
  rw [keyAt, hcheck, Outcome.error_bind]

theorem keyAt_mnemonic (m : Mnemonic) (b : Branch) (h : 0 ≤ index ∧ index < 2 ^ 31) :
    (mnemonic m).keyAt index b = m.masterKey >>= fun root =>
      b.leaf root index >>= KeyPair.ofChild index := by
  rw [keyAt, checkIndex_eq_ok h, Outcome.ok_bind, resolve_mnemonic, Outcome.ok_bind]
  simp only [KeyPair.ofRoot_eq b h]

/-- The pair of a mnemonic at an index below 2^31 of a branch is that of the fifth child below the
root, in uncompressed wallet import format and as public key text. It exists unless the root does
not or one of the five derivations yields no key, whose fault is then the fault of the pair. Both
texts of a pair are read as the keys that they show, and an account of the private key text consists
of the two texts and the actor of the public key text. Any other index is refused for what it is,
whatever the source. -/
theorem keyAt_eq_five_children (b : Branch) :
    (∀ (m : Mnemonic) (index : Int), 0 ≤ index ∧ index < 2 ^ 31 →
      (mnemonic m).keyAt index b = (do
        let child ← b.leaf (← m.masterKey) index
        let wif ← SecretKey.toWif child.key false
        let publicKey ← PublicKey.toText (← child.publicKey) PublicKey.fio
        return ⟨index, wif, publicKey⟩) ∧
      ((m.masterKey = .error .masterRange ∧ (mnemonic m).keyAt index b = .error .masterRange) ∨
        ∃ root, m.masterKey = .ok root ∧
          ((∃ f, (f = .childTooLarge ∨ f = .childZero) ∧ b.leaf root index = .error f ∧
              (mnemonic m).keyAt index b = .error f) ∨
            ∃ child pair, b.leaf root index = .ok child ∧ (mnemonic m).keyAt index b = .ok pair ∧
              pair.index = index ∧ pair.Shows child))) ∧
    ∀ (s : Source) (index : Int), ¬(0 ≤ index ∧ index < 2 ^ 31) →
      s.keyAt index b = .error (.indexRange index) := by
  refine ⟨fun m index h => ⟨?_, ?_⟩, fun s index h => s.keyAt_out_of_range b h⟩
  · rw [keyAt_mnemonic m b h]
    rfl
  · rw [keyAt_mnemonic m b h]
    rcases m.masterKey_cases with ⟨root, hroot, hsound, hp⟩ | hf
    · right
      refine ⟨root, hroot, ?_⟩
      rw [hroot, Outcome.ok_bind]
      rcases b.leaf_cases h hsound hp with ⟨child, hchild, hsound, hp⟩ | hf | hf
      · right
        obtain ⟨pair, hpair⟩ := KeyPair.exists_ofChild hsound hp index
        obtain ⟨hindex, hshows⟩ := KeyPair.shows_of_ofChild hpair hp
        exact ⟨child, pair, hchild, by rw [hchild]; exact hpair, hindex, hshows⟩
      · exact .inl ⟨_, .inl rfl, hf, by rw [hf]; rfl⟩
      · exact .inl ⟨_, .inr rfl, hf, by rw [hf]; rfl⟩
    · exact .inl ⟨hf, by rw [hf]; rfl⟩

/-- The sixth pair of a mnemonic, and a negative index that is refused before a phrase that is none.
-/
theorem keyAt_five_of_abandon : ∃ m : Mnemonic,
    m.words = List.replicate 11 "abandon".toList ++ ["about".toList] ∧
    ((0 ≤ (5 : Int) ∧ (5 : Int) < 2 ^ 31) ∧ (mnemonic m).keyAt 5 Branch.usual = (do
      let child ← Branch.usual.leaf (← m.masterKey) 5
      let wif ← SecretKey.toWif child.key false
      let publicKey ← PublicKey.toText (← child.publicKey) PublicKey.fio
      return ⟨5, wif, publicKey⟩)) ∧
    (Mnemonic.ofPhrase "abandon".toList).isOk = false ∧
    (phrase "abandon".toList).keyAt (-1) Branch.usual = .error (.indexRange (-1)) := by
  have hwords : Mnemonic.fault? (List.replicate 11 "abandon".toList ++ ["about".toList]) =
      none := by decide +kernel
  have hindex : 0 ≤ (5 : Int) ∧ (5 : Int) < 2 ^ 31 := by decide
  refine ⟨⟨_, hwords⟩, rfl, ⟨hindex, ?_⟩, by decide +kernel, ?_⟩
  · exact ((keyAt_eq_five_children Branch.usual).1 _ 5 hindex).1
  · exact (keyAt_eq_five_children Branch.usual).2 _ (-1) (by decide)

end Source

end Keyring
