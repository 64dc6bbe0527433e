import Keyring.Proofs.Key.Extended

/-!
# Which extended keys have children

Any byte strings and integers make an extended key, and a hardened derivation hashes the key without
looking at it. Still only a usable scalar has children: the child carries the fingerprint of its
parent, and a fingerprint takes a public key.
-/

namespace Keyring.ExtendedKey

/-- The key spells a scalar between 1 and the group order in 32 bytes. -/
def Usable (k : ExtendedKey) : Prop :=
  k.key.length = 32 ∧ 0 < k.key.toNat ∧ k.key.toNat < Curve.order

/-- What the child at an index is derived from: the key behind a zero byte for a hardened index and
the compressed public key for another, then the index in four bytes. -/
def childData (k : ExtendedKey) (index : Int) : Bytes :=
  (if 2 ^ 31 ≤ index then 0 :: k.key else (Curve.base.multiple k.key.toNat).compress) ++
    Bytes.ofNat 4 index.toNat

/-- The number that the left half of the derivation code spells. -/
def childShift (k : ExtendedKey) (index : Int) : ℕ :=
  Bytes.toNat ((Hash.hmacSha512 k.chainCode (k.childData index)).take 32)

section Private

variable {k : ExtendedKey} (hprivate : k.isPrivate = true) {index : Int}

include hprivate

/-- A private key has a public key exactly if it is usable. -/
theorem publicKey_of_private {key : Bytes} :
    k.publicKey = .ok key ↔ k.Usable ∧ key = (Curve.base.multiple k.key.toNat).compress := by
  unfold publicKey Usable
  rw [if_pos hprivate, SecretKey.publicKey_eq_ok]
  constructor
  · rintro ⟨n, hn, rfl⟩
    obtain ⟨hlen, rfl, hrange⟩ := SecretKey.scalar_eq_ok.1 hn
    exact ⟨⟨hlen, hrange⟩, rfl⟩
  · rintro ⟨⟨hlen, hrange⟩, rfl⟩
    exact ⟨_, SecretKey.scalar_eq_ok.2 ⟨hlen, rfl, hrange⟩, rfl⟩

/-- A private key has a fingerprint exactly if it is usable. -/
theorem fingerprint_of_private {fp : Bytes} : k.fingerprint = .ok fp ↔
    k.Usable ∧ fp = (Hash.hash160 (Curve.base.multiple k.key.toNat).compress).take 4 := by
  simp only [fingerprint, Outcome.bind_eq_ok, publicKey_of_private hprivate, Outcome.pure_eq,
    Except.ok.injEq]
  constructor
  · rintro ⟨key, ⟨husable, rfl⟩, rfl⟩
    exact ⟨husable, rfl⟩
  · rintro ⟨husable, rfl⟩
    exact ⟨_, ⟨husable, rfl⟩, rfl⟩

/-- Behind the key material stands the index, in four bytes. -/
theorem childSeed_of_usable (husable : k.Usable) {seed : Bytes} :
    k.childSeed index = .ok seed ↔ (0 ≤ index ∧ index < 2 ^ 32) ∧ seed = k.childData index := by
  have hpublic : k.publicKey = .ok (Curve.base.multiple k.key.toNat).compress :=
    (publicKey_of_private hprivate).2 ⟨husable, rfl⟩
  have hoffset : index ≥ hardenedOffset ↔ 2 ^ 31 ≤ index := by
    rw [hardenedOffset]
    norm_num
  unfold childSeed childData
  by_cases hhard : 2 ^ 31 ≤ index
  · rw [if_pos (hoffset.2 hhard), if_pos hhard]
    exact append_index_eq_ok
  · rw [if_neg (mt hoffset.1 hhard), if_neg hhard, hpublic, Outcome.ok_bind]
    exact append_index_eq_ok

end Private

/-! ### Children -/

variable {k c : ExtendedKey} {index : Int}

/-- A child is what its derivation code makes of a private key with a usable scalar. -/
theorem child_eq_ok_iff :
    k.child index = .ok c ↔ k.isPrivate = true ∧ k.Usable ∧ (0 ≤ index ∧ index < 2 ^ 32) ∧
    k.childShift index < Curve.order ∧ (k.childShift index + k.key.toNat) % Curve.order ≠ 0 ∧
      c = k.childOf index (k.childData index)
        ((Hash.hash160 (Curve.base.multiple k.key.toNat).compress).take 4) := by
  rw [child_eq_ok]
  constructor
  · rintro ⟨hprivate, seed, fp, hseed, hfp, hlt, hne, rfl⟩
    obtain ⟨husable, rfl⟩ := (fingerprint_of_private hprivate).1 hfp
    obtain ⟨hindex, rfl⟩ := (childSeed_of_usable hprivate husable).1 hseed
    exact ⟨hprivate, husable, hindex, hlt, hne, rfl⟩
  · rintro ⟨hprivate, husable, hindex, hlt, hne, rfl⟩
    exact ⟨hprivate, _, _, (childSeed_of_usable hprivate husable).2 ⟨hindex, rfl⟩,
      (fingerprint_of_private hprivate).2 ⟨husable, rfl⟩, hlt, hne, rfl⟩

/-- An extended key has a child at an index exactly if it is private with a usable scalar, the index
fits four bytes, the left half of the derivation code is below the group order, and its sum with the
scalar is not a multiple of this order. The child then spells the sum in 32 bytes, takes the right
half as its chain code and lies one step deeper; it keeps the index and the fingerprint of its
parent. So no derivation, hardened or not, gets a child out of a key that is no usable scalar. -/
theorem exists_child_iff (k : ExtendedKey) (index : Int) :
    ((∃ c, k.child index = .ok c) ↔ k.isPrivate = true ∧
      (k.key.length = 32 ∧ 0 < k.key.toNat ∧ k.key.toNat < Curve.order) ∧
      (0 ≤ index ∧ index < 2 ^ 32) ∧
      k.childShift index < Curve.order ∧ (k.childShift index + k.key.toNat) % Curve.order ≠ 0) ∧
    (∀ c, k.child index = .ok c →
      (c.key.length = 32 ∧ c.key.toNat = (k.childShift index + k.key.toNat) % Curve.order) ∧
      c.chainCode = (Hash.hmacSha512 k.chainCode (k.childData index)).drop 32 ∧
      c.depth = k.depth + 1 ∧
      c.parentFingerprint = (Hash.hash160 (Curve.base.multiple k.key.toNat).compress).take 4 ∧
      c.childIndex = index ∧ c.isPrivate = true) ∧
    (k.key.length ≠ 32 ∨ k.key.toNat = 0 ∨ Curve.order ≤ k.key.toNat →
      ∃ f, k.child index = .error f) := by
  refine ⟨?_, fun c hc => ?_, fun hbad => ?_⟩
  · constructor
    · rintro ⟨c, hc⟩
      obtain ⟨hprivate, husable, hindex, hlt, hne, -⟩ := child_eq_ok_iff.1 hc
      exact ⟨hprivate, husable, hindex, hlt, hne⟩
    · rintro ⟨hprivate, husable, hindex, hlt, hne⟩
      exact ⟨_, child_eq_ok_iff.2 ⟨hprivate, husable, hindex, hlt, hne, rfl⟩⟩
  · obtain ⟨-, -, -, -, hne, rfl⟩ := child_eq_ok_iff.1 hc
    have hscalar : SecretKey.scalar (k.childOf index (k.childData index) []).key =
        .ok ((k.childShift index + k.key.toNat) % Curve.order) := Sound.scalar_childOf hne []
    obtain ⟨hlen, hvalue, -⟩ := SecretKey.scalar_eq_ok.1 hscalar
    exact ⟨⟨hlen, hvalue⟩, rfl, rfl, rfl, rfl, rfl⟩
  · cases hc : k.child index with
    | error f => exact ⟨f, rfl⟩
    | ok c =>
      obtain ⟨-, ⟨hlen, hpos, hlt⟩, -⟩ := child_eq_ok_iff.1 hc
      omega

/-- A hardened child of the scalar 1, and the same with the scalar 0 and with a byte too many. -/
theorem exists_child_of_one :
    (∃ c, (ExtendedKey.mk (Bytes.ofNat 32 1) (Bytes.zeros 32) (-1) [] 0 true).child (2 ^ 31) =
        .ok c ∧
      c.key.length = 32 ∧ c.depth = 0 ∧ c.childIndex = 2 ^ 31) ∧
    (∃ f, (ExtendedKey.mk (Bytes.zeros 32) (Bytes.zeros 32) 0 [] 0 true).child (2 ^ 31) =
      .error f) ∧
    ∃ f, (ExtendedKey.mk (Bytes.ofNat 33 1) (Bytes.zeros 32) 0 [] 0 true).child (2 ^ 31) =
      .error f := by
  refine ⟨?_, ?_, ?_⟩
  · have hok : ((ExtendedKey.mk (Bytes.ofNat 32 1) (Bytes.zeros 32) (-1) [] 0 true).child
        (2 ^ 31)).isOk = true := by
      decide +kernel
    obtain ⟨c, hc⟩ := Outcome.exists_of_isOk hok
    obtain ⟨⟨hlen, -⟩, -, hdepth, -, hindex, -⟩ := (exists_child_iff _ _).2.1 c hc
    exact ⟨c, hc, hlen, hdepth, hindex⟩
  · exact (exists_child_iff _ _).2.2 (.inr (.inl (by decide +kernel)))
  · exact (exists_child_iff _ _).2.2 (.inl (by rw [Bytes.length_ofNat]; norm_num))

end Keyring.ExtendedKey
