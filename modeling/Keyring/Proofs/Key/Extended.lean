import Keyring.Key.Extended
import Keyring.Proofs.Agreement

/-!
# Sound extended keys

Nothing is assumed about the parts of an extended key. `Sound` collects what holds of the keys in
the tree of a seed: the lengths of the parts, the range of the child index, and a key that is a
usable scalar or a compressed point. A root is sound (`Sound.master`), and so are the children
(`Sound.child`) and the public counterpart (`Sound.neuter`) of a sound key.

* `child_eq_ok`: what a child is made of.
* `Sound.child_cases`: a sound private key has a child at each index of four bytes, unless the
  derivation code yields no key.
* `Sound.exists_serialize_iff`: a sound key can be serialized up to depth 255.
-/

namespace Keyring.ExtendedKey

/-! ### Fields -/

theorem field_eq_ok {w : ℕ} {n : Int} {bs : Bytes} :
    field w n = .ok bs ↔ 0 ≤ n ∧ n < (256 ^ w : ℕ) ∧ bs = Bytes.ofNat w n.toNat := by
  have hbound : 1 <<< (8 * w) = 256 ^ w := by
    rw [Nat.one_shiftLeft, pow_mul]
    norm_num
  have hrange : (0 ≤ n ∧ n.toNat < 1 <<< (8 * w)) ↔ 0 ≤ n ∧ n < (256 ^ w : ℕ) := by
    rw [hbound]
    omega
  unfold field
  by_cases h : 0 ≤ n ∧ n.toNat < 1 <<< (8 * w)
  · rw [if_pos h, Except.ok.injEq, ← and_assoc, ← hrange, and_iff_right h, eq_comm]
  · rw [if_neg h, ← and_assoc, ← hrange]
    exact ⟨fun e => (nomatch e), fun e => absurd e.1 h⟩

/-- A key is serialized if its depth and its index fit their fields. -/
theorem serialize_eq_ok {k : ExtendedKey} {bs : Bytes} : k.serialize = .ok bs ↔
    (0 ≤ k.depth ∧ k.depth < 256) ∧ (0 ≤ k.childIndex ∧ k.childIndex < 2 ^ 32) ∧
      bs = versionBytes k.isPrivate ++ Bytes.ofNat 1 k.depth.toNat ++ k.parentFingerprint ++
        Bytes.ofNat 4 k.childIndex.toNat ++ k.chainCode ++
          (if k.isPrivate then 0 :: k.key else k.key) := by
  simp only [serialize, Outcome.bind_eq_ok, field_eq_ok, Outcome.pure_eq, Except.ok.injEq]
  constructor
  · rintro ⟨depth, ⟨hdepth, hdepth', rfl⟩, index, ⟨hindex, hindex', rfl⟩, rfl⟩
    exact ⟨⟨hdepth, hdepth'⟩, ⟨hindex, hindex'⟩, rfl⟩
  · rintro ⟨⟨hdepth, hdepth'⟩, ⟨hindex, hindex'⟩, rfl⟩
    exact ⟨_, ⟨hdepth, hdepth', rfl⟩, _, ⟨hindex, hindex', rfl⟩, rfl⟩

/-! ### Roots and children -/

/-- A seed of proper length has a root unless its code is no scalar. -/
theorem master_cases {seed : Bytes} (h : 16 ≤ seed.length ∧ seed.length ≤ 64) :
    (∃ root, master seed = .ok root) ∨ master seed = .error .masterRange := by
  simp only [master, Outcome.throw_eq, Outcome.error_bind, if_neg (not_not.2 h)]
  split
  · exact .inr rfl
  · exact .inl ⟨_, rfl⟩

/-- The derivation code of a child. -/
def childCode (k : ExtendedKey) (seed : Bytes) : Bytes :=
  Hash.hmacSha512 k.chainCode seed

/-- The scalar of a child. -/
def childScalar (k : ExtendedKey) (seed : Bytes) : ℕ :=
  (Bytes.toNat ((k.childCode seed).take 32) + k.key.toNat) % Curve.order

/-- The child that a derivation code yields. -/
def childOf (k : ExtendedKey) (index : Int) (seed fingerprint : Bytes) : ExtendedKey where
  key := Bytes.ofNat 32 (k.childScalar seed)
  chainCode := (k.childCode seed).drop 32
  depth := k.depth + 1
  parentFingerprint := fingerprint
  childIndex := index
  isPrivate := true

section Child

variable {k c : ExtendedKey} {index : Int} {seed fp : Bytes}

/-- What a child is made of. -/
theorem child_eq_ok :
    k.child index = .ok c ↔ k.isPrivate = true ∧ ∃ seed fp, k.childSeed index = .ok seed ∧
    k.fingerprint = .ok fp ∧ Bytes.toNat ((k.childCode seed).take 32) < Curve.order ∧
    k.childScalar seed ≠ 0 ∧ c = k.childOf index seed fp := by
  simp only [child, Outcome.throw_eq, Outcome.error_bind, Outcome.check_eq_ok, Outcome.bind_eq_ok,
    Outcome.pure_eq, Except.ok.injEq, Bool.not_eq_true', Bool.not_eq_false, not_le, ge_iff_le]
  constructor
  · rintro ⟨hprivate, seed, hseed, hlt, hne, fp, hfp, rfl⟩
    exact ⟨hprivate, seed, fp, hseed, hfp, hlt, hne, rfl⟩
  · rintro ⟨hprivate, seed, fp, hseed, hfp, hlt, hne, rfl⟩
    exact ⟨hprivate, seed, hseed, hlt, hne, fp, hfp, rfl⟩

theorem isPrivate_of_child (h : k.child index = .ok c) : c.isPrivate = true := by
  obtain ⟨-, seed, fp, -, -, -, -, rfl⟩ := child_eq_ok.1 h
  rfl

/-- With a seed and a fingerprint the derivation code alone decides. -/
theorem child_of_seed (hprivate : k.isPrivate = true) (hseed : k.childSeed index = .ok seed)
    (hfp : k.fingerprint = .ok fp) : k.child index =
      if Curve.order ≤ Bytes.toNat ((k.childCode seed).take 32) then .error .childTooLarge
      else if k.childScalar seed = 0 then .error .childZero
      else .ok (k.childOf index seed fp) := by
  simp only [child, hprivate, hseed, hfp, Bool.not_true, Bool.false_eq_true, if_false,
    Outcome.ok_bind, Outcome.throw_eq, Outcome.error_bind, Outcome.pure_eq]
  rfl

/-- Bytes and then the index, in four bytes. -/
theorem append_index_eq_ok {front : Bytes} :
    (do return front ++ (← field 4 index) : Outcome Bytes) = .ok seed ↔
      (0 ≤ index ∧ index < 2 ^ 32) ∧ seed = front ++ Bytes.ofNat 4 index.toNat := by
  have hbound : ((256 ^ 4 : ℕ) : Int) = 2 ^ 32 := by norm_num
  simp only [Outcome.bind_eq_ok, field_eq_ok, Outcome.pure_eq, Except.ok.injEq, hbound]
  constructor
  · rintro ⟨bs, ⟨hle, hlt, rfl⟩, rfl⟩
    exact ⟨⟨hle, hlt⟩, rfl⟩
  · rintro ⟨⟨hle, hlt⟩, rfl⟩
    exact ⟨_, ⟨hle, hlt, rfl⟩, rfl⟩

theorem index_of_childSeed (h : k.childSeed index = .ok seed) : 0 ≤ index ∧ index < 2 ^ 32 := by
  unfold childSeed at h
  split at h
  · exact (append_index_eq_ok.1 h).1
  · obtain ⟨key, -, h⟩ := Outcome.bind_eq_ok.1 h
    exact (append_index_eq_ok.1 h).1

end Child

/-! ### Sound keys -/

/-- What holds of the keys in the tree of a seed. -/
structure Sound (k : ExtendedKey) : Prop where
  length_chainCode : k.chainCode.length = 32
  length_parentFingerprint : k.parentFingerprint.length = 4
  depth_nonneg : 0 ≤ k.depth
  childIndex_range : 0 ≤ k.childIndex ∧ k.childIndex < 2 ^ 32
  root : k.depth = 0 → k.childIndex = 0 ∧ k.parentFingerprint = Bytes.zeros 4
  secret : k.isPrivate = true → ∃ n, SecretKey.scalar k.key = .ok n
  point : k.isPrivate = false → PublicKey.isCompressed k.key

namespace Sound

variable {k c : ExtendedKey} {index : Int}

theorem exists_publicKey (h : Sound k) :
    ∃ key, k.publicKey = .ok key ∧ PublicKey.isCompressed key := by
  unfold publicKey
  cases hp : k.isPrivate with
  | false => exact ⟨k.key, rfl, h.point hp⟩
  | true =>
    obtain ⟨n, hn⟩ := h.secret hp
    obtain ⟨-, -, hrange⟩ := SecretKey.scalar_eq_ok.1 hn
    exact ⟨_, SecretKey.publicKey_eq_ok.2 ⟨n, hn, rfl⟩, PublicKey.isCompressed_multiple hrange⟩

theorem exists_fingerprint (h : Sound k) : ∃ fp, k.fingerprint = .ok fp := by
  obtain ⟨key, hkey, -⟩ := h.exists_publicKey
  exact ⟨_, by rw [fingerprint, hkey, Outcome.ok_bind]; rfl⟩

theorem length_key (h : Sound k) : k.key.length = if k.isPrivate then 32 else 33 := by
  cases hp : k.isPrivate with
  | false => exact (PublicKey.isCompressed_iff.1 (h.point hp)).1
  | true =>
    obtain ⟨n, hn⟩ := h.secret hp
    exact (SecretKey.scalar_eq_ok.1 hn).1

/-! ### Serialized form -/

/-- A sound key can be serialized up to depth 255. -/
theorem exists_serialize_iff (h : Sound k) : (∃ bs, k.serialize = .ok bs) ↔ k.depth ≤ 255 := by
  constructor
  · rintro ⟨bs, hbs⟩
    obtain ⟨⟨-, hdepth⟩, -, -⟩ := serialize_eq_ok.1 hbs
    omega
  · intro hdepth
    exact ⟨_, serialize_eq_ok.2 ⟨⟨h.depth_nonneg, by omega⟩, h.childIndex_range, rfl⟩⟩

theorem exists_toText_iff (h : Sound k) : (∃ text, k.toText = .ok text) ↔ k.depth ≤ 255 := by
  rw [← h.exists_serialize_iff]
  simp only [toText, Outcome.bind_eq_ok, Outcome.pure_eq, Except.ok.injEq]
  constructor
  · rintro ⟨text, bs, hbs, -⟩
    exact ⟨bs, hbs⟩
  · rintro ⟨bs, hbs⟩
    exact ⟨_, bs, hbs, rfl⟩

/-! ### Roots, children, public counterparts -/

theorem master {seed : Bytes} (h : master seed = .ok k) :
    Sound k ∧ k.depth = 0 ∧ k.isPrivate = true := by
  simp only [ExtendedKey.master, Outcome.throw_eq, Outcome.error_bind, Outcome.check_eq_ok,
    Outcome.pure_eq, Except.ok.injEq, not_or, not_le, ge_iff_le] at h
  obtain ⟨-, ⟨hne, hlt⟩, rfl⟩ := h
  have hlen : ((Hash.hmacSha512 masterSalt seed).take 32).length = 32 := by simp
  refine ⟨?_, rfl, rfl⟩
  exact {
    length_chainCode := by simp
    length_parentFingerprint := rfl
    depth_nonneg := le_rfl
    childIndex_range := ⟨le_rfl, by norm_num⟩
    root := fun _ => ⟨rfl, rfl⟩
    secret := fun _ => ⟨_, SecretKey.scalar_eq_ok.2 ⟨hlen, rfl, Nat.pos_of_ne_zero hne, hlt⟩⟩
    point := fun hp => (nomatch hp) }

/-- The scalar of a child is below the group order, so 32 bytes hold it. -/
theorem scalar_childOf {seed : Bytes} (h : k.childScalar seed ≠ 0) (fp : Bytes) :
    SecretKey.scalar (k.childOf index seed fp).key = .ok (k.childScalar seed) := by
  have hlt : k.childScalar seed < Curve.order := Nat.mod_lt _ (by decide)
  have hbytes : Bytes.toNat (Bytes.ofNat 32 (k.childScalar seed)) = k.childScalar seed := by
    rw [Bytes.toNat_ofNat]
    exact Nat.mod_eq_of_lt (hlt.trans (by decide))
  simp only [childOf]
  exact SecretKey.scalar_eq_ok.2 ⟨Bytes.length_ofNat _ _, hbytes, Nat.pos_of_ne_zero h, hlt⟩

theorem length_fingerprint {fp : Bytes} (h : k.fingerprint = .ok fp) : fp.length = 4 := by
  obtain ⟨key, -, hkey⟩ := Outcome.bind_eq_ok.1 h
  rw [← Except.ok.inj hkey, List.length_take, Hash.length_hash160]
  rfl

/-- The children of a sound key are sound. -/
theorem child (h : Sound k) (hc : k.child index = .ok c) : Sound c := by
  obtain ⟨-, seed, fp, hseed, hfp, -, hne, rfl⟩ := child_eq_ok.1 hc
  have hcode : ((k.childCode seed).drop 32).length = 32 := by
    rw [List.length_drop, childCode, Hash.length_hmacSha512]
  have hdepth : 0 < k.depth + 1 := Int.lt_add_one_of_le h.depth_nonneg
  exact {
    length_chainCode := hcode
    length_parentFingerprint := length_fingerprint hfp
    depth_nonneg := hdepth.le
    childIndex_range := index_of_childSeed hseed
    root := fun h0 => absurd h0 hdepth.ne'
    secret := fun _ => ⟨k.childScalar seed, scalar_childOf hne fp⟩
    point := fun hp => (nomatch hp) }

theorem neuter (h : Sound k) (hc : k.neuter = .ok c) : Sound c := by
  cases hp : k.isPrivate with
  | false =>
    rw [neuter_of_public hp] at hc
    rw [← Except.ok.inj hc]
    exact h
  | true =>
    obtain ⟨key, hkey, hpoint⟩ := h.exists_publicKey
    rw [ExtendedKey.neuter, if_pos hp, hkey] at hc
    obtain rfl := Except.ok.inj hc
    exact { h with
      secret := fun hp => absurd hp Bool.false_ne_true
      point := fun _ => hpoint }

/-- The seed of a child is found for every index that four bytes hold. -/
theorem exists_childSeed (h : Sound k) (hindex : 0 ≤ index ∧ index < 2 ^ 32) :
    ∃ seed, k.childSeed index = .ok seed := by
  obtain ⟨key, hkey, -⟩ := h.exists_publicKey
  unfold childSeed
  split
  · exact ⟨_, append_index_eq_ok.2 ⟨hindex, rfl⟩⟩
  · exact ⟨_, Outcome.bind_eq_ok.2 ⟨key, hkey, append_index_eq_ok.2 ⟨hindex, rfl⟩⟩⟩

/-- A sound private key has a child at each index of four bytes, unless the derivation code yields
no key. -/
theorem child_cases (h : Sound k) (hp : k.isPrivate = true) (hindex : 0 ≤ index ∧ index < 2 ^ 32) :
    (∃ c, k.child index = .ok c) ∨ k.child index = .error .childTooLarge ∨
      k.child index = .error .childZero := by
  obtain ⟨seed, hseed⟩ := h.exists_childSeed hindex
  obtain ⟨fp, hfp⟩ := h.exists_fingerprint
  rw [child_of_seed hp hseed hfp]
  split
  · exact .inr (.inl rfl)
  · split
    · exact .inr (.inr rfl)
    · exact .inl ⟨_, rfl⟩

end Sound

end Keyring.ExtendedKey
