import Keyring.Key.Path
import Keyring.Proofs.Key.Serialized

/-!
# Keys that come from a seed

`Descends root n k` says that `n` child derivations lead from `root` to `k`; the public counterpart
of a key comes from the same derivations. A path stands for one derivation for each part that names
a child (`Descends.derive`). `run` answers requests one after the other, and one that fails leaves
the key as it is.
-/

namespace Keyring.ExtendedKey

variable {root k k' : ExtendedKey} {n : ℕ}

/-! ### Derivations -/

/-- `n` child derivations lead from `root` to `k`. -/
inductive Descends (root : ExtendedKey) : ℕ → ExtendedKey → Prop
  | refl : Descends root 0 root
  | child {n k c} (index : Int) :
      Descends root n k → k.child index = .ok c → Descends root (n + 1) c
  | neuter {n k p} : Descends root n k → k.neuter = .ok p → Descends root n p

theorem depth_child {c : ExtendedKey} {index : Int} (h : k.child index = .ok c) :
    c.depth = k.depth + 1 := by
  obtain ⟨-, seed, fp, -, -, -, -, rfl⟩ := child_eq_ok.1 h
  rfl

theorem depth_neuter {p : ExtendedKey} (h : k.neuter = .ok p) : p.depth = k.depth := by
  unfold neuter at h
  split at h
  · obtain ⟨key, -, hp⟩ := Outcome.bind_eq_ok.1 h
    rw [← Except.ok.inj hp]
  · rw [← Except.ok.inj h]

namespace Descends

theorem sound (hroot : Sound root) (h : Descends root n k) : Sound k := by
  induction h with
  | refl => exact hroot
  | child index _ hc ih => exact ih.child hc
  | neuter _ hp ih => exact ih.neuter hp

/-- The depth counts the derivations. -/
theorem depth_eq (h : Descends root n k) : k.depth = root.depth + n := by
  induction h with
  | refl => simp
  | child index _ hc ih =>
    rw [depth_child hc, ih]
    push_cast
    ring
  | neuter _ hp ih => rw [depth_neuter hp, ih]

/-- Each part of a path is one derivation. -/
theorem steps {parts : List Text} (h : Descends root n k) (hsteps : parts.foldlM step k = .ok k') :
    Descends root (n + parts.length) k' := by
  induction parts generalizing n k with
  | nil =>
    obtain rfl : k = k' := Except.ok.inj hsteps
    exact h
  | cons part parts ih =>
    rw [List.foldlM_cons] at hsteps
    obtain ⟨c, hc, hrest⟩ := Outcome.bind_eq_ok.1 hsteps
    obtain ⟨index, -, hchild⟩ := Outcome.bind_eq_ok.1 hc
    rw [List.length_cons, Nat.add_comm parts.length, ← Nat.add_assoc]
    exact ih (h.child index hchild) hrest

theorem derive {path : Text} (h : Descends root n k) (hpath : k.derive path = .ok k') :
    Descends root (n + (Path.parts path).length) k' :=
  h.steps hpath

end Descends

/-! ### Requests -/

/-- What can be asked of an extended key. -/
inductive Request
  /-- The child at an index. -/
  | child (index : Int)
  /-- The key at the end of a path. -/
  | path (t : Text)
  /-- The public counterpart. -/
  | neuter

namespace Request

/-- The answer to a request. -/
def answer (k : ExtendedKey) : Request → Outcome ExtendedKey
  | child index => k.child index
  | path t => k.derive t
  | neuter => k.neuter

/-- The number of child derivations that a request asks for. -/
def size : Request → ℕ
  | child _ => 1
  | path t => (Path.parts t).length
  | neuter => 0

end Request

/-- The key after a request. -/
def after (k : ExtendedKey) (r : Request) : ExtendedKey :=
  match r.answer k with
  | .ok k' => k'
  | .error _ => k

/-- The key after some requests. -/
def run (k : ExtendedKey) (rs : List Request) : ExtendedKey :=
  rs.foldl after k

/-- The number of child derivations in those of the requests that succeed. -/
def derivations : ExtendedKey → List Request → ℕ
  | _, [] => 0
  | k, r :: rs => (if (r.answer k).isOk then r.size else 0) + derivations (k.after r) rs

theorem Descends.answer {r : Request} (h : Descends root n k) (hr : r.answer k = .ok k') :
    Descends root (n + r.size) k' := by
  cases r with
  | child index => exact h.child index hr
  | path t => exact h.derive hr
  | neuter => exact h.neuter hr

/-- A run from a descendant makes as many derivations as its requests succeed with. -/
theorem Descends.run (h : Descends root n k) (rs : List Request) :
    Descends root (n + derivations k rs) (k.run rs) := by
  induction rs generalizing n k with
  | nil => exact h
  | cons r rs ih =>
    have hafter : Descends root (n + if (r.answer k).isOk then r.size else 0) (k.after r) := by
      unfold after
      cases hr : r.answer k with
      | ok k' => exact h.answer hr
      | error f => exact h
    rw [derivations, ← Nat.add_assoc]
    exact ih hafter

theorem descends_run (root : ExtendedKey) (rs : List Request) :
    Descends root (derivations root rs) (root.run rs) := by
  have h := (Descends.refl : Descends root 0 root).run rs
  rwa [Nat.zero_add] at h

/-! ### Public keys -/

theorem derive_of_public (h : k.isPrivate = false) {path : Text} (hpath : k.derive path = .ok k') :
    k' = k := by
  unfold derive at hpath
  cases hparts : Path.parts path with
  | nil =>
    rw [hparts] at hpath
    exact (Except.ok.inj hpath).symm
  | cons part parts =>
    rw [hparts, List.foldlM_cons] at hpath
    obtain ⟨c, hc, -⟩ := Outcome.bind_eq_ok.1 hpath
    obtain ⟨index, -, hchild⟩ := Outcome.bind_eq_ok.1 hc
    rw [child_of_public h] at hchild
    exact (nomatch hchild)

theorem answer_of_public (h : k.isPrivate = false) {r : Request} (hr : r.answer k = .ok k') :
    k' = k := by
  cases r with
  | child index => exact absurd ((child_of_public h index).symm.trans hr) (by simp)
  | path t => exact derive_of_public h hr
  | neuter => exact Except.ok.inj (hr.symm.trans (neuter_of_public h))

/-- No request changes a public key. -/
theorem run_of_public (h : k.isPrivate = false) (rs : List Request) : k.run rs = k := by
  induction rs with
  | nil => rfl
  | cons r rs ih =>
    have hafter : k.after r = k := by
      unfold after
      cases hr : r.answer k with
      | ok k' => exact answer_of_public h hr
      | error f => rfl
    show (k.after r).run rs = k
    rw [hafter]
    exact ih

/-! ### Runs from a seed -/

/-- After any requests to the root of a seed: the parts have their proper lengths and ranges; the
depth is the number of derivations that led here, and only the root itself is at depth zero; the key
is a usable scalar or a compressed point, so that public key and fingerprint exist; up to depth 255
the key can be serialized, in 78 bytes; and a public key stays what it is. -/
theorem run_from_master {seed : Bytes} (h : master seed = .ok root) (rs : List Request)
    (hk : root.run rs = k) :
    (k.chainCode.length = 32 ∧ k.parentFingerprint.length = 4 ∧ 0 ≤ k.childIndex ∧
      k.childIndex < 2 ^ 32) ∧
    (Descends root (derivations root rs) k ∧ k.depth = derivations root rs ∧
      (k.depth = 0 → k.childIndex = 0 ∧ k.parentFingerprint = [0, 0, 0, 0])) ∧
    (k.isPrivate = true → k.key.length = 32 ∧ 0 < k.key.toNat ∧ k.key.toNat < Curve.order) ∧
    (k.isPrivate = false →
      k.key.length = 33 ∧ (k.key.head? = some 0x02 ∨ k.key.head? = some 0x03)) ∧
    ((∃ key, k.publicKey = .ok key) ∧ ∃ fp, k.fingerprint = .ok fp) ∧
    (((∃ bs, k.serialize = .ok bs) ↔ k.depth ≤ 255) ∧
      ((∃ text, k.toText = .ok text) ↔ k.depth ≤ 255) ∧
      ∀ bs, k.serialize = .ok bs → bs.length = 78) ∧
    (k.isPrivate = false → (∀ index, ∃ f, k.child index = .error f) ∧ k.neuter = .ok k ∧
      (∀ path, k.derive path = .ok k ∨ ∃ f, k.derive path = .error f) ∧
      ∀ more, k.run more = k) := by
  obtain ⟨hsound, hdepth, -⟩ := Sound.master h
  have hdescends : Descends root (derivations root rs) k := hk ▸ descends_run root rs
  have hkey : Sound k := hdescends.sound hsound
  refine ⟨?_, ⟨hdescends, ?_, hkey.root⟩, ?_, ?_, ?_, ?_, ?_⟩
  · exact ⟨hkey.length_chainCode, hkey.length_parentFingerprint, hkey.childIndex_range⟩
  · rw [hdescends.depth_eq, hdepth, Int.zero_add]
  · intro hp
    obtain ⟨n, hn⟩ := hkey.secret hp
    obtain ⟨hlen, rfl, hrange⟩ := SecretKey.scalar_eq_ok.1 hn
    exact ⟨hlen, hrange⟩
  · intro hp
    exact PublicKey.isCompressed_iff.1 (hkey.point hp)
  · obtain ⟨key, hpublic, -⟩ := hkey.exists_publicKey
    exact ⟨⟨key, hpublic⟩, hkey.exists_fingerprint⟩
  · exact ⟨hkey.exists_serialize_iff, hkey.exists_toText_iff,
      fun bs hbs => hkey.length_serialize hbs⟩
  · intro hp
    refine ⟨fun index => ⟨_, child_of_public hp index⟩, neuter_of_public hp, fun path => ?_,
      run_of_public hp⟩
    cases hpath : k.derive path with
    | ok k' => exact .inl (by rw [derive_of_public hp hpath])
    | error f => exact .inr ⟨f, rfl⟩

/-- A hardened child of the root of sixteen zero bytes, made public, and a child of it that does not
exist. -/
theorem run_from_zero_seed : ∃ root k, master (Bytes.zeros 16) = .ok root ∧
    root.run [.path "m/0h".toList, .neuter, .child 0] = k ∧ k.depth = 1 ∧ k.key.length = 33 ∧
    ∃ bs, k.serialize = .ok bs ∧ bs.length = 78 := by
  have hok : (master (Bytes.zeros 16)).isOk = true := by decide +kernel
  have hrun : (master (Bytes.zeros 16)).map (fun root =>
      (derivations root [.path "m/0h".toList, .neuter, .child 0],
        (root.run [.path "m/0h".toList, .neuter, .child 0]).isPrivate)) = .ok (1, false) := by
    decide +kernel
  obtain ⟨root, hroot⟩ := Outcome.exists_of_isOk hok
  rw [hroot] at hrun
  obtain ⟨hcount, hpublic⟩ := Prod.mk.inj (Except.ok.inj hrun)
  obtain ⟨-, ⟨-, hdepth, -⟩, -, hpoint, -, ⟨hserialize, -, hlength⟩, -⟩ :=
    run_from_master hroot _ rfl
  rw [hcount] at hdepth
  obtain ⟨bs, hbs⟩ := hserialize.2 (by rw [hdepth]; decide)
  exact ⟨root, _, hroot, rfl, hdepth, (hpoint hpublic).1, bs, hbs, hlength bs hbs⟩

end Keyring.ExtendedKey
