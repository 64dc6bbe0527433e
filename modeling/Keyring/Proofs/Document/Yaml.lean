import Keyring.Document.Yaml.Node
import Keyring.Proofs.Document.Value
import Keyring.Proofs.Outcome

/-!
# Mappings that are read from YAML

The entries of a mapping are collected first and put together at its end, the last of equal keys
winning. So all mappings in what is read have different keys, at every depth
(`distinctKeys_of_read`).

The readers of collections call each other with less fuel. `Flow fuel` and `Block fuel` say what
they yield with this fuel, and one step of each reader leads on to the next fuel.
-/

namespace Keyring.Yaml

variable {ε α β : Type}

/-! ### What a reader yields -/

/-- Every result satisfies `P`. -/
def Yields (P : α → Prop) (x : Except ε α) : Prop :=
  ∀ a, x = .ok a → P a

theorem yields_ok {P : α → Prop} {a : α} (h : P a) : Yields P (.ok a : Except ε α) := by
  intro b hb
  exact Except.ok.inj hb ▸ h

theorem yields_error {P : α → Prop} {e : ε} : Yields P (.error e : Except ε α) :=
  fun _ h => nomatch h

/-- What one reader yields is passed on to the next. -/
theorem Yields.bind {P : α → Prop} {Q : β → Prop} {x : Except ε α} {f : α → Except ε β}
    (hx : Yields P x) (hf : ∀ a, P a → Yields Q (f a)) : Yields Q (x >>= f) := by
  intro b hb
  obtain ⟨a, ha, hb⟩ := Outcome.bind_eq_ok.1 hb
  exact hf a (hx a ha) b hb

theorem Yields.map {P : α → Prop} {Q : β → Prop} {x : Except ε α} {g : α → β} (hx : Yields P x)
    (hg : ∀ a, P a → Q (g a)) : Yields Q (x.map g) := by
  intro b hb
  obtain ⟨a, ha, rfl⟩ := Outcome.map_eq_ok.1 hb
  exact hg a (hx a ha)

theorem yields_true (x : Except ε α) : Yields (fun _ => True) x :=
  fun _ _ => trivial

/-! ### Flow collections -/

/-- What the readers of flow collections yield with some fuel. -/
structure Flow (fuel : ℕ) : Prop where
  node : ∀ c, Yields (fun r => r.1.DistinctKeys) (flowNode fuel c)
  value : ∀ c, Yields (fun r => r.1.DistinctKeys) (flowValue fuel c)
  items : ∀ c, Yields (fun r => ∀ v ∈ r.1, v.DistinctKeys) (flowItems fuel c)
  entries : ∀ c, Yields (fun r => ∀ e ∈ r.1, e.2.DistinctKeys) (flowEntries fuel c)

section Flow

variable {fuel : ℕ} (ih : Flow fuel) (c : Cursor)

include ih

theorem yields_flowNode : Yields (fun r => r.1.DistinctKeys) (flowNode (fuel + 1) c) := by
  rw [flowNode]
  split
  · exact yields_error
  · split
    · exact (ih.items _).bind fun ⟨items, c⟩ h => yields_ok (.list h)
    · exact (ih.entries _).bind fun ⟨entries, c⟩ h => yields_ok (.ofList h)
    · split_ifs
      · exact (yields_true _).bind fun ⟨t, c⟩ _ => yields_ok (.scalar _)
      · exact (yields_true _).bind fun ⟨s, c⟩ _ => yields_ok (.scalar _)
      · exact yields_error
    · exact yields_error

theorem yields_flowValue : Yields (fun r => r.1.DistinctKeys) (flowValue (fuel + 1) c) := by
  rw [flowValue]
  split
  · split_ifs
    · exact yields_ok (.scalar _)
    · exact ih.node c
  · exact yields_error

/-- A pair among the items of a list is a mapping with one entry. -/
theorem yields_flowItems :
    Yields (fun r => ∀ v ∈ r.1, v.DistinctKeys) (flowItems (fuel + 1) c) := by
  rw [flowItems]
  split
  · exact yields_ok (fun v hv => absurd hv List.not_mem_nil)
  · refine (ih.node c).bind ?_
    rintro ⟨item, after⟩ hitem
    refine Yields.bind (P := fun r => r.1.DistinctKeys) ?_ ?_
    · split
      · split_ifs
        · exact (ih.value _).map fun r hr =>
            .map (by simp [Entries.keys]) (List.forall_mem_singleton.2 hr)
        · exact yields_error
      · exact yields_error
      · exact yields_ok hitem
    · rintro ⟨item, next⟩ hitem
      dsimp only
      split
      · refine (ih.items _).bind ?_
        rintro ⟨items, c⟩ hitems
        exact yields_ok (List.forall_mem_cons.2 ⟨hitem, hitems⟩)
      · exact yields_ok (List.forall_mem_singleton.2 hitem)
      · exact yields_error

theorem yields_flowEntries :
    Yields (fun r => ∀ e ∈ r.1, e.2.DistinctKeys) (flowEntries (fuel + 1) c) := by
  rw [flowEntries]
  split
  · exact yields_ok (fun e he => absurd he List.not_mem_nil)
  · refine (yields_true _).bind fun ⟨key, after⟩ _ => ?_
    dsimp only
    split
    · refine Yields.bind (P := fun r => r.1.DistinctKeys) ?_ fun ⟨v, next⟩ hv => ?_
      · split
        · split_ifs
          · exact (ih.value _).map fun r hr => hr
          · exact yields_error
        · exact yields_ok (.scalar _)
      · dsimp only
        split
        · exact (ih.entries _).bind fun ⟨entries, c⟩ hentries =>
            yields_ok (List.forall_mem_cons.2 ⟨hv, hentries⟩)
        · exact yields_ok (List.forall_mem_singleton.2 hv)
        · exact yields_error
    · exact yields_error

end Flow

/-- The readers of flow collections, with any fuel. -/
theorem flow (fuel : ℕ) : Flow fuel := by
  induction fuel with
  | zero =>
    exact ⟨fun _ => yields_error, fun _ => yields_error, fun _ => yields_error,
      fun _ => yields_error⟩
  | succ fuel ih =>
    exact ⟨yields_flowNode ih, yields_flowValue ih, yields_flowItems ih, yields_flowEntries ih⟩

/-! ### Block collections -/

/-- What the readers of block collections yield with some fuel. -/
structure Block (fuel : ℕ) : Prop where
  node : ∀ least block c, Yields (fun r => r.1.DistinctKeys) (node fuel least block c)
  items : ∀ column c, Yields (fun r => ∀ v ∈ r.1, v.DistinctKeys) (blockItems fuel column c)
  entries : ∀ column key c,
    Yields (fun r => ∀ e ∈ r.1, e.2.DistinctKeys) (blockEntries fuel column key c)

theorem yields_leaf (fuel least : ℕ) (c : Cursor) :
    Yields (fun r => r.1.DistinctKeys) (leaf fuel least c) := by
  rw [leaf]
  split
  · split_ifs
    · exact (flow fuel).node c
    · exact (yields_true _).bind fun ⟨s, c⟩ _ => yields_ok (.scalar _)
    · exact yields_error
  · exact yields_error

section Block

variable {fuel : ℕ} (ih : Block fuel)

include ih

theorem yields_node (least : ℕ) (block : Bool) (c : Cursor) :
    Yields (fun r => r.1.DistinctKeys) (node (fuel + 1) least block c) := by
  rw [node]
  split
  · split_ifs
    · exact (ih.items _ _).bind fun ⟨items, c⟩ h => yields_ok (.list h)
    · exact yields_error
  · refine (yields_true _).bind fun key? _ => ?_
    split
    · split_ifs
      · exact (ih.entries _ _ _).bind fun ⟨entries, c⟩ h => yields_ok (.ofList h)
      · exact yields_error
    · exact yields_leaf fuel least c

theorem yields_blockItems (column : ℕ) (c : Cursor) :
    Yields (fun r => ∀ v ∈ r.1, v.DistinctKeys) (blockItems (fuel + 1) column c) := by
  rw [blockItems]
  refine Yields.bind (P := fun r => r.1.DistinctKeys) ?_ fun ⟨item, next⟩ hitem => ?_
  · split_ifs
    · exact yields_ok (.scalar _)
    · exact ih.node _ _ _
  · dsimp only
    split_ifs
    · exact yields_ok (List.forall_mem_singleton.2 hitem)
    · exact yields_error
    · exact (ih.items _ _).bind fun ⟨items, c⟩ hitems =>
        yields_ok (List.forall_mem_cons.2 ⟨hitem, hitems⟩)
    · exact yields_ok (List.forall_mem_singleton.2 hitem)
    · exact yields_error

theorem yields_blockEntries (column : ℕ) (key : Scalar) (c : Cursor) :
    Yields (fun r => ∀ e ∈ r.1, e.2.DistinctKeys) (blockEntries (fuel + 1) column key c) := by
  rw [blockEntries]
  refine Yields.bind (P := fun r => r.1.DistinctKeys) ?_ fun ⟨v, next⟩ hv => ?_
  · split_ifs
    · exact (ih.items _ _).map fun r hr => .list hr
    · exact yields_ok (.scalar _)
    · exact ih.node _ _ _
  · dsimp only
    split_ifs
    · exact yields_ok (List.forall_mem_singleton.2 hv)
    · exact yields_error
    · refine (yields_true _).bind fun key? _ => ?_
      split
      · exact (ih.entries _ _ _).bind fun ⟨entries, c⟩ hentries =>
          yields_ok (List.forall_mem_cons.2 ⟨hv, hentries⟩)
      · exact yields_error
    · exact yields_ok (List.forall_mem_singleton.2 hv)
    · exact yields_error

end Block

/-- The readers of block collections, with any fuel. -/
theorem block (fuel : ℕ) : Block fuel := by
  induction fuel with
  | zero => exact ⟨fun _ _ _ => yields_error, fun _ _ => yields_error, fun _ _ _ => yields_error⟩
  | succ fuel ih => exact ⟨yields_node ih, yields_blockItems ih, yields_blockEntries ih⟩

/-! ### Documents -/

theorem yields_root (c : Cursor) : Yields Value.DistinctKeys (root c) := by
  unfold root
  dsimp only
  generalize Cursor.skip (if c.atStart = true then c.advance 3 else c) = content
  split
  · split
    · exact yields_ok (.scalar .null)
    · exact yields_error
  · refine ((block _).node _ _ _).bind fun ⟨v, after⟩ hv => ?_
    dsimp only
    split
    · exact yields_error
    · split
      · exact yields_ok hv
      · exact yields_error

/-- All mappings in a document that is read have different keys. -/
theorem distinctKeys_of_read {t : Text} {v : Value} (h : read t = .ok v) : v.DistinctKeys := by
  have hread : Yields Value.DistinctKeys (read t) := by
    unfold read
    split_ifs
    · exact yields_root _
    · exact yields_error
  exact hread v h

end Keyring.Yaml
