import Keyring.Fault
import Mathlib.Data.List.Forall2

/-!
# Outcomes of several steps

A sequence of steps succeeds exactly if every step does, and it fails with the fault of the first
step that fails. The lemmas take a sequence apart one step at a time; a check in it is a step
without a value. They hold for faults of any type.

* `foldlM_eq_error`: steps that go on from each other.
* `mapM_eq_ok`, `mapM_eq_error`: one operation on each member of a list.
* `mapM_range_eq_ok`, `mapM_range_eq_error`: one operation on each number below a bound.
-/

namespace Keyring.Outcome

variable {ε α β : Type} {x : Except ε α} {f : α → Except ε β} {b : β} {e e' : ε}

@[simp] theorem pure_eq (a : α) : (pure a : Except ε α) = .ok a := rfl

@[simp] theorem throw_eq (e : ε) : (throw e : Except ε α) = .error e := rfl

@[simp] theorem ok_bind (a : α) : (.ok a : Except ε α) >>= f = f a := rfl

@[simp] theorem error_bind (e : ε) : (.error e : Except ε α) >>= f = .error e := rfl

theorem bind_eq_ok : x >>= f = .ok b ↔ ∃ a, x = .ok a ∧ f a = .ok b := by
  cases x <;> simp

theorem map_eq_ok {g : α → β} : x.map g = .ok b ↔ ∃ a, x = .ok a ∧ g a = b := by
  cases x <;> simp [Except.map]

theorem mapError_eq_ok {ε' : Type} {g : ε → ε'} {a : α} : x.mapError g = .ok a ↔ x = .ok a := by
  cases x with
  | ok b => exact ⟨fun h => congrArg Except.ok (Except.ok.inj h),
    fun h => congrArg Except.ok (Except.ok.inj h)⟩
  | error e => exact iff_of_false (fun h => nomatch h) (fun h => nomatch h)

theorem bind_eq_error : x >>= f = .error e ↔ x = .error e ∨ ∃ a, x = .ok a ∧ f a = .error e := by
  cases x <;> simp

theorem toOption_eq_some {a : α} : x.toOption = some a ↔ x = .ok a := by
  cases x with
  | ok b => simp [Except.toOption]
  | error e => exact iff_of_false (fun h => nomatch h) (fun h => nomatch h)

theorem exists_of_isOk (h : x.isOk) : ∃ a, x = .ok a := by
  cases x with
  | ok a => exact ⟨a, rfl⟩
  | error e => exact absurd h Bool.false_ne_true

/-! ### Steps over a list -/

section Steps

variable {step : α → β → Except ε α} {xs : List β} {a : α}

/-- Steps fail with the fault of the leftmost one that fails, and what stands behind it is not
looked at. -/
theorem foldlM_eq_error : xs.foldlM step a = .error e ↔
    ∃ before x after, xs = before ++ x :: after ∧ ∃ b, before.foldlM step a = .ok b ∧
      step b x = .error e := by
  constructor
  · intro h
    induction xs generalizing a with
    | nil => exact (nomatch h)
    | cons x xs ih =>
      rw [List.foldlM_cons] at h
      rcases bind_eq_error.1 h with hx | ⟨b, hb, hrest⟩
      · exact ⟨[], x, xs, rfl, a, rfl, hx⟩
      · obtain ⟨before, y, after, rfl, c, hc, hy⟩ := ih hrest
        exact ⟨x :: before, y, after, rfl, c, by rw [List.foldlM_cons, hb, ok_bind, hc], hy⟩
  · rintro ⟨before, x, after, rfl, b, hb, hx⟩
    rw [List.foldlM_append, hb, ok_bind, List.foldlM_cons, hx, error_bind]

end Steps

/-! ### One operation on several values -/

section Members

variable {g : α → Except ε β} {xs : List α} {ys : List β}

theorem mapM_eq_ok : xs.mapM g = .ok ys ↔ List.Forall₂ (fun x y => g x = .ok y) xs ys := by
  induction xs generalizing ys with
  | nil => simp [eq_comm]
  | cons x xs ih =>
    simp only [List.mapM_cons, bind_eq_ok, pure_eq, Except.ok.injEq, ih, List.forall₂_cons_left_iff]
    constructor
    · rintro ⟨y, hy, rest, hrest, rfl⟩
      exact ⟨y, rest, hy, hrest, rfl⟩
    · rintro ⟨y, rest, hy, hrest, rfl⟩
      exact ⟨y, hy, rest, hrest, rfl⟩

theorem mapM_congr {g' : α → Except ε β} (h : ∀ x ∈ xs, g x = g' x) : xs.mapM g = xs.mapM g' := by
  induction xs with
  | nil => rfl
  | cons x xs ih =>
    obtain ⟨hx, hxs⟩ := List.forall_mem_cons.1 h
    rw [List.mapM_cons, List.mapM_cons, hx, ih hxs]

/-- The fault is that of the leftmost member with one. -/
theorem mapM_eq_error : xs.mapM g = .error e ↔
    ∃ before x after, xs = before ++ x :: after ∧ (∀ y ∈ before, ∃ b, g y = .ok b) ∧
      g x = .error e := by
  induction xs with
  | nil => simp
  | cons x xs ih =>
    simp only [List.mapM_cons, bind_eq_error, pure_eq, reduceCtorEq, and_false, exists_false,
      or_false, ih]
    constructor
    · rintro (hx | ⟨y, hy, before, z, after, rfl, hbefore, hz⟩)
      · exact ⟨[], x, xs, rfl, List.forall_mem_nil _, hx⟩
      · exact ⟨x :: before, z, after, rfl, List.forall_mem_cons.2 ⟨⟨y, hy⟩, hbefore⟩, hz⟩
    · rintro ⟨before, z, after, hxs, hbefore, hz⟩
      cases before with
      | nil =>
        obtain ⟨rfl, -⟩ := List.cons_eq_cons.1 hxs
        exact .inl hz
      | cons y before =>
        obtain ⟨rfl, htail⟩ := List.cons_eq_cons.1 hxs
        obtain ⟨⟨b, hb⟩, hrest⟩ := List.forall_mem_cons.1 hbefore
        exact .inr ⟨b, hb, before, z, after, htail, hrest, hz⟩

variable {h : ℕ → Except ε β} {n : ℕ}

theorem mapM_range_eq_ok : (List.range n).mapM h = .ok ys ↔
    ys.length = n ∧ ∀ i < n, ∃ y, ys[i]? = some y ∧ h i = .ok y := by
  rw [mapM_eq_ok, List.forall₂_iff_get]
  simp only [List.length_range, List.get_eq_getElem, List.getElem_range]
  constructor
  · rintro ⟨rfl, hall⟩
    exact ⟨rfl, fun i hi => ⟨ys[i], List.getElem?_eq_getElem hi, hall i hi hi⟩⟩
  · rintro ⟨rfl, hall⟩
    refine ⟨rfl, fun i hi _ => ?_⟩
    obtain ⟨y, hy, hok⟩ := hall i hi
    rwa [(List.getElem?_eq_some_iff.1 hy).2]

theorem mapM_range_eq_error : (List.range n).mapM h = .error e ↔
    ∃ i < n, h i = .error e ∧ ∀ j < i, ∃ y, h j = .ok y := by
  rw [mapM_eq_error, List.range_eq_range']
  constructor
  · rintro ⟨before, i, after, hrange, hbefore, hi⟩
    obtain ⟨k, hk, rfl, hrest⟩ := List.range'_eq_append_iff.1 hrange
    obtain ⟨rfl, hpos, -⟩ := List.range'_eq_cons_iff.1 hrest.symm
    refine ⟨_, ?_, hi, fun j hj => hbefore j ?_⟩
    · omega
    · simpa using hj
  · rintro ⟨i, hi, he, hall⟩
    obtain ⟨k, rfl⟩ : ∃ k, n = i + (k + 1) := ⟨n - i - 1, by omega⟩
    have hsplit : List.range' 0 (i + (k + 1)) = List.range' 0 i ++ i :: List.range' (i + 1) k := by
      rw [← List.range'_append_1, Nat.zero_add, List.range'_succ]
    exact ⟨_, i, _, hsplit, fun j hj => hall j (by simpa using hj), he⟩

end Members

/-! ### Checks -/

variable {p : Prop} [Decidable p] {y : Except ε β}

theorem check_eq_ok : (if p then .error e else y) = .ok b ↔ ¬p ∧ y = .ok b := by
  by_cases h : p <;> simp [h]

theorem check_eq_error :
    (if p then .error e else y) = .error e' ↔ (p ∧ e = e') ∨ (¬p ∧ y = .error e') := by
  by_cases h : p <;> simp [h]

end Keyring.Outcome
