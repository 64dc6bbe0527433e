import Keyring.Proofs.Key.Extended
import Keyring.Proofs.Key.Part

/-!
# Paths that are written out of numbers

A part of a path is written as a numeral with marks behind it, or with a single mark for a hardened
child (`Part`). Such a text has neither a slash nor a blank, it is not idle, and its numeral is read
as the number again. So a written path leads from child to child along its numbers.
-/

namespace Keyring

namespace Path

open ExtendedKey (hardenedOffset)

/-- A part of a path: a number below the first hardened index and whether it is marked. -/
structure Part where
  number : ℕ
  marked : Bool
  range : number < hardenedOffset

namespace Part

/-- The index that a part stands for. -/
def index (p : Part) : ℕ :=
  if p.marked then hardenedOffset + p.number else p.number

/-- The text of a part. -/
def written (p : Part) : Text :=
  Text.ofNat p.number ++ if p.marked then ['\''] else []

/-- The text of a path from the root. -/
def path (ps : List Part) : Text :=
  Text.joinWith '/' (['m'] :: ps.map written)

end Part

/-! ### One part -/

section Numeral

open Text.Decimal

variable {n : ℕ} {marks : Text}

/-- A numeral is a literal, too short to be refused for its length. -/
theorem names_numeral (h : n < hardenedOffset) (hmarks : ∀ c ∈ marks, isMark c) :
    Names (Text.ofNat n ++ marks) (if marks = [] then n else n + 2 ^ 31) := by
  obtain ⟨ds, hliteral, hdigits⟩ := exists_literal_ofNat n
  have hlength : ds.length ≤ mostDigits := by
    rw [hdigits]
    exact (Text.length_ofNat_le (k := 10) (by decide) (h.trans (by decide))).trans (by decide)
  have hrange : 0 ≤ (n : Int) ∧ (n : Int) < 2 ^ 31 := ⟨Int.natCast_nonneg n, by exact_mod_cast h⟩
  exact ⟨marks, n, ⟨_, ds, hliteral, hlength, hmarks, rfl⟩, hrange, rfl⟩

theorem isIdle_numeral (n : ℕ) (marks : Text) : isIdle (Text.ofNat n ++ marks) = false := by
  obtain ⟨c, t, hct⟩ := List.exists_cons_of_ne_nil (Text.ofNat_ne_nil n)
  have hc : c ≠ 'm' ∧ c ≠ 'M' :=
    Text.forall_mem_ofNat (P := fun c => c ≠ 'm' ∧ c ≠ 'M') (by decide) n c (by rw [hct]; simp)
  unfold isIdle
  rw [hct]
  simp [hc.1, hc.2]

theorem plain_numeral (hmarks : ∀ c ∈ marks, isMark c) :
    ∀ c ∈ Text.ofNat n ++ marks, c ≠ '/' ∧ Text.isBlank c = false := by
  intro c hc
  rcases List.mem_append.1 hc with hc | hc
  · exact Text.forall_mem_ofNat (P := fun c => c ≠ '/' ∧ Text.isBlank c = false) (by decide) n c hc
  · rcases isMark_iff.1 (hmarks c hc) with rfl | rfl | rfl
    all_goals decide

end Numeral

/-- Such texts are the pieces of the path, and only the letter in front is idle. -/
theorem parts_joinWith {ws : List Text} (hidle : ∀ w ∈ ws, isIdle w = false)
    (hplain : ∀ w ∈ ws, ∀ c ∈ w, c ≠ '/' ∧ Text.isBlank c = false) :
    parts (Text.joinWith '/' (['m'] :: ws)) = ws := by
  have hroot : ∀ w ∈ ['m'] :: ws, ∀ c ∈ w, c ≠ '/' ∧ Text.isBlank c = false :=
    List.forall_mem_cons.2 ⟨List.forall_mem_singleton.2 ⟨by decide, rfl⟩, hplain⟩
  have hblank : ∀ c ∈ Text.joinWith '/' (['m'] :: ws), Text.isBlank c = false := by
    intro c hc
    rcases Text.mem_joinWith hc with rfl | ⟨w, hw, hc⟩
    · decide
    · exact (hroot w hw c hc).2
  have hkeep : ∀ w ∈ ws, (!isIdle w) = true := fun w hw => by rw [hidle w hw, Bool.not_false]
  rw [parts, Text.trim, Text.trimBy_of_forall hblank,
    Text.splitOn_joinWith (List.cons_ne_nil _ _) fun w hw hc => (hroot w hw _ hc).1 rfl]
  exact List.filter_eq_self.2 hkeep

/-! ### Written parts -/

namespace Part

theorem forall_mem_marks (p : Part) : ∀ c ∈ (if p.marked then ['\''] else [] : Text), isMark c := by
  cases p.marked with
  | false => exact List.forall_mem_nil _
  | true => exact List.forall_mem_singleton.2 rfl

/-- A part is read as the index it was written for. -/
theorem index_written (p : Part) : Path.index p.written = .ok p.index := by
  have hnames : Names p.written p.index := by
    have h := names_numeral p.range p.forall_mem_marks
    unfold written index
    cases hmarked : p.marked with
    | false =>
      rw [hmarked] at h
      exact h
    | true =>
      rw [hmarked] at h
      rw [if_pos rfl, if_pos rfl, Nat.cast_add, add_comm]
      exact h
  exact (index_of_names hnames).1

theorem index_lt (p : Part) : p.index < 2 ^ 32 := by
  have hrange := p.range
  unfold index
  unfold hardenedOffset at *
  split <;> omega

/-! ### Whole paths -/

theorem parts_path (ps : List Part) : parts (path ps) = ps.map written := by
  refine parts_joinWith (fun w hw => ?_) fun w hw => ?_
  · obtain ⟨p, -, rfl⟩ := List.mem_map.1 hw
    exact isIdle_numeral p.number _
  · obtain ⟨p, -, rfl⟩ := List.mem_map.1 hw
    exact plain_numeral p.forall_mem_marks

end Part

end Path

namespace ExtendedKey

open Keyring.Path

theorem step_written (k : ExtendedKey) (p : Part) : k.step p.written = k.child p.index := by
  rw [step, p.index_written]
  rfl

/-- The key at the end of a written path is reached by one child derivation for each part. -/
theorem derive_path (k : ExtendedKey) (ps : List Part) :
    k.derive (Part.path ps) = ps.foldlM (fun k p => k.child p.index) k := by
  rw [derive, Part.parts_path, List.foldlM_map]
  simp only [step_written]

/-- Every part has an index that four bytes hold, so only the derivation codes can fail. -/
theorem Sound.derive_path_cases {k : ExtendedKey} (h : Sound k) (hp : k.isPrivate = true)
    (ps : List Part) :
    (∃ c, k.derive (Part.path ps) = .ok c ∧ Sound c ∧ c.isPrivate = true) ∨
      k.derive (Part.path ps) = .error .childTooLarge ∨
        k.derive (Part.path ps) = .error .childZero := by
  rw [derive_path]
  induction ps generalizing k with
  | nil => exact .inl ⟨k, rfl, h, hp⟩
  | cons p ps ih =>
    have hindex : 0 ≤ (p.index : Int) ∧ (p.index : Int) < 2 ^ 32 :=
      ⟨Int.natCast_nonneg _, by exact_mod_cast p.index_lt⟩
    rw [List.foldlM_cons]
    rcases h.child_cases hp hindex with ⟨c, hc⟩ | hf | hf
    · rw [hc, Outcome.ok_bind]
      exact ih (h.child hc) (isPrivate_of_child hc)
    · exact .inr (.inl (by rw [hf]; rfl))
    · exact .inr (.inr (by rw [hf]; rfl))

end ExtendedKey

end Keyring
