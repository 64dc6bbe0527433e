import Keyring.Document.Checked
import Keyring.Proofs.Document.Value
import Keyring.Proofs.Outcome

/-!
# Fields that are read

* `Checked.only_eq_ok`, `Checked.required_eq_ok`, `Checked.optional_eq_ok`: what a reading yields
  for the value of a field that was written.
* `Checked.only_isOk`, `Checked.required_isOk`: a reading fails for a key that is no name, and
  without a field that has to be there.
* `Checked.eq_of_absent`: a field that is absent has its usual value.
-/

namespace Keyring

namespace Checked

variable {α : Type} {es : Entries} {name : String}

theorem only_eq_ok {names : List String} (h : ∀ e ∈ es, ∃ name ∈ names, e.1 = .text name.toList)
    (value : α) : only names es value = .ok value := by
  simp only [only]
  rw [List.filterMap_eq_nil_iff.2 fun e he => ?_]
  obtain ⟨name, hname, hkey⟩ := h e he
  have hmem : name.toList ∈ names.map String.toList := List.mem_map_of_mem hname
  simp [hkey, hmem]

/-- A mapping with a key that is no name is refused. -/
theorem only_isOk {names : List String} (value : α) :
    (only names es value).isOk ↔ ∀ e ∈ es, ∃ name ∈ names, e.1 = .text name.toList := by
  constructor
  · intro h e he
    simp only [only] at h
    split at h
    · rename_i hnone
      have hkey := List.filterMap_eq_nil_iff.1 hnone e he
      obtain ⟨key, v⟩ := e
      cases key with
      | text t =>
        obtain ⟨name, hname, rfl⟩ : ∃ name ∈ names, name.toList = t := by simpa using hkey
        exact ⟨name, hname, rfl⟩
      | null | bool | int | float | other => exact (nomatch hkey)
    · exact (nomatch h)
  · intro h
    rw [only_eq_ok h]
    rfl

@[simp] theorem isOk_ap {β : Type} (f : Checked (α → β)) (a : Checked α) :
    (ap f a).isOk = (f.isOk && a.isOk) := by
  cases f <;> cases a <;> rfl

@[simp] theorem isOk_map {β : Type} (f : α → β) (r : Checked α) : (r.map f).isOk = r.isOk := by
  cases r <;> rfl

@[simp] theorem isOk_sorted (r : Checked α) : (sorted r).isOk = r.isOk := by
  cases r <;> rfl

theorem required_isOk :
    (required es name).isOk ↔ ∃ t, es.get? (.text name.toList) = some (.text t) := by
  rw [required, field]
  cases es.get? (.text name.toList) with
  | none => simp [Except.mapError, Except.isOk, Except.toBool]
  | some v => cases v with
    | scalar s =>
      cases s <;>
        simp [readText, Value.text?, Value.text, Except.mapError, Except.isOk, Except.toBool]
    | list | map =>
      simp [readText, Value.text?, Value.text, Except.mapError, Except.isOk, Except.toBool]

theorem required_eq_ok {t : Text} (h : es.get? (.text name.toList) = some (.text t)) :
    required es name = .ok t := by
  rw [required, field, h]
  rfl

theorem defaulted_eq_ok {t : Text} (h : es.get? (.text name.toList) = some (.text t)) :
    defaulted es name = .ok t := by
  rw [defaulted, field, h]
  rfl

theorem optional_eq_ok {v : Option Text} (h : es.get? (.text name.toList) = v.map .text) :
    optional es name = .ok v := by
  rw [optional, field, h]
  cases v <;> rfl

/-! ### What a reading that succeeds says -/

section

variable {a : α}

theorem sorted_eq_ok {r : Checked α} : sorted r = .ok a ↔ r = .ok a :=
  Outcome.mapError_eq_ok

theorem under_eq_ok {r : Checked α} : r.under name = .ok a ↔ r = .ok a :=
  Outcome.mapError_eq_ok

theorem eq_of_only {names : List String} {value : α} (h : only names es value = .ok a) :
    a = value := by
  simp only [only] at h
  split at h
  · exact (Except.ok.inj h).symm
  · cases h

theorem eq_of_absent {usual : α} {read : Value → Except Defect α}
    (hread : field es name (.ok usual) read = .ok a) (h : es.get? (.text name.toList) = none) :
    a = usual := by
  rw [field, h] at hread
  exact (Except.ok.inj hread).symm

end

end Checked

end Keyring
