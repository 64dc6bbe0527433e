import Keyring.Content.Record
import Keyring.Proofs.Document.Checked
import Keyring.Proofs.Document.Json

/-!
# Records are read back

A record is written with the entries of its set fields (`ofBytes?_toBytes_eq`), each under its own
name. A field that is not set has no entry and is read as not set again.
-/

namespace Keyring

/-! ### Fields and entries -/

/-- The entries of the fields that are set. -/
def entriesOf (fs : List (String × Option Text)) : Entries :=
  fs.filterMap fun f => f.2.map fun t => (.text f.1.toList, .text t)

section Fields

variable {fs : List (String × Option Text)} {name : String} {v : Option Text}

theorem exists_name_of_mem_entriesOf {e : Scalar × Value} (h : e ∈ entriesOf fs) :
    ∃ name ∈ fs.map (·.1), e.1 = .text name.toList := by
  obtain ⟨f, hf, he⟩ := List.mem_filterMap.1 h
  obtain ⟨t, -, rfl⟩ := Option.map_eq_some_iff.1 he
  exact ⟨f.1, List.mem_map_of_mem hf, rfl⟩

theorem get?_entriesOf_of_notMem (h : name ∉ fs.map (·.1)) :
    (entriesOf fs).get? (.text name.toList) = none := by
  refine Entries.get?_eq_none_iff.2 fun hmem => ?_
  obtain ⟨e, he, hkey⟩ := List.mem_map.1 hmem
  obtain ⟨other, hother, hname⟩ := exists_name_of_mem_entriesOf he
  rw [hname] at hkey
  obtain rfl : other = name := String.toList_inj.1 (Scalar.text.inj hkey)
  exact h hother

/-- A field is found under its name, if it is set. -/
theorem get?_entriesOf (hnodup : (fs.map (·.1)).Nodup) (h : (name, v) ∈ fs) :
    (entriesOf fs).get? (.text name.toList) = v.map .text := by
  induction fs with
  | nil => simp at h
  | cons f fs ih =>
    obtain ⟨field, u⟩ := f
    obtain ⟨hnot, htail⟩ := List.nodup_cons.1 hnodup
    rcases List.mem_cons.1 h with heq | hin
    · obtain ⟨rfl, rfl⟩ := Prod.mk.inj heq
      cases v with
      | none =>
        have hnone : (entriesOf fs).get? (.text name.toList) = none := get?_entriesOf_of_notMem hnot
        exact hnone
      | some t => exact (Entries.get?_cons _ _ _).trans (if_pos rfl)
    · have hmem : name ∈ fs.map (·.1) := List.mem_map_of_mem (f := (·.1)) hin
      have hne : (Scalar.text field.toList).asKey ≠ (Scalar.text name.toList).asKey := fun heq =>
        hnot (String.toList_inj.1 (Scalar.text.inj heq) ▸ hmem)
      cases u with
      | none => exact ih htail hin
      | some t => exact ((Entries.get?_cons _ _ _).trans (if_neg hne)).trans (ih htail hin)

theorem nodup_entriesOf (hnodup : (fs.map (·.1)).Nodup) : (entriesOf fs).keys.Nodup := by
  induction fs with
  | nil => exact List.nodup_nil
  | cons f fs ih =>
    obtain ⟨field, u⟩ := f
    obtain ⟨hnot, htail⟩ := List.nodup_cons.1 hnodup
    cases u with
    | none => exact ih htail
    | some t =>
      refine List.nodup_cons.2 ⟨fun hmem => ?_, ih htail⟩
      obtain ⟨e, he, hkey⟩ := List.mem_map.1 hmem
      obtain ⟨name, hname, hkey'⟩ := exists_name_of_mem_entriesOf he
      rw [hkey'] at hkey
      obtain rfl : name = field := String.toList_inj.1 (Scalar.text.inj hkey)
      exact hnot hname

theorem only_entriesOf {α : Type} (fs : List (String × Option Text)) (value : α) :
    Checked.only (fs.map (·.1)) (entriesOf fs) value = .ok value :=
  Checked.only_eq_ok (fun _ he => exists_name_of_mem_entriesOf he) value

end Fields

/-! ### Reading a record -/

open Checked

namespace FundsRequest

theorem nodup_names (r : FundsRequest) : (r.fields.map (·.1)).Nodup := by
  rw [Content.names_fields_request]
  decide

theorem ofEntries_entriesOf (r : FundsRequest) : ofEntries (entriesOf r.fields) = .ok r := by
  have honly : only names (entriesOf r.fields) mk = .ok mk := only_entriesOf r.fields mk
  have hget : ∀ f ∈ r.fields, (entriesOf r.fields).get? (.text f.1.toList) = f.2.map .text :=
    fun f hf => get?_entriesOf r.nodup_names hf
  generalize entriesOf r.fields = es at honly hget ⊢
  simp only [fields, List.forall_mem_cons] at hget
  obtain ⟨h₁, h₂, h₃, h₄, h₅, h₆, h₇, -⟩ := hget
  rw [ofEntries, honly, required_eq_ok h₁, required_eq_ok h₂, required_eq_ok h₃, required_eq_ok h₄,
    optional_eq_ok h₅, optional_eq_ok h₆, optional_eq_ok h₇]
  rfl

end FundsRequest

namespace PaymentRecord

theorem nodup_names (r : PaymentRecord) : (r.fields.map (·.1)).Nodup := by
  rw [Content.names_fields_payment]
  decide

theorem ofEntries_entriesOf (r : PaymentRecord) : ofEntries (entriesOf r.fields) = .ok r := by
  have honly : only names (entriesOf r.fields) mk = .ok mk := only_entriesOf r.fields mk
  have hget : ∀ f ∈ r.fields, (entriesOf r.fields).get? (.text f.1.toList) = f.2.map .text :=
    fun f hf => get?_entriesOf r.nodup_names hf
  generalize entriesOf r.fields = es at honly hget ⊢
  simp only [fields, List.forall_mem_cons] at hget
  obtain ⟨h₁, h₂, h₃, h₄, h₅, h₆, h₇, h₈, h₉, h₁₀, -⟩ := hget
  rw [ofEntries, honly, required_eq_ok h₁, required_eq_ok h₂, required_eq_ok h₃, required_eq_ok h₄,
    required_eq_ok h₅, defaulted_eq_ok h₆, defaulted_eq_ok h₇, optional_eq_ok h₈, optional_eq_ok h₉,
    optional_eq_ok h₁₀]
  rfl

end PaymentRecord

namespace Content

theorem nodup_names (c : Content) : (c.fields.map (·.1)).Nodup := by
  cases c with
  | request r => exact r.nodup_names
  | payment r => exact r.nodup_names

/-- The entries of a record are read as that record. -/
theorem ofEntries_entriesOf (c : Content) : ofEntries c.kind (entriesOf c.fields) = .ok c := by
  cases c with
  | request r => exact congrArg (fun x => Checked.sorted (x.map request)) r.ofEntries_entriesOf
  | payment r => exact congrArg (fun x => Checked.sorted (x.map payment)) r.ofEntries_entriesOf

theorem map_entry_members (c : Content) : c.members.map Json.entry = entriesOf c.fields := by
  rw [members, entriesOf, List.map_filterMap]
  refine List.filterMap_congr fun f _ => ?_
  rw [Option.map_map]
  rfl

/-- The bytes of a record are read, as a record of any kind, from the entries of its fields. -/
theorem ofBytes?_toBytes_eq (kind : ContentKind) (c : Content) :
    ofBytes? kind c.toBytes = (ofEntries kind (entriesOf c.fields)).toOption := by
  rw [ofBytes?, toBytes, Text.Utf8.decode?_encode, Option.bind_some, ofText?, toText,
    Json.read?_object, map_entry_members, Entries.ofList_eq_self (nodup_entriesOf c.nodup_names)]

/-- The bytes of a record are read as that record. -/
theorem ofBytes?_toBytes (c : Content) : ofBytes? c.kind c.toBytes = some c := by
  rw [ofBytes?_toBytes_eq, ofEntries_entriesOf]
  rfl

end Content

end Keyring
