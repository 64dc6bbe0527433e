import Keyring.Proofs.Document.Checked
import Keyring.Proofs.Settings.Merge
import Keyring.Settings.Basic

/-!
# Usual values

Settings that are read from entries have their usual value in each field that is absent
(`usualWhere_of_ofEntries`). A missing section counts as an empty one.
-/

namespace Keyring

open Checked

namespace Settings

/-- A key by its name. -/
def key (name : String) : Scalar := .text name.toList

/-- The fields of settings have their usual values where they are `absent`. -/
structure UsualWhere (absent : Scalar → Scalar → Prop) (s : Settings) : Prop where
  coinType : absent (key "keys") (key "coin_type") → s.keys.coinType = Branch.usual.coinType
  account : absent (key "keys") (key "account") → s.keys.account = Branch.usual.account
  change : absent (key "keys") (key "change") → s.keys.change = Branch.usual.change
  messaging : absent (key "messaging") (key "envelope_encoding") →
    s.messaging = Envelope.Encoding.usual

theorem UsualWhere.mono {absent absent' : Scalar → Scalar → Prop} {s : Settings}
    (h : UsualWhere absent s) (himp : ∀ name field, absent' name field → absent name field) :
    UsualWhere absent' s where
  coinType habsent := h.coinType (himp _ _ habsent)
  account habsent := h.account (himp _ _ habsent)
  change habsent := h.change (himp _ _ habsent)
  messaging habsent := h.messaging (himp _ _ habsent)

theorem branch_ofEntries {es : Entries} {b : Branch} (h : Branch.ofEntries es = .ok b) :
    (es.get? (key "coin_type") = none → b.coinType = Branch.usual.coinType) ∧
    (es.get? (key "account") = none → b.account = Branch.usual.account) ∧
    (es.get? (key "change") = none → b.change = Branch.usual.change) := by
  rw [Branch.ofEntries, sorted_eq_ok] at h
  obtain ⟨f, change, hf, hchange, rfl⟩ := ap_eq_ok.1 h
  obtain ⟨g, account, hg, haccount, rfl⟩ := ap_eq_ok.1 hf
  obtain ⟨mk, coinType, hmk, hcoinType, rfl⟩ := ap_eq_ok.1 hg
  rw [eq_of_only hmk]
  exact ⟨eq_of_absent hcoinType, eq_of_absent haccount, eq_of_absent hchange⟩

theorem encoding_ofEntries {es : Entries} {encoding : Envelope.Encoding}
    (h : Envelope.Encoding.ofEntries es = .ok encoding) :
    es.get? (key "envelope_encoding") = none → encoding = Envelope.Encoding.usual := by
  rw [Envelope.Encoding.ofEntries, sorted_eq_ok] at h
  obtain ⟨f, read, hf, hread, rfl⟩ := ap_eq_ok.1 h
  rw [eq_of_only hf]
  exact eq_of_absent hread

/-- A section is read from its fields, a missing one like an empty one. -/
theorem sectionField_eq_ok {α : Type} {es : Entries} {name : String} {usual : α}
    {read : Entries → Checked α} {a : α} (husual : read [] = .ok usual)
    (h : sectionField es name usual read = .ok a) :
    ∃ sub : Entries, read sub = .ok a ∧ ∀ field, member es (key name) field = sub.get? field := by
  rw [sectionField] at h
  split at h
  · rename_i hnone
    obtain rfl := Except.ok.inj h
    exact ⟨[], husual, member_eq_none fun sub hsub => nomatch hnone.symm.trans hsub⟩
  · rename_i sub hsub
    exact ⟨sub, Checked.under_eq_ok.1 h, member_eq_get? hsub⟩
  · cases h

/-- Settings have their usual value in each field that is absent. -/
theorem usualWhere_of_ofEntries {es : Entries} {s : Settings} (h : ofEntries es = .ok s) :
    UsualWhere (fun name field => member es name field = none) s := by
  rw [ofEntries, sorted_eq_ok] at h
  obtain ⟨f, messaging, hf, hmessaging, rfl⟩ := ap_eq_ok.1 h
  obtain ⟨g, keys, hg, hkeys, rfl⟩ := ap_eq_ok.1 hf
  obtain ⟨mk, path, hmk, -, rfl⟩ := ap_eq_ok.1 hg
  rw [eq_of_only hmk]
  obtain ⟨branch, hbranch, hmember⟩ := sectionField_eq_ok Branch.ofEntries_nil hkeys
  obtain ⟨hcoinType, haccount, hchange⟩ := branch_ofEntries hbranch
  have husual : Envelope.Encoding.ofEntries [] = .ok Envelope.Encoding.usual := rfl
  obtain ⟨sub, hsub, hmember'⟩ := sectionField_eq_ok husual hmessaging
  exact {
    coinType := fun h => hcoinType (hmember _ ▸ h)
    account := fun h => haccount (hmember _ ▸ h)
    change := fun h => hchange (hmember _ ▸ h)
    messaging := fun h => encoding_ofEntries hsub (hmember' _ ▸ h) }

end Settings

end Keyring
