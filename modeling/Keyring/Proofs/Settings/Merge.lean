import Keyring.Proofs.Document.Value
import Keyring.Settings.Merge

/-!
# What is seen after a file is merged

For each key, `get?_under` tells what is seen once the entries of a file lie under values. `Merged`
lists what this means for the values, for the file and for the fields of their sections, and
`merged_under` says that it holds of `under`. A file that lies under values already changes nothing
any more (`under_under`).
-/

namespace Keyring.Settings

/-! ### One value -/

theorem underValue_eq_file {file : Value} {value : Option Value}
    (h : value = none ∨ value = some .null) : underValue file value = file := by
  rcases h with rfl | rfl
  · rfl
  · rfl

theorem underValue_map (es fs : Entries) :
    underValue (.map fs) (some (.map es)) = .map (Entries.putAll es fs) := rfl

theorem underValue_eq_value {file v : Value} (hnull : v ≠ .null)
    (hmap : (∀ es, v ≠ .map es) ∨ ∀ fs, file ≠ .map fs) : underValue file (some v) = v := by
  cases v with
  | scalar s =>
    cases s with
    | null => exact absurd rfl hnull
    | _ => rfl
  | list items => rfl
  | map es =>
    cases file with
    | map fs =>
      rcases hmap with h | h
      · exact absurd rfl (h es)
      · exact absurd rfl (h fs)
    | _ => rfl

/-- The file is taken, two mappings are put together, or the value stays. -/
theorem underValue_cases (file : Value) (value : Option Value) :
    (value = none ∨ value = some .null) ∨ (∃ es fs, value = some (.map es) ∧ file = .map fs) ∨
      ∃ v, value = some v ∧ v ≠ .null ∧ ((∀ es, v ≠ .map es) ∨ ∀ fs, file ≠ .map fs) := by
  cases value with
  | none => exact .inl (.inl rfl)
  | some v =>
    by_cases hnull : v = .null
    · exact .inl (.inr (by rw [hnull]))
    · by_cases hboth : ∃ es fs, v = .map es ∧ file = .map fs
      · obtain ⟨es, fs, rfl, rfl⟩ := hboth
        exact .inr (.inl ⟨es, fs, rfl, rfl⟩)
      · refine .inr (.inr ⟨v, rfl, hnull, ?_⟩)
        by_contra! h
        obtain ⟨⟨es, hes⟩, fs, hfs⟩ := h
        exact hboth ⟨es, fs, hes, hfs⟩

/-- What came from a file is not changed by the same file. -/
theorem underValue_underValue {file : Value} (h : file.DistinctKeys) (value : Option Value) :
    underValue file (some (underValue file value)) = underValue file value := by
  rcases underValue_cases file value with habsent | ⟨es, fs, rfl, rfl⟩ | ⟨v, rfl, hnull, hmap⟩
  · rw [underValue_eq_file habsent]
    rcases underValue_cases file (some file) with hself | ⟨es, fs, hes, rfl⟩ | ⟨v, hv, hnull, hmap⟩
    · exact underValue_eq_file hself
    · rw [underValue_map, Entries.putAll_of_keys_eq rfl h.nodup_keys]
    · obtain rfl := Option.some.inj hv
      exact underValue_eq_value hnull hmap
  · rw [underValue_map, underValue_map, Entries.putAll_putAll_self h.nodup_keys]
  · rw [underValue_eq_value hnull hmap, underValue_eq_value hnull hmap]

/-! ### All values -/

/-- Entries that are put one by one, each combined with what is there, are seen as they were
combined with what was there first. -/
theorem get?_foldl_put (combine : Value → Option Value → Value) {es : Entries} (h : es.keys.Nodup)
    (values : Entries) (key : Scalar) :
    (es.foldl (fun acc e => acc.put e.1 (combine e.2 (acc.get? e.1))) values).get? key =
      ((es.get? key).map (combine · (values.get? key))).or (values.get? key) := by
  induction es generalizing values with
  | nil => rfl
  | cons e es ih =>
    obtain ⟨hnot, hnodup⟩ := List.nodup_cons.1 h
    rw [List.foldl_cons, ih hnodup, Entries.get?_put, Entries.get?_cons]
    by_cases hkey : key.asKey = e.1.asKey
    · have hnone : Entries.get? es key = none := Entries.get?_eq_none_iff.2 (hkey ▸ hnot)
      rw [if_pos hkey, if_pos hkey.symm, hnone, Entries.get?_congr hkey values]
      rfl
    · rw [if_neg hkey, if_neg (Ne.symm hkey)]

theorem overlay_eq_foldl (upper lower : Entries) : overlay upper lower =
    upper.foldl (fun es e => es.put e.1 (overlayValue e.2 (es.get? e.1))) lower := by
  induction upper generalizing lower with
  | nil => rw [overlay]; rfl
  | cons e upper ih => rw [overlay, ih, List.foldl_cons]

/-- A key is seen as the upper layer has it over the lower one, and else as in the lower one. -/
theorem get?_overlay {upper : Entries} (h : upper.keys.Nodup) (lower : Entries) (key : Scalar) :
    (overlay upper lower).get? key =
      ((upper.get? key).map (overlayValue · (lower.get? key))).or (lower.get? key) := by
  rw [overlay_eq_foldl, get?_foldl_put _ h]

theorem under_cons (e : Scalar × Value) (file values : Entries) :
    under (e :: file) values = under file (values.put e.1 (underValue e.2 (values.get? e.1))) := rfl

/-- A key is seen as the file has it under the values, and without the file as it was. -/
theorem get?_under {file : Entries} (h : file.keys.Nodup) (values : Entries) (key : Scalar) :
    (under file values).get? key =
      ((file.get? key).map (underValue · (values.get? key))).or (values.get? key) :=
  get?_foldl_put underValue h values key

theorem under_eq_self {file values : Entries}
    (h : ∀ e ∈ file, values.get? e.1 = some (underValue e.2 (values.get? e.1))) :
    under file values = values := by
  induction file with
  | nil => rfl
  | cons e file ih =>
    rw [under_cons, Entries.put_eq_self (h e List.mem_cons_self)]
    exact ih fun f hf => h f (List.mem_cons_of_mem e hf)

/-- A file is merged once and for all. -/
theorem under_under {file : Entries} (h : (Value.map file).DistinctKeys) (values : Entries) :
    under file (under file values) = under file values := by
  refine under_eq_self fun e he => ?_
  have hfile : file.get? e.1 = some e.2 := Entries.get?_of_mem h.nodup_keys he
  have hget : (under file values).get? e.1 = some (underValue e.2 (values.get? e.1)) := by
    rw [get?_under h.nodup_keys, hfile]
    rfl
  rw [hget, underValue_underValue (h.of_get? hfile)]

/-! ### Sections -/

/-- The value of a field of a section, if the section is there as a mapping. -/
def member (es : Entries) (name field : Scalar) : Option Value :=
  ((es.get? name).bind Value.entries?).bind (Entries.get? · field)

theorem member_eq_get? {es sub : Entries} {name : Scalar} (h : es.get? name = some (.map sub))
    (field : Scalar) : member es name field = sub.get? field := by
  rw [member, h]
  rfl

theorem member_eq_none {es : Entries} {name : Scalar} (h : ∀ sub, es.get? name ≠ some (.map sub))
    (field : Scalar) : member es name field = none := by
  rw [member]
  cases hget : es.get? name with
  | none => rfl
  | some v =>
    cases v with
    | map sub => exact absurd hget (h sub)
    | scalar | list => rfl

/-- Only a mapping has fields. -/
theorem exists_map_of_member {es : Entries} {name field : Scalar} {v : Value}
    (h : member es name field = some v) : ∃ sub : Entries, es.get? name = some (.map sub) := by
  obtain ⟨sub, hsub, -⟩ := Option.bind_eq_some_iff.1 h
  obtain ⟨u, hu, hmap⟩ := Option.bind_eq_some_iff.1 hsub
  exact ⟨sub, Value.entries?_eq_some.1 hmap ▸ hu⟩

/-- No section among the values has two fields with the same key. -/
def Sectioned (values : Entries) : Prop :=
  ∀ name (es : Entries), values.get? name = some (.map es) → es.keys.Nodup

/-- What is seen of values and of a file in what they were merged to. -/
structure Merged (file values merged : Entries) : Prop where
  /-- What is absent or null among the values is taken from the file. -/
  taken : ∀ key v, values.get? key = none ∨ values.get? key = some .null → file.get? key = some v →
    merged.get? key = some v
  /-- Two mappings become one with the fields of both, and those of the values come first. -/
  completed : ∀ key (es fs : Entries),
    values.get? key = some (.map es) → file.get? key = some (.map fs) →
    ∃ ms : Entries, merged.get? key = some (.map ms) ∧
      ∀ field, ms.get? field = (es.get? field).or (fs.get? field)
  /-- Every other value stays. -/
  kept : ∀ key v, values.get? key = some v → v ≠ .null →
    (∀ es, v ≠ .map es) ∨ (∀ fs, file.get? key ≠ some (.map fs)) → merged.get? key = some v
  /-- What the file does not have stays as it was, absent or not. -/
  unnamed : ∀ key, file.get? key = none → merged.get? key = values.get? key

/-- All of this holds of values with a file under them. -/
theorem merged_under {file values : Entries} (hfile : file.keys.Nodup)
    (hvalues : Sectioned values) : Merged file values (under file values) where
  taken key v habsent hv := by
    rw [get?_under hfile, hv, Option.map_some, underValue_eq_file habsent]
    rfl
  completed key es fs hes hfs := by
    refine ⟨Entries.putAll es fs, ?_,
      fun field => Entries.get?_putAll (hvalues key es hes) fs field⟩
    rw [get?_under hfile, hfs, hes, Option.map_some, underValue_map]
    rfl
  kept key v hv hnull hmap := by
    rw [get?_under hfile, hv]
    cases hget : file.get? key with
    | none => rfl
    | some f =>
      have hmap' : (∀ es, v ≠ .map es) ∨ ∀ fs, f ≠ .map fs :=
        hmap.imp_right fun h fs hfs => h fs (hfs ▸ hget)
      rw [Option.map_some, underValue_eq_value hnull hmap']
      rfl
  unnamed key hnone := by
    rw [get?_under hfile, hnone]
    rfl

namespace Merged

variable {file values merged : Entries} (h : Merged file values merged)

include h

/-- No key is lost and none is made up. -/
theorem isSome_get? (key : Scalar) :
    (merged.get? key).isSome ↔ (values.get? key).isSome ∨ (file.get? key).isSome := by
  cases hfile : file.get? key with
  | none => simp [h.unnamed key hfile]
  | some f =>
    refine iff_of_true ?_ (.inr rfl)
    rcases underValue_cases f (values.get? key) with habsent | ⟨es, fs, hes, rfl⟩ |
      ⟨v, hv, hnull, hmap⟩
    · rw [h.taken key f habsent hfile]
      rfl
    · obtain ⟨ms, hms, -⟩ := h.completed key es fs hes hfile
      rw [hms]
      rfl
    · have hmap' : (∀ es, v ≠ .map es) ∨ ∀ fs, file.get? key ≠ some (.map fs) :=
        hmap.imp_right fun hne fs hfs => hne fs (Option.some.inj (hfile.symm.trans hfs))
      rw [h.kept key v hv hnull hmap']
      rfl

/-- Where the values have a section or nothing, a field is looked up in them first and then in the
file. -/
theorem member_eq {name : Scalar}
    (hname : ∀ v, values.get? name = some v → v = .null ∨ ∃ es, v = .map es) (field : Scalar) :
    member merged name field = (member values name field).or (member file name field) := by
  by_cases hsection : ∃ es, values.get? name = some (.map es)
  · obtain ⟨es, hes⟩ := hsection
    rw [member_eq_get? hes]
    by_cases hboth : ∃ fs, file.get? name = some (.map fs)
    · obtain ⟨fs, hfs⟩ := hboth
      obtain ⟨ms, hms, hfields⟩ := h.completed name es fs hes hfs
      rw [member_eq_get? hms, member_eq_get? hfs, hfields field]
    · rw [not_exists] at hboth
      have hmerged := h.kept name _ hes (fun hnull => nomatch hnull) (.inr hboth)
      rw [member_eq_get? hmerged, member_eq_none hboth, Option.or_none]
  · rw [not_exists] at hsection
    have habsent : values.get? name = none ∨ values.get? name = some .null := by
      cases hv : values.get? name with
      | none => exact .inl rfl
      | some v =>
        rcases hname v hv with rfl | ⟨es, rfl⟩
        · exact .inr rfl
        · exact absurd hv (hsection es)
    rw [member_eq_none hsection, Option.none_or, member, member]
    cases hfile : file.get? name with
    | none =>
      rw [h.unnamed name hfile]
      rcases habsent with habsent | habsent
      · rw [habsent]
      · rw [habsent]
        rfl
    | some v => rw [h.taken name v habsent hfile]

/-- A field of the values stays, whatever the file has in its section. -/
theorem member_of_values {name field : Scalar} {v : Value}
    (hv : member values name field = some v) : member merged name field = some v := by
  obtain ⟨sub, hsub⟩ := exists_map_of_member hv
  have hname : ∀ u, values.get? name = some u → u = .null ∨ ∃ es, u = .map es :=
    fun u hu => .inr ⟨sub, Option.some.inj (hu.symm.trans hsub)⟩
  rw [h.member_eq hname, hv]
  rfl

/-- A field in neither layer stays absent. -/
theorem member_of_neither {name field : Scalar} (hvalues : member values name field = none)
    (hfile : member file name field = none) : member merged name field = none := by
  by_cases hname : ∀ v, values.get? name = some v → v = .null ∨ ∃ es, v = .map es
  · rw [h.member_eq hname, hvalues, hfile]
    rfl
  · push Not at hname
    obtain ⟨v, hv, hnull, hmap⟩ := hname
    have hmerged := h.kept name v hv hnull (.inl hmap)
    exact member_eq_none (fun sub hsub => hmap sub (Option.some.inj (hmerged.symm.trans hsub)))
      field

end Merged

end Keyring.Settings
