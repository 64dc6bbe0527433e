import Keyring.Proofs.Outcome
import Keyring.Proofs.Settings.Merge
import Keyring.Settings.Basic

/-!
# Arguments over the environment

Arguments and the environment are collected into one layer of values before any file is looked at.
No section of it has two fields with the same key (`sectioned_collect`), and a field of it comes
from the arguments or else from the environment (`member_collect`).
-/

namespace Keyring.Settings

/-! ### One layer over another -/

/-- The upper value wins unless both are mappings. -/
theorem overlayValue_eq_upper {upper : Value} {lower : Option Value}
    (h : (∀ es, upper ≠ .map es) ∨ ∀ es, lower ≠ some (.map es)) :
    overlayValue upper lower = upper := by
  rw [overlayValue.eq_def]
  split
  · rename_i es fs
    rcases h with h | h
    · exact absurd rfl (h es)
    · exact absurd rfl (h fs)
  · rfl

theorem overlayValue_none (v : Value) : overlayValue v none = v :=
  overlayValue_eq_upper (.inr fun _ => (Option.some_ne_none _).symm)

/-- The section is a mapping wherever it is there. -/
def MapsAt (name : Scalar) (values : Entries) : Prop :=
  ∀ v, values.get? name = some v → ∃ es, v = .map es

theorem MapsAt.get?_cases {name : Scalar} {values : Entries} (h : MapsAt name values) :
    values.get? name = none ∨ ∃ es : Entries, values.get? name = some (.map es) := by
  cases hv : values.get? name with
  | none => exact .inl rfl
  | some v =>
    obtain ⟨es, rfl⟩ := h v hv
    exact .inr ⟨es, rfl⟩

section Overlay

variable {upper lower us ls : Entries} {name : Scalar} (hkeys : upper.keys.Nodup)

include hkeys

theorem get?_overlay_of_none (hu : upper.get? name = none) :
    (overlay upper lower).get? name = lower.get? name := by
  rw [get?_overlay hkeys, hu]
  rfl

theorem get?_overlay_of_map (hu : upper.get? name = some (.map us))
    (hl : lower.get? name = none) : (overlay upper lower).get? name = some (.map us) := by
  rw [get?_overlay hkeys, hu, hl, Option.map_some, overlayValue_none]
  rfl

/-- Two sections are put over one another. -/
theorem get?_overlay_of_maps (hu : upper.get? name = some (.map us))
    (hl : lower.get? name = some (.map ls)) :
    (overlay upper lower).get? name = some (.map (overlay us ls)) := by
  rw [get?_overlay hkeys, hu, hl, Option.map_some, overlayValue]
  rfl

variable (hupper : MapsAt name upper) (hlower : MapsAt name lower)

include hupper hlower

theorem mapsAt_overlay : MapsAt name (overlay upper lower) := by
  intro v hv
  rcases hupper.get?_cases with hu | ⟨us, hu⟩
  · rw [get?_overlay_of_none hkeys hu] at hv
    exact hlower v hv
  · rcases hlower.get?_cases with hl | ⟨ls, hl⟩
    · rw [get?_overlay_of_map hkeys hu hl] at hv
      exact ⟨us, (Option.some.inj hv).symm⟩
    · rw [get?_overlay_of_maps hkeys hu hl] at hv
      exact ⟨overlay us ls, (Option.some.inj hv).symm⟩

/-- The fields of a section are put over one another like the sections themselves. -/
theorem member_overlay (hsections : Sectioned upper) (field : Scalar) :
    member (overlay upper lower) name field =
      ((member upper name field).map (overlayValue · (member lower name field))).or
        (member lower name field) := by
  rcases hupper.get?_cases with hu | ⟨us, hu⟩
  · have hnone : member upper name field = none := by rw [member, hu]; rfl
    rw [hnone, member, get?_overlay_of_none hkeys hu]
    rfl
  · rw [member_eq_get? hu]
    rcases hlower.get?_cases with hl | ⟨ls, hl⟩
    · have hnone : member lower name field = none := by rw [member, hl]; rfl
      rw [member_eq_get? (get?_overlay_of_map hkeys hu hl), hnone, Option.or_none,
        funext overlayValue_none, Option.map_id_fun']
      rfl
    · rw [member_eq_get? (get?_overlay_of_maps hkeys hu hl), member_eq_get? hl,
        get?_overlay (hsections name us hu)]

end Overlay

theorem sectioned_put {values : Entries} (hvalues : Sectioned values) {key : Scalar} {v : Value}
    (hv : ∀ es : Entries, v = .map es → es.keys.Nodup) : Sectioned (values.put key v) := by
  intro name es hes
  rw [Entries.get?_put] at hes
  split_ifs at hes
  · exact hv es (Option.some.inj hes)
  · exact hvalues name es hes

theorem nodup_overlay {upper lower : Entries} (h : lower.keys.Nodup) :
    (overlay upper lower).keys.Nodup := by
  induction upper generalizing lower with
  | nil => rwa [overlay]
  | cons e upper ih =>
    rw [overlay]
    exact ih (Entries.nodup_put h e.1 _)

/-- A layer with different keys in its sections over another one. -/
theorem sectioned_overlay {upper lower : Entries}
    (hupper : ∀ e ∈ upper, ∀ es : Entries, e.2 = .map es → es.keys.Nodup)
    (hlower : Sectioned lower) : Sectioned (overlay upper lower) := by
  induction upper generalizing lower with
  | nil => rwa [overlay]
  | cons e upper ih =>
    obtain ⟨key, v⟩ := e
    rw [List.forall_mem_cons] at hupper
    rw [overlay]
    refine ih hupper.2 (sectioned_put hlower fun es hes => ?_)
    rw [overlayValue.eq_def] at hes
    split at hes
    · rename_i us ls hls
      obtain rfl := Value.map.inj hes
      exact nodup_overlay (hlower key ls hls)
    · exact hupper.1 es hes

/-! ### Collected values -/

/-- The mappings among the values of entries have different keys. -/
theorem sectioned_of_mem {values : Entries}
    (h : ∀ e ∈ values, ∀ es : Entries, e.2 = .map es → es.keys.Nodup) : Sectioned values := by
  intro name es hes
  obtain ⟨e, he, -, heq⟩ := Entries.mem_of_get? hes
  exact h e he es heq

theorem nodup_spelled (fields : List String) (es : Entries) : (spelled fields es).keys.Nodup :=
  Entries.nodup_ofList _

/-- An environment sets a section to a mapping with different keys, if to a mapping at all. -/
theorem nodup_of_sectionOf {env : Environment} {name : String} {fields : List String} {es : Entries}
    (h : env.sectionOf name fields = .ok (some (.map es))) : es.keys.Nodup := by
  rw [Environment.sectionOf] at h
  split at h
  · split_ifs at h
    · cases h
    · obtain rfl := Value.map.inj (Option.some.inj (Except.ok.inj h))
      exact nodup_spelled _ _
  · split at h
    · cases h
    · obtain rfl := Value.map.inj (Option.some.inj (Except.ok.inj h))
      exact nodup_spelled _ _
    · rename_i v hmap hread
      split_ifs at h
      · cases h
      · exact absurd (Option.some.inj (Except.ok.inj h)) (hmap es)

theorem sectioned_ofEnvironment {env : Environment} {values : Entries}
    (h : ofEnvironment env = .ok values) : Sectioned values := by
  obtain ⟨keys, hkeys, h⟩ := Outcome.bind_eq_ok.1 h
  obtain ⟨messaging, hmessaging, h⟩ := Outcome.bind_eq_ok.1 h
  obtain rfl := Except.ok.inj h
  refine sectioned_of_mem fun e he es hes => ?_
  obtain ⟨f, hf, hfe⟩ := List.mem_filterMap.1 he
  obtain ⟨v, hv, rfl⟩ := Option.map_eq_some_iff.1 hfe
  obtain rfl : v = .map es := hes
  simp only [List.mem_cons, List.not_mem_nil, or_false] at hf
  rcases hf with rfl | rfl | rfl
  · obtain ⟨t, -, ht⟩ := Option.map_eq_some_iff.1 hv
    cases ht
  · exact nodup_of_sectionOf (hkeys.trans (congrArg Except.ok hv))
  · exact nodup_of_sectionOf (hmessaging.trans (congrArg Except.ok hv))

/-- Arguments keep their values under other spellings of their names. -/
theorem nodup_of_mem_spelled {fields : List String} {arguments : Entries}
    (h : (Value.map arguments).DistinctKeys) :
    ∀ e ∈ spelled fields arguments, ∀ es : Entries, e.2 = .map es → es.keys.Nodup := by
  intro e he es hes
  rcases Entries.mem_putAll he with ⟨u, hu, heq⟩ | he
  · obtain ⟨a, ha, rfl⟩ := List.mem_map.1 hu
    have hsub : a.2.DistinctKeys := h.of_mem ha
    rw [show a.2 = .map es from heq.symm.trans hes] at hsub
    exact hsub.nodup_keys
  · exact absurd he List.not_mem_nil

section Collect

variable {env : Environment} {arguments environment values : Entries}

theorem collect_eq_ok : collect env arguments = .ok values ↔
    ∃ environment, ofEnvironment env = .ok environment ∧
      overlay (spelled names arguments) environment = values := by
  rw [collect, Outcome.bind_eq_ok]
  simp only [Outcome.pure_eq, Except.ok.injEq]

/-- The sections of collected values have different keys, if those of the arguments have. -/
theorem sectioned_collect (harguments : (Value.map arguments).DistinctKeys)
    (h : collect env arguments = .ok values) : Sectioned values := by
  obtain ⟨environment, henvironment, rfl⟩ := collect_eq_ok.1 h
  exact sectioned_overlay (nodup_of_mem_spelled harguments) (sectioned_ofEnvironment henvironment)

/-- A field of collected values is that of the arguments, or else that of the environment. -/
theorem member_collect (harguments : (Value.map arguments).DistinctKeys)
    (h : collect env arguments = .ok values) (henvironment : ofEnvironment env = .ok environment)
    {name field : Scalar} (hupper : MapsAt name (spelled names arguments))
    (hlower : MapsAt name environment)
    (hfield : ∀ es, member (spelled names arguments) name field ≠ some (.map es)) :
    MapsAt name values ∧ member values name field =
      (member (spelled names arguments) name field).or (member environment name field) := by
  obtain ⟨_, hok, rfl⟩ := collect_eq_ok.1 h
  obtain rfl := Except.ok.inj (hok.symm.trans henvironment)
  have hkeys := nodup_spelled names arguments
  refine ⟨mapsAt_overlay hkeys hupper hlower, ?_⟩
  rw [member_overlay hkeys hupper hlower (sectioned_of_mem (nodup_of_mem_spelled harguments))]
  cases hv : member (spelled names arguments) name field with
  | none => rfl
  | some v =>
    have hmap : ∀ es, v ≠ .map es := fun es heq => hfield es (heq ▸ hv)
    rw [Option.map_some, overlayValue_eq_upper (.inl hmap)]

end Collect

end Keyring.Settings
