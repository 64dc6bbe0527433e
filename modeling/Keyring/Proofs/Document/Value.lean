import Keyring.Document.Value
import Mathlib.Data.List.Basic

/-!
# Mappings and their keys

A mapping is a list of entries, and as long as no two of them have the same key it is what `get?`
tells of it.

* `Entries.ofList_eq_self`: entries with different keys stay as they are.
* `Entries.get?_putAll`: of two mappings put together, the upper one answers first.
* `Entries.putAll_putAll_self`: a lower mapping that was put under another is not put under it
  again.
* `Value.DistinctKeys`: all mappings of a document have different keys.
-/

namespace Keyring

namespace Entries

theorem keys_cons (e : Scalar × Value) (es : Entries) : keys (e :: es) = e.1.asKey :: keys es := rfl

theorem keys_append (es fs : Entries) : keys (es ++ fs) = keys es ++ keys fs :=
  List.map_append

/-- What is found depends on what counts of the key. -/
theorem get?_congr {key other : Scalar} (h : key.asKey = other.asKey) (es : Entries) :
    es.get? key = es.get? other := by
  rw [get?, get?, h]

/-- A value that is found stands in an entry whose key counts the same. -/
theorem mem_of_get? {es : Entries} {key : Scalar} {v : Value} (h : es.get? key = some v) :
    ∃ e ∈ es, e.1.asKey = key.asKey ∧ e.2 = v := by
  obtain ⟨e, he, rfl⟩ := Option.map_eq_some_iff.1 h
  exact ⟨e, List.mem_of_find?_eq_some he, by simpa using List.find?_some he, rfl⟩

/-- Nothing is found under a key that no entry has. -/
theorem get?_eq_none_iff {es : Entries} {key : Scalar} :
    es.get? key = none ↔ key.asKey ∉ keys es := by
  rw [get?, Option.map_eq_none_iff, List.find?_eq_none, keys, List.mem_map]
  simp only [decide_eq_true_eq, not_exists, not_and]

/-- Where all keys are different, each entry is found under its key. -/
theorem get?_of_mem {es : Entries} (h : (keys es).Nodup) {e : Scalar × Value} (he : e ∈ es) :
    es.get? e.1 = some e.2 := by
  induction es with
  | nil => exact absurd he List.not_mem_nil
  | cons x es ih =>
    obtain ⟨hnot, hnodup⟩ := List.nodup_cons.1 h
    rw [get?_cons]
    rcases List.mem_cons.1 he with rfl | he
    · rw [if_pos rfl]
    · have hkey : x.1.asKey ≠ e.1.asKey := fun hkey => hnot (List.mem_map.2 ⟨e, he, hkey.symm⟩)
      rw [if_neg hkey, ih hnodup he]

/-! ### One entry -/

theorem put_of_notMem {es : Entries} {key : Scalar} (h : key.asKey ∉ keys es) (v : Value) :
    put es key v = es ++ [(key, v)] := by
  induction es with
  | nil => rfl
  | cons e es ih =>
    rw [keys_cons, List.mem_cons, not_or] at h
    rw [put, if_neg (Ne.symm h.1), ih h.2, List.cons_append]

theorem put_eq_self {es : Entries} {key : Scalar} {v : Value} (h : es.get? key = some v) :
    put es key v = es := by
  induction es with
  | nil => cases h
  | cons e es ih =>
    rw [get?_cons] at h
    rw [put]
    split_ifs at h ⊢ with hkey
    · rw [← Option.some.inj h]
    · rw [ih h]

/-- Every value of the entries was there before or was put. -/
theorem mem_put {es : Entries} {key : Scalar} {v : Value} {e : Scalar × Value}
    (h : e ∈ put es key v) : e.2 = v ∨ e ∈ es := by
  induction es with
  | nil => exact .inl (by rw [List.mem_singleton.1 h])
  | cons x es ih =>
    rw [put] at h
    split_ifs at h with hkey
    · rcases List.mem_cons.1 h with rfl | h
      · exact .inl rfl
      · exact .inr (List.mem_cons_of_mem _ h)
    · rcases List.mem_cons.1 h with rfl | h
      · exact .inr List.mem_cons_self
      · exact (ih h).imp_right (List.mem_cons_of_mem _)

/-! ### Two mappings -/

theorem putAll_cons (e : Scalar × Value) (upper lower : Entries) :
    putAll (e :: upper) lower = putAll upper (put lower e.1 e.2) := rfl

theorem putAll_append (as bs lower : Entries) :
    putAll (as ++ bs) lower = putAll bs (putAll as lower) :=
  List.foldl_append

/-- Entries with new keys go behind those already there. -/
theorem putAll_eq_append {upper lower : Entries} (h : (keys (lower ++ upper)).Nodup) :
    putAll upper lower = lower ++ upper := by
  induction upper generalizing lower with
  | nil => rw [List.append_nil]; rfl
  | cons e upper ih =>
    have hnot : e.1.asKey ∉ keys lower := by
      rw [keys_append, keys_cons] at h
      exact fun hmem => (List.nodup_append.1 h).2.2 _ hmem _ List.mem_cons_self rfl
    have happ : lower ++ e :: upper = (lower ++ [e]) ++ upper := by simp
    rw [happ] at h ⊢
    rw [← ih h, putAll, List.foldl_cons, put_of_notMem hnot]
    rfl

/-- Entries with different keys stay as they are. -/
theorem ofList_eq_self {es : Entries} (h : (keys es).Nodup) : ofList es = es :=
  putAll_eq_append h

theorem mem_putAll {upper lower : Entries} {e : Scalar × Value} (h : e ∈ putAll upper lower) :
    (∃ u ∈ upper, e.2 = u.2) ∨ e ∈ lower := by
  induction upper generalizing lower with
  | nil => exact .inr h
  | cons x upper ih =>
    rcases ih h with ⟨u, hu, he⟩ | h
    · exact .inl ⟨u, List.mem_cons_of_mem _ hu, he⟩
    · exact (mem_put h).imp_left fun he => ⟨x, List.mem_cons_self, he⟩

/-- Of two mappings put together, the upper one answers first. -/
theorem get?_putAll {upper : Entries} (h : (keys upper).Nodup) (lower : Entries) (key : Scalar) :
    (putAll upper lower).get? key = (upper.get? key).or (lower.get? key) := by
  induction upper generalizing lower with
  | nil => rfl
  | cons e upper ih =>
    obtain ⟨hnot, hnodup⟩ := List.nodup_cons.1 h
    rw [putAll_cons, ih hnodup, get?_put, get?_cons]
    by_cases hkey : key.asKey = e.1.asKey
    · rw [if_pos hkey, if_pos hkey.symm, get?_eq_none_iff.2 (hkey ▸ hnot)]
      rfl
    · rw [if_neg hkey, if_neg (Ne.symm hkey)]

/-- The keys of the lower mapping stay in front, as they were written. -/
theorem map_fst_prefix_putAll (upper lower : Entries) :
    lower.map (·.1) <+: (putAll upper lower).map (·.1) := by
  induction upper generalizing lower with
  | nil => exact List.prefix_rfl
  | cons e upper ih =>
    refine List.IsPrefix.trans ?_ (ih (put lower e.1 e.2))
    rw [map_fst_put]
    split_ifs
    · exact List.prefix_rfl
    · exact List.prefix_append _ _

theorem putAll_cons_of_notMem {upper : Entries} {e : Scalar × Value} (h : e.1.asKey ∉ keys upper)
    (lower : Entries) : putAll upper (e :: lower) = e :: putAll upper lower := by
  induction upper generalizing lower with
  | nil => rfl
  | cons x upper ih =>
    rw [keys_cons, List.mem_cons, not_or] at h
    rw [putAll_cons, put, if_neg h.1, ih h.2, putAll_cons]

/-- Put over entries with the same keys in the same order, a mapping replaces all of them. -/
theorem putAll_of_keys_eq {upper lower : Entries} (hkeys : upper.map (·.1) = lower.map (·.1))
    (h : (keys upper).Nodup) : putAll upper lower = upper := by
  induction upper generalizing lower with
  | nil =>
    obtain rfl : lower = [] := List.map_eq_nil_iff.1 hkeys.symm
    rfl
  | cons e upper ih =>
    obtain ⟨hnot, hnodup⟩ := List.nodup_cons.1 h
    cases lower with
    | nil => cases hkeys
    | cons x lower =>
      obtain ⟨hkey, hrest⟩ : e.1 = x.1 ∧ upper.map (·.1) = lower.map (·.1) :=
        List.cons_eq_cons.1 hkeys
      have hput : put (x :: lower) e.1 e.2 = e :: lower := by
        rw [put, hkey, if_pos rfl, ← hkey]
      rw [putAll_cons, hput, putAll_cons_of_notMem hnot, ih hrest hnodup]

/-- What a mapping was completed with does not complete it any further. -/
theorem putAll_putAll_self {lower : Entries} (h : (keys lower).Nodup) (upper : Entries) :
    putAll (putAll upper lower) lower = putAll upper lower := by
  set all := putAll upper lower with hall
  have hnodup : (keys all).Nodup := nodup_putAll h
  have hfront : (all.take lower.length).map (·.1) = lower.map (·.1) := by
    rw [List.map_take, ← List.length_map (·.1)]
    exact (List.prefix_iff_eq_take.1 (map_fst_prefix_putAll upper lower)).symm
  rw [← List.take_append_drop lower.length all] at hnodup ⊢
  have hfirst : (keys (all.take lower.length)).Nodup := by
    rw [keys_append] at hnodup
    exact (List.nodup_append.1 hnodup).1
  rw [putAll_append, putAll_of_keys_eq hfront hfirst]
  exact putAll_eq_append hnodup

end Entries

/-! ### Documents -/

theorem Value.text?_eq_some {v : Value} {t : Text} : v.text? = some t ↔ v = .text t := by
  cases v with
  | scalar s => cases s <;> simp [Value.text?, Value.text]
  | list | map => simp [Value.text?, Value.text]

theorem Value.bind_text?_eq_some {o : Option Value} {t : Text} :
    o.bind Value.text? = some t ↔ o = some (.text t) := by
  simp only [Option.bind_eq_some_iff, Value.text?_eq_some, exists_eq_right]

theorem Value.entries?_eq_some {v : Value} {es : Entries} : v.entries? = some es ↔ v = .map es := by
  cases v <;> simp [Value.entries?]

/-- No mapping in a document has two entries with the same key. -/
inductive Value.DistinctKeys : Value → Prop
  | scalar (s : Scalar) : DistinctKeys (.scalar s)
  | list {items : List Value} : (∀ v ∈ items, DistinctKeys v) → DistinctKeys (.list items)
  | map {es : Entries} : es.keys.Nodup → (∀ e ∈ es, DistinctKeys e.2) → DistinctKeys (.map es)

namespace Value.DistinctKeys

theorem nodup_keys {es : Entries} (h : DistinctKeys (.map es)) : es.keys.Nodup := by
  cases h with
  | map hnodup _ => exact hnodup

theorem of_mem {es : Entries} (h : DistinctKeys (.map es)) {e : Scalar × Value} (he : e ∈ es) :
    e.2.DistinctKeys := by
  cases h with
  | map _ hmem => exact hmem e he

theorem of_get? {es : Entries} (h : DistinctKeys (.map es)) {key : Scalar} {v : Value}
    (hv : es.get? key = some v) : v.DistinctKeys := by
  obtain ⟨e, he, -, rfl⟩ := Entries.mem_of_get? hv
  exact h.of_mem he

/-- A mapping that is put together from a list has different keys. -/
theorem ofList {es : Entries} (h : ∀ e ∈ es, e.2.DistinctKeys) :
    DistinctKeys (.map (Entries.ofList es)) := by
  refine .map (Entries.nodup_ofList es) fun e he => ?_
  rcases Entries.mem_putAll he with ⟨u, hu, heq⟩ | he
  · exact heq ▸ h u hu
  · exact absurd he List.not_mem_nil

end Value.DistinctKeys

end Keyring
