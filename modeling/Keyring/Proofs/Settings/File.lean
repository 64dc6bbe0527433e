import Keyring.Proofs.Document.Yaml
import Keyring.Proofs.Settings.Layers
import Keyring.Proofs.Settings.Usual

/-!
# The file under the other settings

Values are collected from arguments and the environment, and then the file that they name is merged
under them. None of this depends on how the text of a file is read, as long as an empty text is read
as nothing and no mapping is read with one key twice (`FileReader.Lawful`). The main result,
`buildWith_first_source_wins`, says that every field has the value of its first source.
-/

namespace Keyring.Settings

/-! ### What a file holds -/

/-- What is asked of a way to read files. -/
structure FileReader.Lawful (reader : FileReader) : Prop where
  empty : reader [] = .ok .null
  distinctKeys : ∀ {t : Text} {v : Value}, reader t = .ok v → v.DistinctKeys

/-- The reader of YAML documents is lawful. -/
theorem lawful_yaml : FileReader.Lawful Yaml.read where
  empty := rfl
  distinctKeys := Yaml.distinctKeys_of_read

/-- The value that a file holds. -/
def Holds (reader : FileReader) (content : Bytes) (v : Value) : Prop :=
  ∃ t, Text.Utf8.decode? content = some t ∧ reader (unifyLineEnds t) = .ok v

section Holds

variable {reader : FileReader} {content : Bytes} {v : Value}

theorem holds_nil (hreader : FileReader.Lawful reader) : Holds reader [] .null :=
  ⟨[], rfl, hreader.empty⟩

theorem fileEntries_of_map {file : Entries} (h : Holds reader content (.map file)) :
    fileEntries reader content = .ok file := by
  obtain ⟨t, ht, hread⟩ := h
  rw [fileEntries, ht]
  dsimp only
  rw [hread]

theorem fileEntries_of_other (h : Holds reader content v) (hv : ∀ es, v ≠ .map es) :
    fileEntries reader content = .ok [] := by
  obtain ⟨t, ht, hread⟩ := h
  rw [fileEntries, ht]
  dsimp only
  rw [hread]
  cases v with
  | map es => exact absurd rfl (hv es)
  | scalar | list => rfl

theorem distinctKeys_of_holds (hreader : FileReader.Lawful reader) (h : Holds reader content v) :
    v.DistinctKeys := by
  obtain ⟨t, -, hread⟩ := h
  exact hreader.distinctKeys hread

end Holds

/-! ### The file that is looked at -/

section WithFile

variable {reader : FileReader} {lookup : Text → FileState} {values : Entries} {path : Text}

theorem filePath?_eq_none
    (h : values.get? pathKey = none ∨ values.get? pathKey = some .null ∨
      values.get? pathKey = some (.text [])) : filePath? values = none := by
  rw [filePath?]
  rcases h with h | h | h
  all_goals
    rw [h]
    rfl

theorem filePath?_eq_some (hpath : values.get? pathKey = some (.text path)) (hne : path ≠ []) :
    filePath? values = some path := by
  rw [filePath?, hpath]
  cases path with
  | nil => exact absurd rfl hne
  | cons c path => rfl

theorem withFile_of_loadFile {file : Entries} (h : loadFile reader lookup values = .ok file) :
    withFile reader lookup values = .ok (under file values) := by
  rw [withFile, h]
  rfl

/-- A missing file leaves the values as they are. -/
theorem withFile_of_missing (hpath : filePath? values = some path) (h : lookup path = .missing) :
    withFile reader lookup values = .ok values := by
  have hload : loadFile reader lookup values = .ok [] := by
    rw [loadFile, hpath]
    dsimp only
    rw [h]
  exact withFile_of_loadFile hload

/-- A file that is there is merged under the values. -/
theorem withFile_of_file {content : Bytes} {file : Entries} (hpath : filePath? values = some path)
    (h : lookup path = .file content) (hfile : fileEntries reader content = .ok file) :
    withFile reader lookup values = .ok (under file values) := by
  have hload : loadFile reader lookup values = .ok file := by
    rw [loadFile, hpath]
    dsimp only
    rw [h]
    exact hfile
  exact withFile_of_loadFile hload

theorem buildWith_of_withFile {env : Environment} {arguments merged : Entries}
    (hvalues : collect env arguments = .ok values)
    (h : withFile reader lookup values = .ok merged) :
    buildWith reader lookup env arguments = (ofEntries merged).mapError .invalid := by
  have hcollect : (collect env arguments).mapError Refusal.badVariable = .ok values := by
    rw [hvalues]
    rfl
  rw [buildWith, hcollect, Outcome.ok_bind, h, Outcome.ok_bind]

end WithFile

/-- A field of the merged settings is that of its first source: the arguments, the environment or
the file. -/
theorem Merged.member_eq_findSome? {env : Environment}
    {arguments environment values file merged : Entries} (hmerged : Merged file values merged)
    (harguments : (Value.map arguments).DistinctKeys) (hvalues : collect env arguments = .ok values)
    (henvironment : ofEnvironment env = .ok environment) {name field : Scalar}
    (hupper : MapsAt name (spelled names arguments)) (hlower : MapsAt name environment)
    (hfield : ∀ es, member (spelled names arguments) name field ≠ some (.map es)) :
    member merged name field =
      [spelled names arguments, environment, file].findSome? (member · name field) := by
  obtain ⟨hmaps, hmember⟩ := member_collect harguments hvalues henvironment hupper hlower hfield
  rw [hmerged.member_eq (fun v hv => .inr (hmaps v hv)), hmember, List.findSome?_cons,
    List.findSome?_cons, List.findSome?_cons]
  cases member (spelled names arguments) name field with
  | some v => rfl
  | none =>
    cases member environment name field with
    | some v => rfl
    | none =>
      cases member file name field with
      | some v => rfl
      | none => rfl

/-- The file lies under the values that arguments and the environment give. Without a path, without
a file and without a mapping in it these values stay as they are. Otherwise the file is merged once
and for all, each field has the value of its first source, and what no source gives is left to its
usual value. -/
theorem buildWith_first_source_wins {reader : FileReader} (hreader : FileReader.Lawful reader)
    (lookup : Text → FileState) {env : Environment} {arguments environment values : Entries}
    (harguments : (Value.map arguments).DistinctKeys)
    (henvironment : ofEnvironment env = .ok environment)
    (hvalues : collect env arguments = .ok values) :
    (values.get? pathKey = none ∨ values.get? pathKey = some .null ∨
        values.get? pathKey = some (.text []) →
      withFile reader lookup values = .ok values) ∧
    (∀ merged, withFile reader lookup values = .ok merged →
      buildWith reader lookup env arguments = (ofEntries merged).mapError .invalid) ∧
    ∀ path, values.get? pathKey = some (.text path) → path ≠ [] →
      (lookup path = .missing ∨ lookup path = .file [] ∨
        (∃ content v, lookup path = .file content ∧ Holds reader content v ∧ ∀ es, v ≠ .map es) →
        withFile reader lookup values = .ok values) ∧
      ∀ content (file : Entries), lookup path = .file content → Holds reader content (.map file) →
        ∃ merged, withFile reader lookup values = .ok merged ∧
          withFile reader lookup merged = .ok merged ∧
          Merged file values merged ∧
          (∀ key, (merged.get? key).isSome ↔ (values.get? key).isSome ∨ (file.get? key).isSome) ∧
          merged.get? pathKey = values.get? pathKey ∧
          (∀ name field v, member values name field = some v →
            member merged name field = some v) ∧
          (∀ name field v, (∀ u, values.get? name = some u → u = .null ∨ ∃ es, u = .map es) →
            member values name field = none → member file name field = some v →
            member merged name field = some v) ∧
          (∀ name field, member values name field = none → member file name field = none →
            member merged name field = none) ∧
          (∀ name field, MapsAt name (spelled names arguments) → MapsAt name environment →
            (∀ es, member (spelled names arguments) name field ≠ some (.map es)) →
            member merged name field =
              [spelled names arguments, environment, file].findSome? (member · name field)) ∧
          ∀ s, buildWith reader lookup env arguments = .ok s →
            UsualWhere (fun name field =>
              member values name field = none ∧ member file name field = none) s := by
  refine ⟨fun hnone => withFile_of_noFile (filePath?_eq_none hnone),
    fun merged hmerged => buildWith_of_withFile hvalues hmerged, fun path hpath hne => ⟨?_, ?_⟩⟩
  · have hfilePath := filePath?_eq_some hpath hne
    rintro (hmissing | hempty | ⟨content, v, hcontent, hv, hother⟩)
    · exact withFile_of_missing hfilePath hmissing
    · exact withFile_of_file hfilePath hempty
        (fileEntries_of_other (holds_nil hreader) fun es h => nomatch h)
    · exact withFile_of_file hfilePath hcontent (fileEntries_of_other hv hother)
  · intro content file hcontent hholds
    have hdistinct := distinctKeys_of_holds hreader hholds
    have hentries := fileEntries_of_map hholds
    have hmerged := merged_under hdistinct.nodup_keys (sectioned_collect harguments hvalues)
    have hpath' : (under file values).get? pathKey = some (.text path) :=
      hmerged.kept pathKey _ hpath (fun h => nomatch h) (.inl fun es h => nomatch h)
    have honce := withFile_of_file (filePath?_eq_some hpath hne) hcontent hentries
    refine ⟨under file values, honce, ?_, hmerged, hmerged.isSome_get?, hpath'.trans hpath.symm,
      fun name field v => hmerged.member_of_values, ?_, fun name field => hmerged.member_of_neither,
      fun name field => hmerged.member_eq_findSome? harguments hvalues henvironment, ?_⟩
    · have htwice := withFile_of_file (filePath?_eq_some hpath' hne) hcontent hentries
      rwa [under_under hdistinct] at htwice
    · intro name field v hname habsent hv
      rw [hmerged.member_eq hname, habsent, hv]
      rfl
    · intro s hs
      rw [buildWith_of_withFile hvalues honce, Outcome.mapError_eq_ok] at hs
      exact (usualWhere_of_ofEntries hs).mono fun name field habsent =>
        hmerged.member_of_neither habsent.1 habsent.2

/-- An account that the environment sets stays against that of the file, and the coin type of the
file is added to it. -/
theorem buildWith_completes_keys :
    ∃ values merged, collect [("FIOWALLET_Keys__Account".toList, "3".toList)]
        [(pathKey, .text "fio.yaml".toList)] = .ok values ∧
      withFile Yaml.read
        (fun _ => .file (Text.Utf8.encode "keys:\n  coin_type: '194'\n  account: 5".toList))
        values = .ok merged ∧
      member merged (key "keys") (key "account") = some (.text "3".toList) ∧
      member merged (key "keys") (key "coin_type") = some (.text "194".toList) := by
  have harguments : (Value.map [(pathKey, .text "fio.yaml".toList)]).DistinctKeys :=
    .map (by simp [Entries.keys]) (List.forall_mem_singleton.2 (.scalar _))
  have hcollect : ((collect [("FIOWALLET_Keys__Account".toList, "3".toList)]
      [(pathKey, .text "fio.yaml".toList)]).toOption.map fun values =>
        ((values.get? pathKey).bind Value.text?,
          (member values (key "keys") (key "account")).bind Value.text?,
          (member values (key "keys") (key "coin_type")).isNone)) =
      some (some "fio.yaml".toList, some "3".toList, true) := by
    decide +kernel
  obtain ⟨values, hvalues, hseen⟩ := Option.map_eq_some_iff.1 hcollect
  simp only [Prod.mk.injEq, Value.bind_text?_eq_some] at hseen
  obtain ⟨hpath, haccount, hcoin⟩ := hseen
  have hvalues := Outcome.toOption_eq_some.1 hvalues
  obtain ⟨environment, henvironment, -⟩ := collect_eq_ok.1 hvalues
  have hread :
      ((Yaml.read (unifyLineEnds "keys:\n  coin_type: '194'\n  account: 5".toList)).toOption.bind
        Value.entries?).bind
          (fun file => (member file (key "keys") (key "coin_type")).bind Value.text?) =
        some "194".toList := by
    decide +kernel
  obtain ⟨file, hfile, hmember⟩ := Option.bind_eq_some_iff.1 hread
  obtain ⟨v, hv, hmap⟩ := Option.bind_eq_some_iff.1 hfile
  obtain rfl := Value.entries?_eq_some.1 hmap
  have hholds : Holds Yaml.read _ (.map file) :=
    ⟨_, Text.Utf8.decode?_encode _, Outcome.toOption_eq_some.1 hv⟩
  obtain ⟨-, -, hmerge⟩ :=
    buildWith_first_source_wins lawful_yaml (fun _ => .file (Text.Utf8.encode _))
      harguments henvironment hvalues
  obtain ⟨-, hmerge⟩ := hmerge "fio.yaml".toList hpath (by simp)
  obtain ⟨merged, hmerged, -, -, -, -, hkept, htaken, -⟩ := hmerge _ file rfl hholds
  obtain ⟨sub, hsub⟩ := exists_map_of_member haccount
  exact ⟨values, merged, hvalues, hmerged, hkept _ _ _ haccount,
    htaken _ _ _ (fun u hu => .inr ⟨sub, Option.some.inj (hu.symm.trans hsub)⟩)
      (Option.isNone_iff_eq_none.1 hcoin) (Value.bind_text?_eq_some.1 hmember)⟩

end Keyring.Settings
