import Keyring.Proofs.Key.Path

/-!
# Walking along a path

A path is any text. Each of its parts that is not idle takes one step, to the child that it names,
and the leftmost part that leads nowhere decides how the walk ends. Two paths with a slash between
them are walked one after the other.
-/

namespace Keyring.ExtendedKey

open Keyring.Path (Names Reads)

variable {k c : ExtendedKey} {part : Text} {parts : List Text} {f : Fault}

/-! ### One step -/

theorem step_of_names {index : Int} (h : Names part index) : k.step part = k.child index := by
  obtain ⟨hindex, hnonneg⟩ := Path.index_of_names h
  rw [step, hindex, Outcome.ok_bind, Int.toNat_of_nonneg hnonneg]

/-- Where one part leads. -/
theorem step_eq_ok : k.step part = .ok c ↔ ∃ index, Names part index ∧ k.child index = .ok c := by
  constructor
  · intro h
    rcases Path.index_cases part with ⟨index, hnames⟩ | ⟨-, hf⟩ | ⟨-, hf⟩
    · exact ⟨index, hnames, step_of_names hnames ▸ h⟩
    · rw [step, hf] at h
      cases h
    · rw [step, hf] at h
      cases h
  · rintro ⟨index, hnames, hchild⟩
    rw [step_of_names hnames, hchild]

/-- Why a part leads nowhere from `k`: it is no literal with marks behind it, its number is out of
range, or the child that it names does not exist. -/
inductive Refuses (k : ExtendedKey) (part : Text) : Fault → Prop
  | illegible : (∀ marks v, ¬Reads part marks v) → Refuses k part (Path.illegible part)
  | outOfRange {marks v} :
      Reads part marks v → ¬(0 ≤ v ∧ v < 2 ^ 31) → Refuses k part (.pathIndex part)
  | noChild {index f} : Names part index → k.child index = .error f → Refuses k part f

/-- Why one part leads nowhere. -/
theorem step_eq_error : k.step part = .error f ↔ k.Refuses part f := by
  constructor
  · intro h
    rcases Path.index_cases part with ⟨index, hnames⟩ | ⟨hnot, hf⟩ |
      ⟨⟨marks, v, hreads, hrange⟩, hf⟩
    · exact .noChild hnames (step_of_names hnames ▸ h)
    · rw [step, hf] at h
      exact Except.error.inj h ▸ .illegible hnot
    · rw [step, hf] at h
      exact Except.error.inj h ▸ .outOfRange hreads hrange
  · intro h
    cases h with
    | illegible hnot => rw [step, Path.index_of_not_reads hnot, Outcome.error_bind]
    | outOfRange hreads hrange =>
      rw [step, Path.index_of_reads hreads, if_neg hrange, Outcome.error_bind]
    | noChild hnames hchild => rw [step_of_names hnames, hchild]

/-! ### Several steps -/

/-- The parts name children one below the other that lead from `k` to `c`. -/
def Leads (k : ExtendedKey) (parts : List Text) (c : ExtendedKey) : Prop :=
  ∃ indices : List Int, List.Forall₂ Names parts indices ∧ indices.foldlM child k = .ok c

theorem steps_of_names {indices : List Int} (h : List.Forall₂ Names parts indices) :
    parts.foldlM step k = indices.foldlM child k := by
  -- The rest of the walk begins at the child, so the induction is for all keys at once.
  induction h generalizing k with
  | nil => rfl
  | cons hnames _ ih =>
    rw [List.foldlM_cons, List.foldlM_cons, step_of_names hnames]
    exact congrArg _ (funext fun c => ih)

/-- Parts lead on exactly if all of them name children, which exist one below the other. -/
theorem steps_eq_ok : parts.foldlM step k = .ok c ↔ k.Leads parts c := by
  constructor
  · intro h
    induction parts generalizing k with
    | nil => exact ⟨[], .nil, h⟩
    | cons part parts ih =>
      rw [List.foldlM_cons] at h
      obtain ⟨b, hstep, hrest⟩ := Outcome.bind_eq_ok.1 h
      obtain ⟨index, hnames, hchild⟩ := step_eq_ok.1 hstep
      obtain ⟨indices, hall, hfold⟩ := ih hrest
      exact ⟨index :: indices, .cons hnames hall,
        by rw [List.foldlM_cons, hchild, Outcome.ok_bind, hfold]⟩
  · rintro ⟨indices, hall, hfold⟩
    rw [steps_of_names hall, hfold]

/-- The leftmost part that leads nowhere decides. -/
theorem steps_eq_error : parts.foldlM step k = .error f ↔
    ∃ before part after, parts = before ++ part :: after ∧ ∃ c, k.Leads before c ∧
      c.Refuses part f := by
  simp only [Outcome.foldlM_eq_error, steps_eq_ok, step_eq_error]

/-! ### Paths -/

theorem derive_numerals (k : ExtendedKey) {ws : List (ℕ × Text)}
    (h : ∀ w ∈ ws, w.1 < 2 ^ 31 ∧ ∀ c ∈ w.2, Path.isMark c) :
    k.derive (Text.joinWith '/' (['m'] :: ws.map fun w => Text.ofNat w.1 ++ w.2)) =
      (ws.map fun w => if w.2 = [] then (w.1 : Int) else w.1 + 2 ^ 31).foldlM child k := by
  have hparts := Path.parts_joinWith
    (List.forall_mem_map.2 fun w (_ : w ∈ ws) => Path.isIdle_numeral w.1 w.2)
    (List.forall_mem_map.2 fun w hw => Path.plain_numeral (h w hw).2)
  have hnames : List.Forall₂ Names (ws.map fun w => Text.ofNat w.1 ++ w.2)
      (ws.map fun w => if w.2 = [] then (w.1 : Int) else w.1 + 2 ^ 31) := by
    rw [List.forall₂_map_left_iff, List.forall₂_map_right_iff, List.forall₂_same]
    intro w hw
    exact Path.names_numeral (h w hw).1 (h w hw).2
  rw [derive, hparts, steps_of_names hnames]

/-- A path is cut at its slashes, between the blanks around it, and its idle parts are left out.
Every other part is read as an integer literal with marks behind it. The path leads exactly to the
key that the children named by the parts lead to, from the first part to the last; marks move the
index of a child into the upper half. If it leads nowhere, the leftmost part that leads nowhere
decides the fault: it is no literal, its number is not below 2^31, or its child does not exist. In
particular a path of decimal numbers with any marks behind them leads from child to child along the
numbers. -/
theorem derive_by_leftmost_part (k : ExtendedKey) (path : Text) :
    Path.Cut path (Path.parts path) ∧
    (∀ c, k.derive path = .ok c ↔
      ∃ indices : List Int, List.Forall₂ Names (Path.parts path) indices ∧
        indices.foldlM child k = .ok c) ∧
    (∀ f, k.derive path = .error f ↔
      ∃ before part after, Path.parts path = before ++ part :: after ∧
      ∃ c, k.Leads before c ∧ c.Refuses part f) ∧
    (∀ part, (Path.illegible part).family = .literal ∧
      (Fault.pathIndex part).family = .derivation) ∧
    ∀ ws : List (ℕ × Text), (∀ w ∈ ws, w.1 < 2 ^ 31 ∧ ∀ c ∈ w.2, Path.isMark c) →
      k.derive (Text.joinWith '/' (['m'] :: ws.map fun w => Text.ofNat w.1 ++ w.2)) =
        (ws.map fun w => if w.2 = [] then (w.1 : Int) else w.1 + 2 ^ 31).foldlM child k := by
  refine ⟨Path.cut_iff.2 rfl, fun c => ?_, fun f => ?_, fun part => ?_, fun ws h => ?_⟩
  · exact steps_eq_ok
  · exact steps_eq_error
  · exact ⟨Path.family_illegible part, rfl⟩
  · exact k.derive_numerals h

/-- From the scalar 1 along numbers with different marks, and up to a number out of range. -/
theorem derive_up_to_minus_one :
    let k := ExtendedKey.mk (Bytes.ofNat 32 1) (Bytes.zeros 32) 0 (Bytes.zeros 4) 0 true
    k.derive "m/44'hH/0h/5".toList = [(44 : Int) + 2 ^ 31, 0 + 2 ^ 31, 5].foldlM child k ∧
      k.derive " m/ +1_0h/-1'/x".toList = .error (.pathIndex "-1'".toList) := by
  intro k
  constructor
  · have hmarks : ∀ w ∈ [(44, "'hH".toList), (0, ['h']), (5, [])], w.1 < 2 ^ 31 ∧ ∀ c ∈ w.2,
        Path.isMark c := by
      simp [Path.isMark]
    exact (derive_by_leftmost_part k []).2.2.2.2 [(44, "'hH".toList), (0, ['h']), (5, [])] hmarks
  · have hten : Text.Decimal.Literal ([' '] ++ (['+'] ++ "1_0".toList) ++ []) [1, 0] 10 :=
      .surrounded (List.forall_mem_singleton.2 rfl) .plus (.first rfl (.line rfl .nil))
        (List.forall_mem_nil _)
    have hminus : Text.Decimal.Literal ([] ++ (['-'] ++ ['1']) ++ []) [1] (-1) :=
      .surrounded (List.forall_mem_nil _) .minus (.first rfl .nil) (List.forall_mem_nil _)
    have hnames : Names " +1_0h".toList (10 + 2 ^ 31) :=
      ⟨['h'], 10, ⟨_, _, hten, by decide, List.forall_mem_singleton.2 rfl, rfl⟩, by decide, rfl⟩
    have hreads : Reads "-1'".toList ['\''] (-1) :=
      ⟨_, _, hminus, by decide, List.forall_mem_singleton.2 rfl, rfl⟩
    have hchild : (k.child (10 + 2 ^ 31)).isOk = true := by
      decide +kernel
    obtain ⟨c, hc⟩ := Outcome.exists_of_isOk hchild
    have hleads : k.Leads [" +1_0h".toList] c :=
      ⟨[10 + 2 ^ 31], .cons hnames .nil, by rw [List.foldlM_cons, hc]; rfl⟩
    exact ((derive_by_leftmost_part k _).2.2.1 _).2
      ⟨[" +1_0h".toList], _, ["x".toList], by decide, c, hleads, .outOfRange hreads (by decide)⟩

/-! ### Joined paths -/

/-- The parts of two paths with a slash between them. -/
theorem parts_append_cons {p q : Text} (hlast : ∀ c ∈ p.getLast?, Text.isBlank c = false)
    (hfirst : ∀ c ∈ q.head?, Text.isBlank c = false) :
    Path.parts (p ++ '/' :: q) = Path.parts p ++ Path.parts q := by
  have htrim : Text.trim (p ++ '/' :: q) = p.trim ++ '/' :: q.trim :=
    Text.trimBy_append_cons (by decide) hlast hfirst
  rw [Path.parts, htrim, Text.splitOn_append_cons, List.filter_append]
  rfl

theorem parts_of_idle {t : Text} (h : ∀ w ∈ Text.splitOn '/' t, w = [] ∨ w = ['m'] ∨ w = ['M']) :
    Path.parts t = [] := by
  have hblank : ∀ c ∈ t, Text.isBlank c = false := by
    intro c hc
    rw [← Text.joinWith_splitOn '/' t] at hc
    rcases Text.mem_joinWith hc with rfl | ⟨w, hw, hc⟩
    · decide
    · rcases h w hw with rfl | rfl | rfl
      · exact absurd hc List.not_mem_nil
      · exact List.mem_singleton.1 hc ▸ rfl
      · exact List.mem_singleton.1 hc ▸ rfl
  rw [Path.parts, Text.trim, Text.trimBy_of_forall hblank, List.filter_eq_nil_iff]
  intro w hw
  rw [Path.isIdle_iff.2 (h w hw)]
  decide

/-- Two paths with a slash between them lead where the second leads from the end of the first, and
fail as the first one fails or else as the second does there, provided that no blank is next to the
slash. A path of idle parts leads nowhere. -/
theorem derive_joined_paths (k : ExtendedKey) :
    (∀ p q : Text, (∀ c ∈ p.getLast?, Text.isBlank c = false) →
      (∀ c ∈ q.head?, Text.isBlank c = false) →
      k.derive (p ++ '/' :: q) = k.derive p >>= fun c => c.derive q) ∧
    ∀ t : Text, (∀ w ∈ Text.splitOn '/' t, w = [] ∨ w = ['m'] ∨ w = ['M']) →
      k.derive t = .ok k := by
  constructor
  · intro p q hlast hfirst
    rw [derive, parts_append_cons hlast hfirst, List.foldlM_append]
    rfl
  · intro t h
    exact derive_of_parts_nil (parts_of_idle h)

/-- From the scalar 1: a root marker and an empty part at the joint, and a path of such parts. -/
theorem derive_joined_at_root_marker :
    let k := ExtendedKey.mk (Bytes.ofNat 32 1) (Bytes.zeros 32) 0 (Bytes.zeros 4) 0 true
    k.derive " m/2h/m//1' ".toList =
      (k.derive " m/2h".toList >>= fun c => c.derive "m//1' ".toList) ∧
      k.derive "m//M/".toList = .ok k := by
  intro k
  constructor
  · have hlast : ∀ c ∈ " m/2h".toList.getLast?, Text.isBlank c = false := by simp [Text.isBlank]
    have hfirst : ∀ c ∈ "m//1' ".toList.head?, Text.isBlank c = false := by simp [Text.isBlank]
    exact (derive_joined_paths k).1 " m/2h".toList "m//1' ".toList hlast hfirst
  · exact (derive_joined_paths k).2 "m//M/".toList (by decide)

/-- A blank at the end of a path is not read, but in front of a slash it belongs to a part. -/
example (k : ExtendedKey) : k.derive "m ".toList = .ok k ∧
    k.derive "m /".toList = .error (.notAnInteger "m ".toList) :=
  ⟨rfl, rfl⟩

end Keyring.ExtendedKey
