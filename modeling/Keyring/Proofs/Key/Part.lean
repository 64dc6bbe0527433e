import Keyring.Key.Path
import Keyring.Proofs.Outcome
import Keyring.Proofs.Text.Literal

/-!
# The parts of a path and what they name

A path is cut at its slashes, between the blanks around it (`Path.Cut`). A part of it that is not
idle is read as an integer literal with any number of marks behind it (`Path.Reads`). No literal
ends in a mark, so the marks at the end of a part are all that stands behind its literal. The number
has to be below the first hardened index; marks move it into the upper half of the indexes
(`Path.Names`).
-/

namespace Keyring.Path

open Text Decimal
open ExtendedKey (hardenedOffset)

/-- Between its margins the path consists of pieces with slashes between them, and the parts are the
pieces that are not idle. -/
def Cut (path : Text) (parts : List Text) : Prop :=
  ∃ pre pieces post, path = pre ++ joinWith '/' pieces ++ post ∧ (∀ w ∈ pieces, '/' ∉ w) ∧
    ((∀ c ∈ pre, isBlank c) ∧ ∀ c ∈ post, isBlank c) ∧
    ((∀ c ∈ (joinWith '/' pieces).head?, isBlank c = false) ∧
      ∀ c ∈ (joinWith '/' pieces).getLast?, isBlank c = false) ∧
    parts = pieces.filter fun w => !(w = [] ∨ w = ['m'] ∨ w = ['M'] : Bool)

/-- The part is an integer literal of the value `v`, of no more digits than are read, with `marks`
behind it. -/
def Reads (part marks : Text) (v : Int) : Prop :=
  ∃ t ds, Literal t ds v ∧ ds.length ≤ mostDigits ∧ (∀ c ∈ marks, isMark c) ∧ part = t ++ marks

/-- The part names the child at this index. -/
def Names (part : Text) (index : Int) : Prop :=
  ∃ marks v, Reads part marks v ∧ (0 ≤ v ∧ v < 2 ^ 31) ∧
    index = if marks = [] then v else v + 2 ^ 31

/-- The fault of a part that is not read. -/
def illegible (part : Text) : Fault :=
  match excess? (trimEndBy isMark part) with
  | some digits => .literalTooLong digits
  | none => .notAnInteger (trimEndBy isMark part)

variable {part marks t : Text} {c : Char} {d : ℕ} {ds : List ℕ} {v index : Int}

/-! ### Parts -/

theorem isIdle_iff : isIdle part ↔ part = [] ∨ part = ['m'] ∨ part = ['M'] := by
  simp only [isIdle, Bool.or_eq_true, decide_eq_true_eq, or_assoc]

/-- There is one way to cut a path, the one that is used. -/
theorem cut_iff {path : Text} {ps : List Text} : Cut path ps ↔ ps = parts path := by
  have hidle : (fun w : Text => !(w = [] ∨ w = ['m'] ∨ w = ['M'] : Bool)) = fun w => !isIdle w :=
    funext fun w => congrArg not (Bool.eq_iff_iff.2 (by rw [decide_eq_true_eq, isIdle_iff]))
  constructor
  · rintro ⟨pre, pieces, post, rfl, hpieces, ⟨hpre, hpost⟩, ⟨hfirst, hlast⟩, rfl⟩
    rw [parts, trim, trimBy_surrounded hpre hpost hfirst hlast, hidle]
    cases pieces with
    | nil => rfl
    | cons w ws => rw [splitOn_joinWith (List.cons_ne_nil w ws) hpieces]
  · rintro rfl
    obtain ⟨pre, post, hpre, hpost, hpath⟩ := exists_margins isBlank path
    have hends := trimBy_ends isBlank path
    rw [← joinWith_splitOn '/' (trimBy isBlank path)] at hpath hends
    exact ⟨pre, _, post, hpath, fun w => notMem_of_mem_splitOn, ⟨hpre, hpost⟩, hends,
      by rw [hidle]; rfl⟩

/-! ### Marks -/

theorem isMark_iff : isMark c ↔ c = '\'' ∨ c = 'h' ∨ c = 'H' := by
  simp only [isMark, Bool.or_eq_true, decide_eq_true_eq, or_assoc]

theorem isMark_of_digit? (h : digit? c = some d) : isMark c = false := by
  refine Bool.eq_false_iff.2 fun hmark => ?_
  rcases isMark_iff.1 hmark with rfl | rfl | rfl
  all_goals exact (nomatch h)

theorem isMark_of_isMargin (h : isMargin c) : isMark c = false := by
  refine Bool.eq_false_iff.2 fun hmark => ?_
  rcases isMark_iff.1 hmark with rfl | rfl | rfl
  all_goals exact absurd h (by decide)

/-- A literal ends in a digit or in a blank. -/
theorem isMark_of_literal (h : Literal t ds v) : ∀ c ∈ t.getLast?, isMark c = false := by
  intro c hc
  rcases h.getLast? c hc with hdigit | hmargin
  · obtain ⟨d, hd⟩ := Option.isSome_iff_exists.1 hdigit
    exact isMark_of_digit? hd
  · exact isMark_of_isMargin hmargin

theorem any_isMark_getLast? (ht : ∀ c ∈ t.getLast?, isMark c = false)
    (hmarks : ∀ c ∈ marks, isMark c) : (t ++ marks).getLast?.any isMark = !marks.isEmpty := by
  cases hlast : marks.getLast? with
  | none =>
    obtain rfl := List.getLast?_eq_none_iff.1 hlast
    rw [List.append_nil, (Option.any_eq_false _ _).2 ht]
    rfl
  | some c =>
    have hmem : c ∈ marks := List.mem_of_getLast? hlast
    rw [List.getLast?_append, hlast]
    cases marks with
    | nil => exact absurd hmem List.not_mem_nil
    | cons d marks => exact hmarks c hmem

/-! ### Reading -/

/-- What is made of a part that is read. -/
theorem index_of_reads (h : Reads part marks v) : Path.index part =
    if 0 ≤ v ∧ v < 2 ^ 31 then .ok (if marks = [] then v else v + 2 ^ 31).toNat
      else .error (.pathIndex part) := by
  obtain ⟨t, ds, hliteral, hlength, hmarks, rfl⟩ := h
  have hend := isMark_of_literal hliteral
  have hexcess : excess? t = none := by rw [hliteral.excess?_eq, if_neg (not_lt.2 hlength)]
  have hvalue : integer? t = some v := integer?_eq_some.2 ⟨ds, hliteral⟩
  have hoffset : ((hardenedOffset : ℕ) : Int) = 2 ^ 31 := rfl
  unfold Path.index
  -- What is trimmed off are the marks behind the literal, and the last character is one of them or
  -- belongs to it.
  simp only [trimEndBy_append hend hmarks, hexcess, hvalue, any_isMark_getLast? hend hmarks,
    hoffset]
  by_cases hrange : 0 ≤ v ∧ v < 2 ^ 31
  · rw [if_pos hrange, if_pos hrange]
    cases marks with
    | nil => rfl
    | cons c marks =>
      have hadd : v.toNat + hardenedOffset = (v + 2 ^ 31).toNat := by
        unfold hardenedOffset
        omega
      rw [if_neg (List.cons_ne_nil c marks), ← hadd]
      rfl
  · rw [if_neg hrange, if_neg hrange]

/-- A part that is not read is illegible. -/
theorem index_of_not_reads (h : ∀ marks v, ¬Reads part marks v) :
    Path.index part = .error (illegible part) := by
  obtain ⟨marks, hmarks, hpart⟩ := exists_trimEndBy_append isMark part
  unfold Path.index illegible
  cases hexcess : excess? (trimEndBy isMark part) with
  | some digits => simp only [hexcess]
  | none =>
    cases hvalue : integer? (trimEndBy isMark part) with
    | none => simp only [hexcess, hvalue]
    | some v =>
      obtain ⟨ds, hliteral⟩ := integer?_eq_some.1 hvalue
      rw [hliteral.excess?_eq] at hexcess
      have hlength : ds.length ≤ mostDigits := not_lt.1 fun hlt => by simp [hlt] at hexcess
      exact absurd ⟨_, ds, hliteral, hlength, hmarks, hpart⟩ (h marks v)

theorem family_illegible (part : Text) : (illegible part).family = .literal := by
  unfold illegible
  split <;> rfl

theorem index_of_names (h : Names part index) : Path.index part = .ok index.toNat ∧ 0 ≤ index := by
  obtain ⟨marks, v, hreads, hrange, rfl⟩ := h
  refine ⟨by rw [index_of_reads hreads, if_pos hrange], ?_⟩
  split <;> omega

/-- A part that names no child is not read, or it is read as a number out of range. -/
theorem index_cases (part : Text) : (∃ index, Names part index) ∨
    ((∀ marks v, ¬Reads part marks v) ∧ Path.index part = .error (illegible part)) ∨
    ((∃ marks v, Reads part marks v ∧ ¬(0 ≤ v ∧ v < 2 ^ 31)) ∧
      Path.index part = .error (.pathIndex part)) := by
  by_cases hreads : ∃ marks v, Reads part marks v
  · obtain ⟨marks, v, h⟩ := hreads
    by_cases hrange : 0 ≤ v ∧ v < 2 ^ 31
    · exact .inl ⟨_, marks, v, h, hrange, rfl⟩
    · exact .inr (.inr ⟨⟨marks, v, h, hrange⟩, by rw [index_of_reads h, if_neg hrange]⟩)
  · have hnot : ∀ marks v, ¬Reads part marks v := fun marks v h => hreads ⟨marks, v, h⟩
    exact .inr (.inl ⟨hnot, index_of_not_reads hnot⟩)

end Keyring.Path
