import Keyring.Text.Pattern
import Mathlib.Data.List.Infix

/-!
# What a pattern matches

`Pattern.Matches` says which stretches of a text a pattern matches, one rule for each way to build a
pattern. Listing the places where a match can end decides this relation (`mem_ends`), so a pattern
occurs in a text exactly if it matches some stretch of it (`occurs_iff_exists`). The patterns that
are put together from single characters occur where these characters stand side by side.

* `occurs_char_char`, `occurs_start_char`, `occurs_char_stop`: two characters in a row, one at the
  start, one at the end.
* `occurs_char_many_char`: a character twice with nothing but characters of a class between.
-/

namespace Keyring.Text

/-- The places that a run leads to lie behind the characters of the class. -/
theorem Place.mem_run {p : Char → Bool} {first : Bool} {t : Text} {s : Place} :
    s ∈ run p first t ↔
      ∃ w, t = w ++ s.rest ∧ (∀ c ∈ w, p c) ∧ s.atStart = (first && w.isEmpty) := by
  induction t generalizing first with
  | nil =>
    rw [run, List.mem_singleton]
    constructor
    · rintro rfl
      exact ⟨[], rfl, by simp, by simp⟩
    · rintro ⟨w, ht, -, hs⟩
      obtain ⟨atStart, rest⟩ := s
      obtain ⟨rfl, rfl⟩ : w = [] ∧ rest = [] := List.append_eq_nil_iff.1 ht.symm
      obtain rfl : atStart = (first && true) := hs
      rw [Bool.and_true]
  | cons c t ih =>
    rw [run, List.mem_cons]
    constructor
    · rintro (rfl | hs)
      · exact ⟨[], rfl, by simp, by simp⟩
      · by_cases hc : p c
        · rw [if_pos hc, ih] at hs
          obtain ⟨w, rfl, hw, hs⟩ := hs
          exact ⟨c :: w, rfl, List.forall_mem_cons.2 ⟨hc, hw⟩, by simpa using hs⟩
        · rw [if_neg hc] at hs
          exact absurd hs List.not_mem_nil
    · rintro ⟨w, ht, hw, hs⟩
      cases w with
      | nil =>
        obtain ⟨atStart, rest⟩ := s
        obtain rfl : c :: t = rest := ht
        obtain rfl : atStart = (first && true) := hs
        exact .inl (by rw [Bool.and_true])
      | cons d w =>
        right
        obtain ⟨rfl, rfl⟩ := List.cons_eq_cons.1 ht
        obtain ⟨hc, hw⟩ := List.forall_mem_cons.1 hw
        rw [if_pos hc, ih]
        exact ⟨w, rfl, hw, by simpa using hs⟩

theorem Place.mem_all {t : Text} {s : Place} :
    s ∈ all t ↔ ∃ pre, t = pre ++ s.rest ∧ s.atStart = pre.isEmpty := by
  simp [all, mem_run]

namespace Pattern

/-- Whether a pattern matches the stretch `w` of a text. `first` tells whether the text begins with
the stretch, and `post` is what follows it. -/
def Matches : Pattern → (first : Bool) → (w post : Text) → Prop
  | one p, _, w, _ => ∃ c, p c ∧ w = [c]
  | many p, _, w, _ => ∀ c ∈ w, p c
  | start, first, w, _ => first ∧ w = []
  | stop, _, w, post => (post = [] ∨ post = ['\n']) ∧ w = []
  | both a b, first, w, post =>
    ∃ u v, w = u ++ v ∧ Matches a first u (v ++ post) ∧ Matches b (first && u.isEmpty) v post
  | either a b, first, w, post => Matches a first w post ∨ Matches b first w post

section Matches

variable {a b : Pattern} {first : Bool} {c : Char} {w post t : Text}

@[simp] theorem matches_char : (char c).Matches first w post ↔ w = [c] := by
  simp [char, Matches]

@[simp] theorem matches_append : (a ++ b).Matches first w post ↔
    ∃ u v, w = u ++ v ∧ a.Matches first u (v ++ post) ∧ b.Matches (first && u.isEmpty) v post :=
      Iff.rfl

@[simp] theorem matches_or :
    (a ||| b).Matches first w post ↔ a.Matches first w post ∨ b.Matches first w post :=
  Iff.rfl

/-- A match from a place can end exactly behind the stretches that the pattern matches. -/
theorem mem_ends {a : Pattern} {first : Bool} {t : Text} {s : Place} : s ∈ a.ends ⟨first, t⟩ ↔
    ∃ w, t = w ++ s.rest ∧ a.Matches first w s.rest ∧ s.atStart = (first && w.isEmpty) := by
  induction a generalizing first t s with
  | one p =>
    cases t with
    | nil => simp [ends, Matches]
    | cons c t =>
      by_cases hc : p c
      · simp only [ends, if_pos hc, List.mem_singleton, Matches]
        constructor
        · rintro rfl
          exact ⟨[c], rfl, ⟨c, hc, rfl⟩, by simp⟩
        · rintro ⟨_, ht, ⟨d, -, rfl⟩, hs⟩
          obtain ⟨atStart, rest⟩ := s
          obtain ⟨-, rfl⟩ : c = d ∧ t = rest := List.cons_eq_cons.1 ht
          obtain rfl : atStart = (first && false) := hs
          rw [Bool.and_false]
      · simp only [ends, if_neg hc, List.not_mem_nil, Matches, false_iff]
        rintro ⟨_, ht, ⟨d, hd, rfl⟩, -⟩
        obtain ⟨rfl, -⟩ := List.cons_eq_cons.1 ht
        exact hc hd
  | many p => exact Place.mem_run
  | start =>
    obtain ⟨atStart, rest⟩ := s
    cases first <;> simp [ends, Matches, eq_comm, and_comm]
  | stop =>
    obtain ⟨atStart, rest⟩ := s
    by_cases ht : t = [] ∨ t = ['\n']
    · simp only [ends, if_pos ht, List.mem_singleton, Place.mk.injEq, Matches]
      constructor
      · rintro ⟨rfl, rfl⟩
        exact ⟨[], rfl, ⟨ht, rfl⟩, by simp⟩
      · rintro ⟨_, rfl, ⟨-, rfl⟩, rfl⟩
        exact ⟨by simp, rfl⟩
    · simp only [ends, if_neg ht, List.not_mem_nil, Matches, false_iff]
      rintro ⟨_, rfl, ⟨hrest, rfl⟩, -⟩
      exact ht hrest
  | both a b iha ihb =>
    simp only [ends, List.mem_flatMap, Matches]
    constructor
    · rintro ⟨⟨_, _⟩, hmid, hs⟩
      obtain ⟨u, rfl, hu, rfl⟩ := iha.1 hmid
      obtain ⟨v, rfl, hv, hs⟩ := ihb.1 hs
      exact ⟨u ++ v, by simp, ⟨u, v, rfl, hu, hv⟩, by cases u <;> simp [hs]⟩
    · rintro ⟨_, rfl, ⟨u, v, rfl, hu, hv⟩, hs⟩
      refine ⟨⟨first && u.isEmpty, v ++ s.rest⟩, iha.2 ⟨u, by simp, hu, rfl⟩,
        ihb.2 ⟨v, rfl, hv, ?_⟩⟩
      cases u <;> simp [hs]
  | either a b iha ihb =>
    simp only [ends, List.mem_append, iha, ihb, Matches]
    constructor
    · rintro (⟨w, ht, hw, hs⟩ | ⟨w, ht, hw, hs⟩)
      · exact ⟨w, ht, .inl hw, hs⟩
      · exact ⟨w, ht, .inr hw, hs⟩
    · rintro ⟨w, ht, hw | hw, hs⟩
      · exact .inl ⟨w, ht, hw, hs⟩
      · exact .inr ⟨w, ht, hw, hs⟩

/-- A pattern occurs in a text exactly if it matches some stretch of it. -/
theorem occurs_iff_exists {a : Pattern} {t : Text} : a.occurs t ↔
    ∃ pre w post, t = pre ++ w ++ post ∧ a.Matches pre.isEmpty w post := by
  rw [occurs_iff]
  constructor
  · rintro ⟨⟨first, rest⟩, hs, hne⟩
    obtain ⟨pre, ht, hfirst⟩ := Place.mem_all.1 hs
    obtain ⟨e, he⟩ := List.exists_mem_of_ne_nil _ hne
    obtain ⟨w, hrest, hw, -⟩ := mem_ends.1 he
    dsimp only at ht hfirst
    subst hfirst hrest
    exact ⟨pre, w, e.rest, by rw [ht, List.append_assoc], hw⟩
  · rintro ⟨pre, w, post, rfl, hw⟩
    refine ⟨⟨pre.isEmpty, w ++ post⟩, Place.mem_all.2 ⟨pre, by simp, rfl⟩, ?_⟩
    exact List.ne_nil_of_mem (mem_ends.2 ⟨w, rfl, hw,
      rfl⟩ : (⟨pre.isEmpty && w.isEmpty, post⟩ : Place) ∈ _)

end Matches

/-! ### Patterns of single characters -/

section Characters

variable {x y : Char} {t : Text}

theorem occurs_char_char : (char x ++ char y).occurs t ↔ [x, y] <:+: t := by
  rw [occurs_iff_exists]
  constructor
  · rintro ⟨pre, _, post, rfl, u, v, rfl, hx, hy⟩
    obtain rfl := matches_char.1 hx
    obtain rfl := matches_char.1 hy
    exact ⟨pre, post, rfl⟩
  · rintro ⟨pre, post, rfl⟩
    exact ⟨pre, [x, y], post, rfl, [x], [y], rfl, matches_char.2 rfl, matches_char.2 rfl⟩

theorem occurs_start_char : (start ++ char x).occurs t ↔ [x] <+: t := by
  rw [occurs_iff_exists]
  constructor
  · rintro ⟨pre, _, post, rfl, u, v, rfl, ⟨hpre, rfl⟩, hx⟩
    obtain rfl := matches_char.1 hx
    obtain rfl := List.isEmpty_iff.1 hpre
    exact ⟨post, rfl⟩
  · rintro ⟨post, rfl⟩
    exact ⟨[], [x], post, rfl, [], [x], rfl, ⟨rfl, rfl⟩, matches_char.2 rfl⟩

/-- The end of a text is also before a line feed that ends it. -/
theorem occurs_char_stop : (char x ++ stop).occurs t ↔ [x] <:+ t ∨ [x, '\n'] <:+ t := by
  rw [occurs_iff_exists]
  constructor
  · rintro ⟨pre, _, post, rfl, u, v, rfl, hx, hpost, rfl⟩
    obtain rfl := matches_char.1 hx
    rcases hpost with rfl | rfl
    · exact .inl ⟨pre, by simp⟩
    · exact .inr ⟨pre, by simp⟩
  · rintro (⟨pre, rfl⟩ | ⟨pre, rfl⟩)
    · exact ⟨pre, [x], [], by simp, [x], [], rfl, matches_char.2 rfl, .inl rfl, rfl⟩
    · exact ⟨pre, [x], ['\n'], by simp, [x], [], rfl, matches_char.2 rfl, .inr rfl, rfl⟩

theorem occurs_char_many_char {p : Char → Bool} : (char x ++ many p ++ char y).occurs t ↔
    ∃ pre mid post, t = pre ++ x :: mid ++ y :: post ∧ ∀ c ∈ mid, p c := by
  rw [occurs_iff_exists]
  constructor
  · rintro ⟨pre, _, post, rfl, _, v, rfl, ⟨u, mid, rfl, hx, hmid⟩, hy⟩
    obtain rfl := matches_char.1 hx
    obtain rfl := matches_char.1 hy
    exact ⟨pre, mid, post, by simp, hmid⟩
  · rintro ⟨pre, mid, post, rfl, hmid⟩
    exact ⟨pre, x :: mid ++ [y], post, by simp, x :: mid, [y], rfl,
      ⟨[x], mid, rfl, matches_char.2 rfl, hmid⟩, matches_char.2 rfl⟩

end Characters

end Pattern

end Keyring.Text
