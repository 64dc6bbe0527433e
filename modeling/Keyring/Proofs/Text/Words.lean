import Keyring.Text.Blank
import Mathlib.Data.List.TakeWhile

/-!
# Margins and words of a text

What surrounds a text is trimmed off, up to the first and the last character that stay. Cutting a
text at a separator and joining the pieces are the functions of the library on lists, and so are
inverse to each other.

* `trimBy_surrounded`, `exists_margins`: margins around a text are trimmed off, and what is trimmed
  off are margins.
* `trimBy_eq_iff`: both at once, for a text without margins of its own.
* `trimBy_append_cons`: two texts with a character between them that stays are trimmed one by one.
* `splitOn_joinWith`: words without the separator are cut apart again.
* `infix_iff_piece`: a stretch without the separator lies in one piece.
-/

namespace Keyring.Text

/-! ### Margins -/

section Margins

variable {p : Char → Bool} {pre t post : Text}

theorem trimEndBy_append (hlast : ∀ c ∈ t.getLast?, p c = false) (hpost : ∀ c ∈ post, p c) :
    trimEndBy p (t ++ post) = t := by
  have hdrop : t.reverse.dropWhile p = t.reverse := by
    cases hr : t.reverse with
    | nil => rfl
    | cons c s =>
      have hc : t.getLast? = some c := by rw [← List.head?_reverse, hr, List.head?_cons]
      exact List.dropWhile_cons_of_neg (by simp [hlast c hc])
  unfold trimEndBy
  rw [List.reverse_append, List.dropWhile_append_of_pos fun c hc => hpost c (List.mem_reverse.1 hc),
    hdrop, List.reverse_reverse]

theorem trimBy_of_forall (h : ∀ c ∈ t, p c = false) : trimBy p t = t :=
  trimBy_eq_self (fun c hc => h c (List.mem_of_head? hc)) fun c hc => h c (List.mem_of_getLast? hc)

/-- What is around a text without margins of its own is trimmed off. -/
theorem trimBy_surrounded (hpre : ∀ c ∈ pre, p c) (hpost : ∀ c ∈ post, p c)
    (hfirst : ∀ c ∈ t.head?, p c = false) (hlast : ∀ c ∈ t.getLast?, p c = false) :
    trimBy p (pre ++ t ++ post) = t := by
  unfold trimBy
  rw [List.append_assoc, List.dropWhile_append_of_pos hpre]
  cases t with
  | nil =>
    have hnil : ([] ++ post).dropWhile p = [] := List.dropWhile_eq_nil_iff.2 hpost
    rw [hnil]
    rfl
  | cons c u =>
    rw [List.cons_append, List.dropWhile_cons_of_neg (by simp [hfirst c rfl]), ← List.cons_append]
    exact trimEndBy_append hlast hpost

theorem exists_trimEndBy_append (p : Char → Bool) (t : Text) :
    ∃ post : Text, (∀ c ∈ post, p c) ∧ t = trimEndBy p t ++ post := by
  refine ⟨(t.reverse.takeWhile p).reverse,
    fun c hc => List.mem_takeWhile_imp (List.mem_reverse.1 hc), ?_⟩
  rw [trimEndBy, ← List.reverse_append, List.takeWhile_append_dropWhile, List.reverse_reverse]

/-- What is trimmed off are margins. -/
theorem exists_margins (p : Char → Bool) (t : Text) :
    ∃ pre post : Text, (∀ c ∈ pre, p c) ∧ (∀ c ∈ post, p c) ∧ t = pre ++ trimBy p t ++ post := by
  obtain ⟨post, hpost, hend⟩ := exists_trimEndBy_append p (t.dropWhile p)
  refine ⟨t.takeWhile p, post, fun c hc => List.mem_takeWhile_imp hc, hpost, ?_⟩
  rw [trimBy, List.append_assoc, ← hend, List.takeWhile_append_dropWhile]

/-- A text is trimmed to what stands between its margins. -/
theorem trimBy_eq_iff {u : Text} (hfirst : ∀ c ∈ t.head?, p c = false)
    (hlast : ∀ c ∈ t.getLast?, p c = false) :
    trimBy p u = t ↔ ∃ pre post, (∀ c ∈ pre, p c) ∧ (∀ c ∈ post, p c) ∧ u = pre ++ t ++ post := by
  constructor
  · rintro rfl
    exact exists_margins p u
  · rintro ⟨pre, post, hpre, hpost, rfl⟩
    exact trimBy_surrounded hpre hpost hfirst hlast

/-- What is left has no margins of its own. -/
theorem trimBy_ends (p : Char → Bool) (t : Text) :
    (∀ c ∈ (trimBy p t).head?, p c = false) ∧ ∀ c ∈ (trimBy p t).getLast?, p c = false := by
  have hdrop : ∀ (u : Text), ∀ c ∈ (u.dropWhile p).head?, p c = false := fun u c hc => by
    have hnot := List.head?_dropWhile_not p u
    rw [Option.mem_def.1 hc] at hnot
    exact hnot
  constructor
  · intro c hc
    obtain ⟨post, -, hend⟩ := exists_trimEndBy_append p (t.dropWhile p)
    rw [← trimBy] at hend
    exact hdrop t c (by rw [hend, List.head?_append, Option.mem_def.1 hc]; rfl)
  · intro c hc
    rw [trimBy, trimEndBy, List.getLast?_reverse] at hc
    exact hdrop _ c hc

theorem dropWhile_append_cons {c : Char} (hc : p c = false) (s t : Text) :
    (s ++ c :: t).dropWhile p = s.dropWhile p ++ c :: t := by
  rw [List.dropWhile_append, List.dropWhile_cons_of_neg (by simp [hc])]
  cases s.dropWhile p <;> rfl

theorem trimEndBy_append_cons {c : Char} (hc : p c = false) (s t : Text) :
    trimEndBy p (s ++ c :: t) = s ++ c :: trimEndBy p t := by
  have hreverse : (s ++ c :: t).reverse = t.reverse ++ c :: s.reverse := by simp
  rw [trimEndBy, hreverse, dropWhile_append_cons hc, trimEndBy]
  simp

/-- Two texts with a character between them that stays are trimmed one by one, if no margin is next
to it. -/
theorem trimBy_append_cons {c : Char} {s t : Text} (hc : p c = false)
    (hlast : ∀ x ∈ s.getLast?, p x = false) (hfirst : ∀ x ∈ t.head?, p x = false) :
    trimBy p (s ++ c :: t) = trimBy p s ++ c :: trimBy p t := by
  have hleft : trimEndBy p (s.dropWhile p) = s.dropWhile p := by
    obtain ⟨pre, hpre⟩ := List.dropWhile_suffix (l := s) p
    have hend : ∀ x ∈ (s.dropWhile p).getLast?, p x = false := fun x hx =>
      hlast x (by rw [← hpre, List.getLast?_append, hx]; rfl)
    have htrim := trimEndBy_append hend (List.forall_mem_nil fun x => p x = true)
    rwa [List.append_nil] at htrim
  have hright : t.dropWhile p = t := by
    cases t with
    | nil => rfl
    | cons d t => exact List.dropWhile_cons_of_neg (by simp [hfirst d rfl])
  rw [trimBy, trimBy, trimBy, dropWhile_append_cons hc, trimEndBy_append_cons hc, hleft, hright]

end Margins

/-! ### Words -/

theorem splitOn_eq (sep : Char) (t : Text) : splitOn sep t = List.splitOn sep t := by
  induction t with
  | nil => rfl
  | cons c t ih =>
    rw [splitOn, ih, List.splitOn, List.splitOn, List.splitOnP_cons_eq_if_modifyHead]
    by_cases hc : c = sep
    · rw [if_pos hc, if_pos (by simpa using hc)]
    · rw [if_neg hc, if_neg (by simpa using hc)]
      obtain ⟨w, ws, hsplit⟩ := List.exists_cons_of_ne_nil (List.splitOnP_ne_nil (· == sep) t)
      rw [hsplit]
      rfl

theorem joinWith_eq (sep : Char) (ws : List Text) : joinWith sep ws = [sep].intercalate ws := by
  induction ws with
  | nil => rfl
  | cons w ws ih =>
    cases ws with
    | nil => simp [joinWith, List.intercalate]
    | cons v ws =>
      rw [joinWith_cons (List.cons_ne_nil v ws), ih]
      simp [List.intercalate]

/-- Words without the separator are cut apart again. -/
theorem splitOn_joinWith {sep : Char} {ws : List Text} (hne : ws ≠ []) (h : ∀ w ∈ ws, sep ∉ w) :
    splitOn sep (joinWith sep ws) = ws := by
  rw [splitOn_eq, joinWith_eq]
  exact List.splitOn_intercalate sep h hne

/-! ### Pieces -/

section Pieces

variable {sep c : Char} {s t w : Text}

theorem splitOn_append_cons (sep : Char) (s t : Text) :
    splitOn sep (s ++ sep :: t) = splitOn sep s ++ splitOn sep t := by
  rw [splitOn_eq, splitOn_eq, splitOn_eq]
  exact List.splitOn_append_cons_self s t

theorem splitOn_of_notMem (h : sep ∉ t) : splitOn sep t = [t] := by
  rw [splitOn_eq]
  exact List.splitOn_eq_singleton h

theorem length_splitOn_eq_one : (splitOn sep t).length = 1 ↔ sep ∉ t := by
  constructor
  · intro h hmem
    obtain ⟨u, v, rfl⟩ := List.append_of_mem hmem
    have hu : 0 < (splitOn sep u).length := List.length_pos_iff.2 (splitOn_ne_nil sep u)
    have hv : 0 < (splitOn sep v).length := List.length_pos_iff.2 (splitOn_ne_nil sep v)
    rw [splitOn_append_cons, List.length_append] at h
    omega
  · intro h
    rw [splitOn_of_notMem h]
    rfl

/-- No piece has a separator left in it. -/
theorem notMem_of_mem_splitOn (h : w ∈ splitOn sep t) : sep ∉ w := by
  induction t generalizing w with
  | nil =>
    rw [splitOn, List.mem_singleton] at h
    exact h ▸ List.not_mem_nil
  | cons c t ih =>
    by_cases hc : c = sep
    · rw [splitOn, if_pos hc] at h
      rcases List.mem_cons.1 h with rfl | hw
      · exact List.not_mem_nil
      · exact ih hw
    · obtain ⟨v, vs, hsplit⟩ := List.exists_cons_of_ne_nil (splitOn_ne_nil sep t)
      simp only [splitOn, if_neg hc, hsplit] at h ih
      rcases List.mem_cons.1 h with rfl | hw
      · exact List.not_mem_cons_of_ne_of_not_mem (Ne.symm hc) (ih List.mem_cons_self)
      · exact ih (List.mem_cons_of_mem v hw)

/-- A joined text is cut into the pieces of its words. -/
theorem splitOn_joinWith_eq_flatMap {ws : List Text} (hne : ws ≠ []) :
    splitOn sep (joinWith sep ws) = ws.flatMap (splitOn sep) := by
  induction ws with
  | nil => exact absurd rfl hne
  | cons w ws ih =>
    by_cases hws : ws = []
    · subst hws
      exact (List.append_nil _).symm
    · rw [joinWith_cons hws, splitOn_append_cons, ih hws, List.flatMap_cons]

end Pieces

/-! ### Stretches of pieces -/

section Stretches

variable {sep d : Char} {s t w : Text}

/-- A stretch without the separator lies on one side of it. -/
theorem infix_append_cons_iff (h : sep ∉ w) : w <:+: s ++ sep :: t ↔ w <:+: s ∨ w <:+: t := by
  constructor
  · intro hin
    rcases List.infix_append_iff.1 hin with hs | ht | ⟨u, v, rfl, hu, hv⟩
    · exact .inl hs
    · rcases List.infix_cons_iff.1 ht with hfirst | ht
      · cases w with
        | nil => exact .inl List.nil_infix
        | cons c w =>
          obtain ⟨rfl, -⟩ := List.cons_prefix_cons.1 hfirst
          exact absurd List.mem_cons_self h
      · exact .inr ht
    · -- A stretch over the border would begin its second half with the separator.
      cases v with
      | nil => exact .inl (by rw [List.append_nil]; exact hu.isInfix)
      | cons c v =>
        obtain ⟨rfl, -⟩ := List.cons_prefix_cons.1 hv
        exact absurd (List.mem_append_right u List.mem_cons_self) h
  · rintro (hs | ht)
    · exact List.infix_append_of_infix_left hs
    · exact List.infix_append_of_infix_right (List.infix_cons ht)

theorem infix_joinWith_iff {ws : List Text} (hne : ws ≠ []) (h : sep ∉ w) :
    w <:+: joinWith sep ws ↔ ∃ v ∈ ws, w <:+: v := by
  induction ws with
  | nil => exact absurd rfl hne
  | cons v ws ih =>
    by_cases hws : ws = []
    · subst hws
      simp [joinWith]
    · rw [joinWith_cons hws, infix_append_cons_iff h, ih hws]
      simp only [List.mem_cons, exists_eq_or_imp]

/-- A stretch without the separator lies in one piece. -/
theorem infix_iff_piece (h : sep ∉ w) : w <:+: t ↔ ∃ v ∈ splitOn sep t, w <:+: v := by
  rw [← infix_joinWith_iff (splitOn_ne_nil sep t) h, joinWith_splitOn]

theorem one_lt_count_iff : 1 < t.count d ↔ ∃ mid, d :: mid ++ [d] <:+: t := by
  constructor
  · intro h
    have hmem : d ∈ t := List.count_pos_iff.1 (by omega)
    obtain ⟨pre, rest, rfl, hpre⟩ := List.eq_append_cons_of_mem hmem
    rw [List.count_append, List.count_cons_self, List.count_eq_zero_of_not_mem hpre] at h
    obtain ⟨mid, post, rfl⟩ :=
      List.append_of_mem (List.count_pos_iff.1 (by omega : 0 < rest.count d))
    exact ⟨mid, pre, post, by simp⟩
  · rintro ⟨mid, hin⟩
    have hle := hin.sublist.count_le d
    simp only [List.cons_append, List.count_cons_self, List.count_append] at hle
    omega

/-- No piece has a character twice exactly if a separator stands between any two of its places. -/
theorem forall_count_le_one_iff (hd : d ≠ sep) :
    (∀ v ∈ splitOn sep t, v.count d ≤ 1) ↔ ∀ mid, d :: mid ++ [d] <:+: t → sep ∈ mid := by
  constructor
  · intro h mid hin
    by_contra hmid
    have hsep : sep ∉ d :: mid ++ [d] := by simp [hmid, hd.symm]
    obtain ⟨v, hv, hinv⟩ := (infix_iff_piece hsep).1 hin
    exact absurd (one_lt_count_iff.2 ⟨mid, hinv⟩) (Nat.not_lt.2 (h v hv))
  · intro h v hv
    by_contra hcount
    obtain ⟨mid, hinv⟩ := one_lt_count_iff.1 (Nat.not_le.1 hcount)
    have hsep : sep ∉ d :: mid ++ [d] := fun hmem => notMem_of_mem_splitOn hv (hinv.subset hmem)
    have hmid := h mid ((infix_iff_piece hsep).2 ⟨v, hv, hinv⟩)
    exact hsep (by simp [hmid])

end Stretches

theorem mem_joinWith {sep c : Char} {ws : List Text} (h : c ∈ joinWith sep ws) :
    c = sep ∨ ∃ w ∈ ws, c ∈ w := by
  induction ws with
  | nil => exact absurd h List.not_mem_nil
  | cons w ws ih =>
    by_cases hws : ws = []
    · subst hws
      exact .inr ⟨w, List.mem_singleton_self w, h⟩
    · rw [joinWith_cons hws, List.mem_append, List.mem_cons] at h
      rcases h with hw | hsep | hrest
      · exact .inr ⟨w, List.mem_cons_self, hw⟩
      · exact .inl hsep
      · obtain hsep | ⟨v, hv, hc⟩ := ih hrest
        · exact .inl hsep
        · exact .inr ⟨v, List.mem_cons_of_mem w hv, hc⟩

end Keyring.Text
