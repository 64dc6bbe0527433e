import Keyring.Address
import Keyring.Proofs.Text.Pattern

/-!
# What the form of an address guarantees

The patterns look for stretches of a text and not at the text as a whole. `isValid_iff_shaped` says
what they add up to: the length, the rules on dashes, and one delimiter between letters or digits.
The documented form asks for two things more, an alphabet for all characters and a single delimiter
(`Conforms`).
-/

namespace Keyring.Address

open Text

/-- What a text has to be for `isValid`, without patterns. -/
structure Shaped (t : Text) : Prop where
  length : 3 ≤ t.length ∧ t.length ≤ 64
  start : ¬['-'] <+: t
  /-- A line feed at the end does not hide a dash before it. -/
  stop : ¬['-'] <:+ t ∧ ¬['-', '\n'] <:+ t
  dashes : ¬['-', '-'] <:+: t
  beside : ∀ d, isDelimiter d → ¬['-', d] <:+: t ∧ ¬[d, '-'] <:+: t
  /-- Only on different lines may one delimiter stand twice. -/
  once : ∀ d, isDelimiter d → ∀ pre mid post, t = pre ++ d :: mid ++ d :: post → '\n' ∈ mid
  joint : ∃ x d y, x.isAlphanum ∧ isDelimiter d ∧ y.isAlphanum ∧ [x, d, y] <:+: t

/-- The documented form: letters, digits and single inner dashes around one delimiter, which stands
between letters or digits. -/
structure Conforms (t : Text) : Prop where
  length : 3 ≤ t.length ∧ t.length ≤ 64
  alphabet : ∀ c ∈ t, isNameChar c ∨ isDelimiter c
  single : t.countP isDelimiter = 1
  neighbours : ∃ x d y, x.isAlphanum ∧ isDelimiter d ∧ y.isAlphanum ∧ [x, d, y] <:+: t
  dashes : ¬['-'] <+: t ∧ ¬['-'] <:+ t ∧ ¬['-', '-'] <:+: t

variable {t : Text}

/-! ### The patterns -/

theorem isDelimiter_iff {d : Char} : isDelimiter d ↔ d = ':' ∨ d = '@' := by
  simp [isDelimiter, or_comm]

theorem isNameChar_iff {c : Char} : isNameChar c ↔ c.isAlphanum ∨ c = '-' := by
  simp [isNameChar]

/-- What the pattern of a delimiter forbids. -/
theorem forbidden_occurs_iff {d : Char} : (forbidden d).occurs t ↔
    ['-', '-'] <:+: t ∨ (∃ pre mid post, t = pre ++ d :: mid ++ d :: post ∧ '\n' ∉ mid) ∨
      ['-', d] <:+: t ∨ [d, '-'] <:+: t ∨ ['-'] <+: t ∨ ['-'] <:+ t ∨ ['-', '\n'] <:+ t := by
  have htwice : (Pattern.char d ++ .many (· ≠ '\n') ++ .char d).occurs t ↔
      ∃ pre mid post, t = pre ++ d :: mid ++ d :: post ∧ '\n' ∉ mid := by
    rw [Pattern.occurs_char_many_char]
    simp only [decide_eq_true_eq, ne_eq, List.forall_mem_ne']
  -- Two delimiters side by side are two with nothing between them.
  have hpair : [d, d] <:+: t → ∃ pre mid post, t = pre ++ d :: mid ++ d :: post ∧ '\n' ∉ mid := by
    rintro ⟨pre, post, rfl⟩
    exact ⟨pre, [], post, by simp, List.not_mem_nil⟩
  simp only [forbidden, dash, Pattern.occurs_either, Bool.or_eq_true, Pattern.occurs_char_char,
    Pattern.occurs_start_char, Pattern.occurs_char_stop, htwice, or_assoc]
  rw [← or_assoc (a := [d, d] <:+: t), or_iff_right_of_imp hpair]

/-- What has to occur: a delimiter between two characters of a name. -/
theorem joint_occurs_iff : joint.occurs t ↔
    ∃ x d y, isNameChar x ∧ isDelimiter d ∧ isNameChar y ∧ [x, d, y] <:+: t := by
  rw [Pattern.occurs_iff_exists]
  constructor
  · rintro ⟨pre, _, post, rfl, _, _, rfl,
      ⟨_, _, rfl, ⟨_, name, rfl, ⟨c, hc, rfl⟩, hname⟩, d, hd, rfl⟩, y, hy, rfl⟩
    -- The run before the delimiter is not empty, and its last character is the neighbour.
    obtain ⟨front, x, hlast⟩ :=
      List.eq_nil_or_concat (c :: name) |>.resolve_left (List.cons_ne_nil c name)
    have hx : isNameChar x := by
      have hall : ∀ e ∈ c :: name, isNameChar e := List.forall_mem_cons.2 ⟨hc, hname⟩
      exact hall x (by rw [hlast]; simp)
    refine ⟨x, d, y, hx, hd, hy, pre ++ front, post, ?_⟩
    rw [List.singleton_append, hlast]
    simp
  · rintro ⟨x, d, y, hx, hd, hy, pre, post, rfl⟩
    exact ⟨pre, [x, d, y], post, rfl, [x, d], [y], rfl,
      ⟨[x], [d], rfl, ⟨[x], [], rfl, ⟨x, hx, rfl⟩, by simp [Pattern.Matches]⟩, d, hd,
        rfl⟩, y, hy, rfl⟩

theorem isValid_iff : isValid t ↔ (3 ≤ t.length ∧ t.length ≤ 64) ∧
    (∀ d, isDelimiter d → ¬(forbidden d).occurs t) ∧ joint.occurs t := by
  simp only [isValid, Bool.and_eq_true, decide_eq_true_eq, Bool.not_eq_true', isDelimiter_iff,
    forall_eq_or_imp, forall_eq, Bool.not_eq_true]
  constructor
  · rintro ⟨⟨⟨hlen, hcolon⟩, hat⟩, hjoint⟩
    exact ⟨hlen, ⟨hcolon, hat⟩, hjoint⟩
  · rintro ⟨hlen, ⟨hcolon, hat⟩, hjoint⟩
    exact ⟨⟨⟨hlen, hcolon⟩, hat⟩, hjoint⟩

/-- No dash stands beside a delimiter, so the neighbours of the one that is found are letters or
digits. -/
theorem isValid_iff_shaped : isValid t ↔ Shaped t := by
  rw [isValid_iff, joint_occurs_iff]
  constructor
  · rintro ⟨hlen, hno, x, d, y, hx, hd, hy, hin⟩
    have hbad := fun d hd => mt forbidden_occurs_iff.2 (hno d hd)
    simp only [not_or] at hbad
    obtain ⟨hdashes, -, hleft, hright, hstart, hstop⟩ := hbad d hd
    obtain ⟨pre, post, ht⟩ := hin
    have hxd : x ≠ '-' := by
      rintro rfl
      exact hleft ⟨pre, y :: post, by rw [← ht]; simp⟩
    have hyd : y ≠ '-' := by
      rintro rfl
      exact hright ⟨pre ++ [x], post, by rw [← ht]; simp⟩
    refine ⟨hlen, hstart, hstop, hdashes, fun d hd => ⟨(hbad d hd).2.2.1, (hbad d hd).2.2.2.1⟩, ?_,
      ?_⟩
    · intro d hd pre mid post ht
      by_contra hmid
      exact (hbad d hd).2.1 ⟨pre, mid, post, ht, hmid⟩
    · exact ⟨x, d, y, (isNameChar_iff.1 hx).resolve_right hxd, hd,
        (isNameChar_iff.1 hy).resolve_right hyd, pre, post, ht⟩
  · intro h
    obtain ⟨x, d, y, hx, hd, hy, hin⟩ := h.joint
    refine ⟨h.length, fun d hd hoccurs => ?_, x, d, y, isNameChar_iff.2 (.inl hx), hd,
      isNameChar_iff.2 (.inl hy), hin⟩
    rcases forbidden_occurs_iff.1 hoccurs with hbad | ⟨pre, mid, post, ht, hmid⟩ | hbad | hbad |
      hbad | hbad | hbad
    · exact h.dashes hbad
    · exact hmid (h.once d hd pre mid post ht)
    · exact (h.beside d hd).1 hbad
    · exact (h.beside d hd).2 hbad
    · exact h.start hbad
    · exact h.stop.1 hbad
    · exact h.stop.2 hbad

/-! ### The documented form -/

/-- A single delimiter has one place in a text. -/
theorem eq_of_single (h : t.countP isDelimiter = 1) {d d' : Char} {left right left' right' : Text}
    (hd : isDelimiter d) (hd' : isDelimiter d') (ht : t = left ++ d :: right)
    (ht' : t = left' ++ d' :: right') : left = left' ∧ d = d' ∧ right = right' := by
  subst ht
  rw [List.countP_append, List.countP_cons_of_pos hd] at h
  have hleft : ∀ c ∈ left, ¬isDelimiter c := List.countP_eq_zero.1 (by omega)
  have hright : ∀ c ∈ right, ¬isDelimiter c := List.countP_eq_zero.1 (by omega)
  exact (List.append_cons_inj_of_notMem (fun hm => hleft _ hm hd') fun hm => hright _ hm hd').1 ht'

theorem Conforms.shaped (h : Conforms t) : Shaped t := by
  obtain ⟨x, d, y, hx, hd, hy, pre, post, ht⟩ := h.neighbours
  have hdash : ∀ {c : Char}, c.isAlphanum → c ≠ '-' := by
    rintro c hc rfl
    exact absurd hc (by decide)
  have hsplit : t = (pre ++ [x]) ++ d :: (y :: post) := by rw [← ht]; simp
  have hbeside : ∀ e, isDelimiter e → ¬['-', e] <:+: t ∧ ¬[e, '-'] <:+: t := by
    intro e he
    constructor
    · rintro ⟨left, right, hin⟩
      have hin' : t = (left ++ ['-']) ++ e :: right := by rw [← hin]; simp
      obtain ⟨heq, -⟩ := eq_of_single h.single hd he hsplit hin'
      obtain ⟨-, hxe⟩ := List.append_inj' heq rfl
      exact hdash hx (List.singleton_inj.1 hxe)
    · rintro ⟨left, right, hin⟩
      have hin' : t = left ++ e :: ('-' :: right) := by rw [← hin]; simp
      obtain ⟨-, -, heq⟩ := eq_of_single h.single hd he hsplit hin'
      exact hdash hy (List.cons_eq_cons.1 heq).1
  have honce : ∀ e, isDelimiter e → ∀ left mid right, t = left ++ e :: mid ++ e :: right →
      '\n' ∈ mid := by
    intro e he left mid right hin
    have hfirst : t = left ++ e :: (mid ++ e :: right) := by rw [hin]; simp
    obtain ⟨heq, -⟩ := eq_of_single h.single he he hfirst hin
    simp at heq
  have hstop : ¬['-', '\n'] <:+ t := by
    intro hin
    rcases h.alphabet '\n' (hin.subset (by simp)) with hc | hc
    · exact absurd hc (by decide)
    · exact absurd hc (by decide)
  exact ⟨h.length, h.dashes.1, ⟨h.dashes.2.1, hstop⟩, h.dashes.2.2, hbeside, honce, x, d, y, hx, hd,
    hy, pre, post, ht⟩

/-- A valid text has 3 to 64 characters, no dash at an end, beside another or beside a delimiter,
and a delimiter between letters or digits. It has the documented form exactly if besides all its
characters are letters, digits, dashes and delimiters, and it has a single delimiter. -/
theorem conforms_iff_isValid (t : Text) :
    (isValid t →
      (3 ≤ t.length ∧ t.length ≤ 64) ∧ (¬['-'] <+: t ∧ ¬['-'] <:+ t ∧ ¬['-', '-'] <:+: t) ∧
      (∀ d, isDelimiter d → ¬['-', d] <:+: t ∧ ¬[d, '-'] <:+: t) ∧
      ∃ x d y, x.isAlphanum ∧ isDelimiter d ∧ y.isAlphanum ∧ [x, d, y] <:+: t) ∧
    (Conforms t ↔
      isValid t ∧ (∀ c ∈ t, isNameChar c ∨ isDelimiter c) ∧ t.countP isDelimiter = 1) := by
  rw [isValid_iff_shaped]
  refine ⟨fun h => ⟨h.length, ⟨h.start, h.stop.1, h.dashes⟩, h.beside, h.joint⟩, ?_⟩
  constructor
  · intro h
    exact ⟨h.shaped, h.alphabet, h.single⟩
  · rintro ⟨h, halphabet, hsingle⟩
    exact ⟨h.length, halphabet, hsingle, h.joint, h.start, h.stop.1, h.dashes⟩

/-- A blank and a letter outside ASCII are accepted behind an address, and so is a second delimiter
of the other kind. -/
theorem isValid_beyond_the_form :
    (isValid "a@b é".toList ∧ ¬Conforms "a@b é".toList) ∧
      (isValid "a@b:c".toList ∧ ¬Conforms "a@b:c".toList) := by
  refine ⟨⟨by decide, fun h => ?_⟩, by decide, fun h => ?_⟩
  · have hblank := h.alphabet ' ' (by decide)
    exact absurd hblank (by decide)
  · have hsingle := h.single
    exact absurd hsingle (by decide)

end Keyring.Address
