import Keyring.Proofs.Address
import Keyring.Proofs.Text.Words
import Keyring.Text.LowerCase
import Mathlib.Logic.Equiv.Basic

/-!
# Addresses line by line

A run of the patterns ends at a line feed, so what is said about two delimiters is said about the
lines of a text (`once_iff_lines`). Validity then depends on little about a character: whether it is
a letter or a digit, a dash, a line feed, or which of the two delimiters. A function on characters
that respects these classes leaves the validity of all texts as it is.
-/

namespace Keyring.Address

open Text

variable {t : Text}

/-! ### Lines -/

/-- A delimiter stands at most once between line feeds exactly if each line has at most one. -/
theorem once_iff_lines {d : Char} (hd : isDelimiter d) :
    (∀ pre mid post, t = pre ++ d :: mid ++ d :: post → '\n' ∈ mid) ↔
      ∀ line ∈ splitOn '\n' t, line.count d ≤ 1 := by
  have hfeed : d ≠ '\n' := by
    rintro rfl
    exact absurd hd (by decide)
  rw [forall_count_le_one_iff hfeed]
  constructor
  · rintro h mid ⟨pre, post, ht⟩
    exact h pre mid post (by rw [← ht]; simp)
  · rintro h pre mid post rfl
    exact h mid ⟨pre, post, by simp⟩

/-! ### Renaming -/

/-- A function on characters that keeps letters and digits, dashes, line feeds and delimiters among
themselves, and the delimiters apart. -/
structure Renames (f : Char → Char) : Prop where
  dash : ∀ c, f c = '-' ↔ c = '-'
  lineFeed : ∀ c, f c = '\n' ↔ c = '\n'
  alphanum : ∀ c, (f c).isAlphanum ↔ c.isAlphanum
  delimiter : ∀ c, isDelimiter (f c) ↔ isDelimiter c
  apart : ∀ c d, isDelimiter c → isDelimiter d → f c = f d → c = d

section Renaming

variable {f : Char → Char}

/-- Neighbours in a renamed text were neighbours before. -/
theorem exists_pair {x y : Char} (h : [x, y] <:+: t.map f) :
    ∃ c d, f c = x ∧ f d = y ∧ [c, d] <:+: t := by
  obtain ⟨w, hw, heq⟩ := List.infix_map_iff.1 h
  obtain ⟨c, _, rfl, hc, hlast⟩ := List.map_eq_cons_iff.1 heq.symm
  obtain ⟨d, rfl, hd⟩ := List.map_eq_singleton_iff.1 hlast
  exact ⟨c, d, hc, hd, hw⟩

variable (hf : Renames f)

include hf

theorem Renames.map_dash : f '-' = '-' :=
  (hf.dash _).2 rfl

theorem Renames.map_lineFeed : f '\n' = '\n' :=
  (hf.lineFeed _).2 rfl

/-- Dashes and line feeds are renamed from nothing but themselves. -/
theorem Renames.map_eq_iff {w v : Text} (hw : ∀ c ∈ w, c = '-' ∨ c = '\n') :
    w = v.map f ↔ v = w := by
  induction w generalizing v with
  | nil => rw [eq_comm, List.map_eq_nil_iff]
  | cons c w ih =>
    obtain ⟨hc, hw⟩ := List.forall_mem_cons.1 hw
    cases v with
    | nil => simp
    | cons d v =>
      have hcd : c = f d ↔ d = c := by
        rcases hc with rfl | rfl
        · rw [eq_comm, hf.dash]
        · rw [eq_comm, hf.lineFeed]
      rw [List.map_cons, List.cons_eq_cons, List.cons_eq_cons, hcd, ih hw]

theorem Shaped.of_map (h : Shaped (t.map f)) : Shaped t := by
  have hdash := hf.map_dash
  have hfeed := hf.map_lineFeed
  refine ⟨by simpa using h.length, fun hin => h.start ?_,
    ⟨fun hin => h.stop.1 ?_, fun hin => h.stop.2 ?_⟩, fun hin => h.dashes ?_, fun d hd => ?_, ?_,
      ?_⟩
  · simpa [hdash] using hin.map f
  · simpa [hdash] using hin.map f
  · simpa [hdash, hfeed] using hin.map f
  · simpa [hdash] using hin.map f
  · obtain ⟨hleft, hright⟩ := h.beside (f d) ((hf.delimiter d).2 hd)
    exact ⟨fun hin => hleft (by simpa [hdash] using hin.map f),
      fun hin => hright (by simpa [hdash] using hin.map f)⟩
  · rintro d hd pre mid post rfl
    have hmid := h.once (f d) ((hf.delimiter d).2 hd) (pre.map f) (mid.map f) (post.map f) (by simp)
    obtain ⟨c, hc, hfc⟩ := List.mem_map.1 hmid
    exact (hf.lineFeed c).1 hfc ▸ hc
  · obtain ⟨_, _, _, hx, hd, hy, hin⟩ := h.joint
    obtain ⟨w, hw, heq⟩ := List.infix_map_iff.1 hin
    obtain ⟨x, _, rfl, rfl, htail⟩ := List.map_eq_cons_iff.1 heq.symm
    obtain ⟨d, _, rfl, rfl, hlast⟩ := List.map_eq_cons_iff.1 htail
    obtain ⟨y, rfl, rfl⟩ := List.map_eq_singleton_iff.1 hlast
    exact ⟨x, d, y, (hf.alphanum x).1 hx, (hf.delimiter d).1 hd, (hf.alphanum y).1 hy, hw⟩

theorem Shaped.map (h : Shaped t) : Shaped (t.map f) := by
  have hplain : ∀ w : Text, (∀ c ∈ w, c = '-' ∨ c = '\n') →
      (w <+: t.map f → w <+: t) ∧ (w <:+ t.map f → w <:+ t) ∧ (w <:+: t.map f → w <:+: t) := by
    intro w hw
    simp only [List.prefix_map_iff, List.suffix_map_iff, List.infix_map_iff, hf.map_eq_iff hw]
    simp
  have hdash := hplain ['-'] (by simp)
  refine ⟨by simpa using h.length, fun hin => h.start (hdash.1 hin),
    ⟨fun hin => h.stop.1 (hdash.2.1 hin), fun hin => h.stop.2 ((hplain _ (by simp)).2.1 hin)⟩,
      fun hin => h.dashes ((hplain _ (by simp)).2.2 hin), ?_, ?_, ?_⟩
  · intro d hd
    constructor
    · intro hin
      obtain ⟨c, e, hc, rfl, hin⟩ := exists_pair hin
      obtain rfl := (hf.dash c).1 hc
      exact (h.beside e ((hf.delimiter e).1 hd)).1 hin
    · intro hin
      obtain ⟨e, c, rfl, hc, hin⟩ := exists_pair hin
      obtain rfl := (hf.dash c).1 hc
      exact (h.beside e ((hf.delimiter e).1 hd)).2 hin
  · intro d hd pre mid post ht
    obtain ⟨front, rest, rfl, hfront, hrest⟩ := List.map_eq_append_iff.1 ht
    obtain ⟨c, post', rfl, hc, rfl⟩ := List.map_eq_cons_iff.1 hrest
    obtain ⟨pre', mid', rfl, rfl, hmid⟩ := List.map_eq_append_iff.1 hfront
    obtain ⟨e, mid', rfl, rfl, rfl⟩ := List.map_eq_cons_iff.1 hmid
    have he : isDelimiter e := (hf.delimiter e).1 hd
    obtain rfl := hf.apart c e ((hf.delimiter c).1 (hc ▸ hd)) he hc
    exact List.mem_map.2 ⟨'\n', h.once c he pre' mid' post' rfl, hf.map_lineFeed⟩
  · obtain ⟨x, d, y, hx, hd, hy, hin⟩ := h.joint
    exact ⟨f x, f d, f y, (hf.alphanum x).2 hx, (hf.delimiter d).2 hd, (hf.alphanum y).2 hy,
      hin.map f⟩

/-- Renaming does not change validity. -/
theorem isValid_map (t : Text) : isValid (t.map f) = isValid t := by
  rw [Bool.eq_iff_iff, isValid_iff_shaped, isValid_iff_shaped]
  exact ⟨Shaped.of_map hf, Shaped.map hf⟩

end Renaming

/-! ### Case and delimiters -/

/-- A function that changes letters and digits only, and into letters and digits. -/
theorem Renames.of_alphanum {f : Char → Char} (h : ∀ c, f c = c ∨ c.isAlphanum ∧ (f c).isAlphanum) :
    Renames f := by
  have hother : ∀ c : Char, c.isAlphanum → c ≠ '-' ∧ c ≠ '\n' ∧ ¬isDelimiter c := by
    intro c hc
    refine ⟨?_, ?_, fun hd => ?_⟩
    · rintro rfl
      exact absurd hc (by decide)
    · rintro rfl
      exact absurd hc (by decide)
    · rcases isDelimiter_iff.1 hd with rfl | rfl
      · exact absurd hc (by decide)
      · exact absurd hc (by decide)
  have hcases : ∀ c, f c = c ∨ (c.isAlphanum ∧ c ≠ '-' ∧ c ≠ '\n' ∧ ¬isDelimiter c) ∧
      (f c).isAlphanum ∧ f c ≠ '-' ∧ f c ≠ '\n' ∧ ¬isDelimiter (f c) := by
    intro c
    rcases h c with hc | ⟨hc, hfc⟩
    · exact .inl hc
    · exact .inr ⟨⟨hc, hother c hc⟩, hfc, hother _ hfc⟩
  refine ⟨fun c => ?_, fun c => ?_, fun c => ?_, fun c => ?_, fun c d hc hd hcd => ?_⟩
  · rcases hcases c with hc | ⟨hc, hfc⟩
    · rw [hc]
    · exact iff_of_false hfc.2.1 hc.2.1
  · rcases hcases c with hc | ⟨hc, hfc⟩
    · rw [hc]
    · exact iff_of_false hfc.2.2.1 hc.2.2.1
  · rcases hcases c with hc | ⟨hc, hfc⟩
    · rw [hc]
    · exact iff_of_true hfc.1 hc.1
  · rcases hcases c with hc | ⟨hc, hfc⟩
    · rw [hc]
    · exact iff_of_false hfc.2.2.2 hc.2.2.2
  · have hfixed : ∀ e, isDelimiter e → f e = e := fun e he =>
      (hcases e).resolve_right fun hletter => hletter.1.2.2.2 he
    rwa [hfixed c hc, hfixed d hd] at hcd

/-- ASCII letters in the other case. -/
theorem renames_toLower : Renames Char.toLower := by
  refine Renames.of_alphanum fun c => ?_
  by_cases hc : c.toNat < 128
  · have hall : ∀ n < 128, (Char.ofNat n).toLower = Char.ofNat n ∨
        (Char.ofNat n).isAlphanum ∧ (Char.ofNat n).toLower.isAlphanum := by decide
    have h := hall c.toNat hc
    rwa [Char.ofNat_toNat] at h
  · exact .inl (toLower_of_not_ascii hc)

/-- The delimiters for one another. -/
theorem renames_swap : Renames (Equiv.swap '@' ':') := by
  have hcases : ∀ c, (c = '@' ∧ Equiv.swap '@' ':' c = ':') ∨
      (c = ':' ∧ Equiv.swap '@' ':' c = '@') ∨
      Equiv.swap '@' ':' c = c := by
    intro c
    by_cases hat : c = '@'
    · exact .inl ⟨hat, hat ▸ Equiv.swap_apply_left _ _⟩
    · by_cases hcolon : c = ':'
      · exact .inr (.inl ⟨hcolon, hcolon ▸ Equiv.swap_apply_right _ _⟩)
      · exact .inr (.inr (Equiv.swap_apply_of_ne_of_ne hat hcolon))
  refine ⟨fun c => ?_, fun c => ?_, fun c => ?_, fun c => ?_,
    fun c d _ _ h => (Equiv.swap '@' ':').injective h⟩
  all_goals
    rcases hcases c with ⟨rfl, hc⟩ | ⟨rfl, hc⟩ | hc
    · rw [hc]
      decide
    · rw [hc]
      decide
    · rw [hc]

/-! ### Validity -/

/-- A text is valid exactly if it has 3 to 64 characters, no dash at an end (a line feed at the end
does not hide one), none beside another or beside a delimiter, no delimiter twice on a line, and a
delimiter between letters or digits. Texts of the documented form are among them. Neither the case
of ASCII letters nor an exchange of the delimiters changes the answer. -/
theorem isValid_line_by_line (t : Text) :
    (isValid t ↔
      (3 ≤ t.length ∧ t.length ≤ 64) ∧ ¬['-'] <+: t ∧ (¬['-'] <:+ t ∧ ¬['-', '\n'] <:+ t) ∧
      (∀ pair ∈ ["--", "-:", ":-", "-@", "@-"], ¬pair.toList <:+: t) ∧
      (∀ line ∈ splitOn '\n' t, line.count ':' ≤ 1 ∧ line.count '@' ≤ 1) ∧
      ∃ x d y, x.isAlphanum ∧ (d = ':' ∨ d = '@') ∧ y.isAlphanum ∧ [x, d, y] <:+: t) ∧
    (Conforms t → isValid t) ∧
    (∀ u : Text, u.map Char.toLower = t.map Char.toLower → isValid u = isValid t) ∧
    isValid (t.map (Equiv.swap '@' ':')) = isValid t := by
  refine ⟨?_, fun h => isValid_iff_shaped.2 h.shaped, fun u hu => ?_, isValid_map renames_swap t⟩
  · rw [isValid_iff_shaped]
    constructor
    · intro h
      have hcolon : isDelimiter ':' := rfl
      have hat : isDelimiter '@' := rfl
      refine ⟨h.length, h.start, h.stop, ?_, fun line hline => ⟨?_, ?_⟩, ?_⟩
      · simp only [List.forall_mem_cons]
        exact ⟨h.dashes, (h.beside _ hcolon).1, (h.beside _ hcolon).2, (h.beside _ hat).1,
          (h.beside _ hat).2, List.forall_mem_nil _⟩
      · exact (once_iff_lines hcolon).1 (h.once _ hcolon) line hline
      · exact (once_iff_lines hat).1 (h.once _ hat) line hline
      · simpa only [isDelimiter_iff] using h.joint
    · rintro ⟨hlength, hstart, hstop, hpairs, hlines, hjoint⟩
      simp only [List.forall_mem_cons] at hpairs
      obtain ⟨hdashes, hcolon, hcolon', hat, hat', -⟩ := hpairs
      refine ⟨hlength, hstart, hstop, hdashes, fun d hd => ?_, fun d hd => (once_iff_lines hd).2 ?_,
        ?_⟩
      · rcases isDelimiter_iff.1 hd with rfl | rfl
        · exact ⟨hcolon, hcolon'⟩
        · exact ⟨hat, hat'⟩
      · rcases isDelimiter_iff.1 hd with rfl | rfl
        · exact fun line hline => (hlines line hline).1
        · exact fun line hline => (hlines line hline).2
      · simpa only [isDelimiter_iff] using hjoint
  · rw [← isValid_map renames_toLower u, hu, isValid_map renames_toLower t]

/-- An address in the documented form, in other letters and with the other delimiter; two lines with
the same delimiter each; and a dash at the end that the line feed behind it does not hide. -/
theorem isValid_in_other_letters :
    (Conforms "Bob-7@Fio".toList ∧ isValid "Bob-7@Fio".toList) ∧
    (("bOB-7@fIO".toList.map Char.toLower = "Bob-7@Fio".toList.map Char.toLower ∧
      isValid "bOB-7@fIO".toList) ∧ isValid "Bob-7:Fio".toList) ∧
    isValid "a@b\nc@d".toList ∧ ¬isValid "a@b-\n".toList := by
  have halphabet : ∀ c ∈ "Bob-7@Fio".toList, isNameChar c ∨ isDelimiter c := by
    simp [isNameChar, isDelimiter]
  have hconforms : Conforms "Bob-7@Fio".toList :=
    ⟨by decide, halphabet, by decide, ⟨'7', '@', 'F', by decide⟩, by decide⟩
  have hletters : "bOB-7@fIO".toList.map Char.toLower = "Bob-7@Fio".toList.map Char.toLower := by
    decide
  obtain ⟨-, hvalid, hcase, hswap⟩ := isValid_line_by_line "Bob-7@Fio".toList
  have hcolon : "Bob-7:Fio".toList = "Bob-7@Fio".toList.map (Equiv.swap '@' ':') := by decide
  refine ⟨⟨hconforms, hvalid hconforms⟩, ⟨⟨hletters, ?_⟩, ?_⟩, ?_, fun h => ?_⟩
  · rw [hcase _ hletters]
    exact hvalid hconforms
  · rw [hcolon, hswap]
    exact hvalid hconforms
  · refine (isValid_line_by_line _).1.2 ⟨by decide, by decide, by decide, by decide, by decide, ?_⟩
    exact ⟨'a', '@', 'b', by decide⟩
  · exact ((isValid_line_by_line _).1.1 h).2.2.1.2 (by decide)

end Keyring.Address
