import Keyring.Mnemonic.Quiz
import Keyring.Proofs.Mnemonic.Phrase

/-!
# A quiz can be answered

A quiz asks for the words at positions that a sampler draws. It is refused for a number of questions
out of range only, and no position has to be looked up that has no word or no ordinal. No entry of a
mnemonic has blanks at its ends, so the word that is asked for is an answer, with any blanks around
it, and there are no others.
-/

namespace Keyring.Mnemonic

/-- A sampler draws `k` different positions of `n` where there are so many. -/
def Draws (sample : (n k : ℕ) → List (Fin n)) : Prop :=
  ∀ n k, k ≤ n → (sample n k).length = k ∧ (sample n k).Nodup

/-! ### The number of questions -/

section Count

variable (m : Mnemonic) {count : ℤ}

theorem length_words : 12 ≤ m.words.length ∧ m.words.length ≤ 24 := by
  have hcounts : ∀ n ∈ wordCounts, 12 ≤ n ∧ n ≤ 24 := by decide
  exact hcounts _ (isPhrase_of_sound m.sound).1

/-- The number of questions that `count` stands for. -/
def asked (count : ℤ) : ℕ :=
  if count = 0 then m.words.length / 3 else count.toNat

variable {m}

theorem questionCount_eq_ok (h : 0 ≤ count ∧ count ≤ m.words.length) :
    m.questionCount count = .ok (m.asked count) := by
  have hlen := m.length_words
  by_cases hzero : count = 0
  · subst hzero
    exact questionCount_zero m (by omega)
  · simp only [questionCount, asked, if_neg hzero]
    rw [if_pos (by omega)]

/-- Numbers of questions that are refused. -/
theorem questionCount_eq_error (h : ¬(0 ≤ count ∧ count ≤ m.words.length)) :
    m.questionCount count = .error (.quizRange count m.words.length) := by
  have hzero : count ≠ 0 := by omega
  simp only [questionCount, if_neg hzero]
  rw [if_neg (by omega)]

theorem asked_le (h : 0 ≤ count ∧ count ≤ m.words.length) : m.asked count ≤ m.words.length := by
  unfold asked
  split_ifs <;> omega

end Count

/-! ### A question -/

section Question

variable {m : Mnemonic} (i : Fin m.words.length)

theorem map_index_question (positions : List (Fin m.words.length)) :
    (positions.map m.question).map (·.index) = positions.map Fin.val :=
  List.map_map

theorem ordinal_question : ordinals[(i : ℕ)]? = some (m.question i).description := by
  have hlen : (i : ℕ) < ordinals.length := i.isLt.trans_le m.length_words.2
  rw [question, List.getD_eq_getElem?_getD, List.getElem?_eq_getElem hlen]
  rfl

/-- The answer is the word that is asked for, with any blanks around it. -/
theorem check_iff (answer : Text) : (m.question i).check answer ↔ answer.trim = m.words.get i := by
  rw [Question.check, decide_eq_true_iff]
  rfl

/-- The word is accepted with any blanks around it, and nothing else is. -/
theorem check_iff_surrounded (answer : Text) : (m.question i).check answer ↔
    ∃ pre post, (∀ c ∈ pre, Text.isBlank c) ∧ (∀ c ∈ post, Text.isBlank c) ∧
      answer = pre ++ m.words.get i ++ post := by
  -- An entry need not be a listed word itself, so its ends are looked at in the words that it
  -- decomposes into.
  obtain ⟨hfirst, hlast⟩ := ends_of_mem_words (List.get_mem m.words i)
  rw [check_iff]
  exact Text.trimBy_eq_iff hfirst hlast

end Question

/-! ### A quiz -/

section Quiz

variable {m : Mnemonic} {count : ℤ} {sample : (n k : ℕ) → List (Fin n)}

theorem quiz_eq_ok (h : 0 ≤ count ∧ count ≤ m.words.length) :
    m.quiz count sample = .ok ((sample m.words.length (m.asked count)).map m.question) := by
  rw [quiz, questionCount_eq_ok h]
  rfl

/-- A quiz is refused for a number of questions out of range only. -/
theorem quiz_eq_error {f : Fault} : m.quiz count sample = .error f ↔
    ¬(0 ≤ count ∧ count ≤ m.words.length) ∧ f = .quizRange count m.words.length := by
  by_cases h : 0 ≤ count ∧ count ≤ m.words.length
  · rw [quiz_eq_ok h]
    exact ⟨nofun, fun hrange => absurd h hrange.1⟩
  · have hquiz : m.quiz count sample = .error (.quizRange count m.words.length) := by
      rw [quiz, questionCount_eq_error h]
      rfl
    rw [hquiz, Except.error.injEq]
    exact ⟨fun heq => ⟨h, heq.symm⟩, fun hrange => hrange.2.symm⟩

end Quiz

/-- A quiz is refused exactly for a number of questions that is negative or above the number of
words. Otherwise it has the questions that were asked for, a third of the words where no number was
given, and all of them are for different positions. Each has the ordinal of its position, and it
takes an answer exactly if this is the word there with any blanks around it. -/
theorem quiz_asks_each_word_once (m : Mnemonic) (count : ℤ) {sample : (n k : ℕ) → List (Fin n)}
    (hsample : Draws sample) :
    (∀ f, m.quiz count sample = .error f ↔
      (count < 0 ∨ m.words.length < count) ∧ f = .quizRange count m.words.length ∧
        f.family = .quizCount) ∧
    (0 ≤ count → count ≤ m.words.length → ∃ questions, m.quiz count sample = .ok questions ∧
      (count ≠ 0 → questions.length = count) ∧
      (count = 0 → questions.length = m.words.length / 3 ∧ 4 ≤ questions.length) ∧
      (questions.map (·.index)).Nodup ∧
      ∀ q ∈ questions, ordinals[q.index]? = some q.description ∧
        ∃ word, m.words[q.index]? = some word ∧
        (∀ answer, q.check answer ↔ answer.trim = word) ∧
        ∀ answer, q.check answer ↔
          ∃ pre post, (∀ c ∈ pre, Text.isBlank c) ∧ (∀ c ∈ post, Text.isBlank c) ∧
          answer = pre ++ word ++ post) := by
  refine ⟨fun f => ?_, fun hnonneg hle => ?_⟩
  · rw [quiz_eq_error, not_and_or, Int.not_le, Int.not_le, and_congr_right_iff]
    exact fun _ => ⟨fun hf => ⟨hf, hf ▸ rfl⟩, And.left⟩
  · obtain ⟨hlength, hnodup⟩ := hsample _ _ (asked_le ⟨hnonneg, hle⟩)
    have hcount : ((sample m.words.length (m.asked count)).map m.question).length =
        m.asked count := by
      rw [List.length_map, hlength]
    refine ⟨_, quiz_eq_ok ⟨hnonneg, hle⟩, fun hne => ?_, fun hzero => ?_, ?_, ?_⟩
    · rw [hcount, asked, if_neg hne, Int.toNat_of_nonneg hnonneg]
    · have hthird : 4 ≤ m.words.length / 3 := (Nat.le_div_iff_mul_le (by decide)).2 m.length_words.1
      rw [hcount, asked, if_pos hzero]
      exact ⟨rfl, hthird⟩
    · rw [map_index_question]
      exact List.Pairwise.map _ (fun _ _ => mt Fin.val_inj.1) hnodup
    · intro q hq
      obtain ⟨i, -, rfl⟩ := List.mem_map.1 hq
      exact ⟨ordinal_question i, m.words.get i, List.getElem?_eq_getElem i.isLt,
        fun answer => check_iff i answer, fun answer => check_iff_surrounded i answer⟩

/-- The sampler that draws the first positions. -/
def firstPositions (n k : ℕ) : List (Fin n) :=
  (List.finRange n).take k

theorem draws_firstPositions : Draws firstPositions := by
  intro n k h
  constructor
  · rw [firstPositions, List.length_take, List.length_finRange, Nat.min_eq_left h]
  · exact (List.nodup_finRange n).sublist (List.take_sublist k _)

/-- A mnemonic whose first entries are two words with a blank between them. Its quiz has four
questions, each of which takes its entry with blanks around it; the question for the first position
takes no single word. One question too many is refused. -/
theorem quiz_of_pairedEntries :
    ∃ m : Mnemonic, m.words = pairedEntries '\u00a0' ∧ Draws firstPositions ∧
    (∀ count : ℤ, count = -1 ∨ count = 13 →
      m.quiz count firstPositions = .error (.quizRange count 12)) ∧
    ∃ questions, m.quiz 0 firstPositions = .ok questions ∧ questions.map (·.index) = [0, 1, 2, 3] ∧
      (∀ q ∈ questions, ∃ word, m.words[q.index]? = some word ∧
        q.check ('\t' :: word ++ ['\u3000', '\n'])) ∧
      ∃ q ∈ questions, q.index = 0 ∧ ¬q.check "abandon".toList := by
  have hsound : fault? (pairedEntries '\u00a0') = none := by decide +kernel
  obtain ⟨m, hwords⟩ : ∃ m : Mnemonic, m.words = pairedEntries '\u00a0' := ⟨⟨_, hsound⟩, rfl⟩
  have hlen : m.words.length = 12 := hwords ▸ rfl
  refine ⟨m, hwords, draws_firstPositions, fun count hcount => ?_, ?_⟩
  · rw [← hlen]
    refine ((quiz_asks_each_word_once m count draws_firstPositions).1 _).2 ⟨?_, rfl, rfl⟩
    omega
  · obtain ⟨questions, hquiz, -, -, -, hquestions⟩ :=
      (quiz_asks_each_word_once m 0 draws_firstPositions).2 (by omega) (by omega)
    have hindex : questions.map (·.index) = [0, 1, 2, 3] := by
      rw [quiz_eq_ok (by omega), Except.ok.injEq] at hquiz
      rw [← hquiz, map_index_question, asked, if_pos rfl, hlen]
      rfl
    refine ⟨questions, hquiz, hindex, fun q hq => ?_, ?_⟩
    · obtain ⟨-, word, hword, -, hsurrounded⟩ := hquestions q hq
      have hblank : ['\t'].all Text.isBlank ∧ ['\u3000', '\n'].all Text.isBlank := by decide
      exact ⟨word, hword, (hsurrounded _).2 ⟨['\t'], ['\u3000', '\n'], List.all_eq_true.1 hblank.1,
        List.all_eq_true.1 hblank.2, rfl⟩⟩
    · obtain ⟨q, hq, hzero⟩ : ∃ q ∈ questions, q.index = 0 :=
        List.mem_map.1 (hindex ▸ List.mem_cons_self)
      obtain ⟨-, word, hword, hchecked, -⟩ := hquestions q hq
      refine ⟨q, hq, hzero, fun h => ?_⟩
      rw [hzero, hwords, ← (hchecked _).1 h] at hword
      exact absurd hword (by decide)

end Keyring.Mnemonic
