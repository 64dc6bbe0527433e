import Keyring.Mnemonic.Basic

/-!
# Backup quiz

A quiz asks for words of a mnemonic by their ordinals, to see whether a written copy exists. The
positions come from a sampler, which draws `k` of `n` positions.
-/

namespace Keyring

/-- The ordinals of the positions in the longest mnemonic. -/
def ordinals : List String :=
  ["first", "second", "third", "fourth", "fifth", "sixth", "seventh", "eighth", "ninth", "tenth",
   "eleventh", "twelfth", "thirteenth", "fourteenth", "fifteenth", "sixteenth", "seventeenth",
   "eighteenth", "nineteenth", "twentieth", "twenty-first", "twenty-second", "twenty-third",
   "twenty-fourth"]

/-- A question for the word at a position. -/
structure Question where
  index : Nat
  description : String
  word : Text
  deriving DecidableEq

namespace Question

/-- Whether an answer is the word, blanks around it ignored. -/
def check (q : Question) (answer : Text) : Bool :=
  answer.trim = q.word

/-- A description that leaves the word out. -/
def describe (q : Question) : Text :=
  "QuizQuestion(index=".toList ++ Text.ofNat q.index ++ ", description=".toList
    ++ Text.quoted q.description.toList ++ [')']

end Question

namespace Mnemonic

/-- The number of questions asked for `count`, which is a third of the words for zero. -/
def questionCount (m : Mnemonic) (count : Int) : Outcome Nat :=
  let n := m.words.length
  let k := if count = 0 then (n / 3 : Int) else count
  if 0 < k ∧ k ≤ n then .ok k.toNat else .error (.quizRange k n)

/-- The question for the word at a position. -/
def question (m : Mnemonic) (i : Fin m.words.length) : Question :=
  ⟨i, ordinals.getD i "", m.words[i]⟩

/-- A quiz on the positions that `sample` draws: it is given the number of words and of questions.
-/
def quiz (m : Mnemonic) (count : Int) (sample : (n k : Nat) → List (Fin n)) :
    Outcome (List Question) := do
  let k ← m.questionCount count
  return (sample m.words.length k).map m.question

/-- Without a number, a third of the words is asked for. -/
theorem questionCount_zero (m : Mnemonic) (h : 3 ≤ m.words.length) :
    m.questionCount 0 = .ok (m.words.length / 3) := by
  have hk : 0 < m.words.length / 3 ∧ m.words.length / 3 ≤ m.words.length := by omega
  simp only [questionCount, if_true]
  rw [if_pos (by omega)]
  rfl

end Mnemonic

end Keyring
