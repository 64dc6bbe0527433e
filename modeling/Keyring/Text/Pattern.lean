import Keyring.Bytes

/-!
# Patterns

A pattern is put together from characters of a class, runs of such characters and conditions on the
place. `Pattern.ends` lists where a match from a place can end; `Pattern.occurs` looks for a place
anywhere in a text from which the pattern matches.
-/

namespace Keyring.Text

/-- A place in a text: whether it is the start, and what follows it. -/
structure Place where
  atStart : Bool
  rest : Text
  deriving DecidableEq, Repr

/-- A pattern. -/
inductive Pattern
  /-- One character of a class. -/
  | one (p : Char → Bool)
  /-- Any number of characters of a class. -/
  | many (p : Char → Bool)
  /-- The start of the text. -/
  | start
  /-- The end of the text, or the place before a line feed that ends it. -/
  | stop
  /-- One pattern after another. -/
  | both (a b : Pattern)
  /-- One pattern or another. -/
  | either (a b : Pattern)

instance : Append Pattern := ⟨.both⟩

instance : OrOp Pattern := ⟨.either⟩

/-- The places that a run of characters of a class leads to, the empty run included. -/
def Place.run (p : Char → Bool) : (atStart : Bool) → Text → List Place
  | b, [] => [⟨b, []⟩]
  | b, c :: t => ⟨b, c :: t⟩ :: if p c then run p false t else []

/-- All places of a text. -/
def Place.all (t : Text) : List Place :=
  run (fun _ => true) true t

namespace Pattern

/-- One given character. -/
def char (c : Char) : Pattern :=
  one (· = c)

/-- The places where a match from a given place can end. -/
def ends : Pattern → Place → List Place
  | one p, s =>
    match s.rest with
    | c :: t => if p c then [⟨false, t⟩] else []
    | [] => []
  | many p, s => Place.run p s.atStart s.rest
  | start, s => if s.atStart then [s] else []
  | stop, s => if s.rest = [] ∨ s.rest = ['\n'] then [s] else []
  | both a b, s => (ends a s).flatMap (ends b)
  | either a b, s => ends a s ++ ends b s

/-- Whether a pattern matches somewhere in a text. -/
def occurs (a : Pattern) (t : Text) : Bool :=
  (Place.all t).any fun s => a.ends s ≠ []

@[simp] theorem ends_both (a b : Pattern) (s : Place) :
    (a ++ b).ends s = (a.ends s).flatMap b.ends :=
  rfl

@[simp] theorem ends_either (a b : Pattern) (s : Place) : (a ||| b).ends s = a.ends s ++ b.ends s :=
  rfl

/-- A pattern occurs if a match can end anywhere. -/
theorem occurs_iff {a : Pattern} {t : Text} : a.occurs t ↔ ∃ s ∈ Place.all t, a.ends s ≠ [] := by
  simp only [occurs, List.any_eq_true, decide_eq_true_eq]

@[simp] theorem occurs_either (a b : Pattern) (t : Text) :
    (a ||| b).occurs t = (a.occurs t || b.occurs t) := by
  rw [Bool.eq_iff_iff, Bool.or_eq_true]
  simp only [occurs_iff, ends_either, ne_eq, List.append_eq_nil_iff,
    Classical.not_and_iff_not_or_not]
  simp only [and_or_left, exists_or]

end Pattern

end Keyring.Text
