/-!
# Positional numerals

`value b ds` reads a list of digits, highest first, in base `b`; `digits b n` writes a number with
the fewest digits, none of them for zero; `fixed w b n` writes the lowest `w` digits.
-/

namespace Keyring.Radix

/-- The number that the digits `ds`, highest first, denote in base `b`. -/
def value (b : Nat) (ds : List Nat) : Nat :=
  ds.foldl (fun n d => n * b + d) 0

/-- Put the digits of `n` in front of `tail`; `fuel` bounds their number. -/
def digitsOnto (b : Nat) : (fuel n : Nat) → (tail : List Nat) → List Nat
  | 0, _, tail => tail
  | fuel + 1, n, tail => if n = 0 then tail else digitsOnto b fuel (n / b) (n % b :: tail)

/-- The digits of `n` in base `b ≥ 2`, highest first and without leading zeros. -/
def digits (b n : Nat) : List Nat :=
  digitsOnto b (n.log2 + 1) n []

/-- The lowest `w` digits of `n` in base `b`, highest first. -/
def fixed (b : Nat) : (w n : Nat) → List Nat
  | 0, _ => []
  | w + 1, n => fixed b w (n / b) ++ [n % b]

@[simp] theorem value_nil (b : Nat) : value b [] = 0 := rfl

@[simp] theorem length_fixed (b w n : Nat) : (fixed b w n).length = w := by
  induction w generalizing n with
  | zero => rfl
  | succ w ih => simp [fixed, ih]

end Keyring.Radix
