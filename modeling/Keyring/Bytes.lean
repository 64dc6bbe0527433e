import Keyring.Radix

/-!
# Bytes and text

A byte string is a list of bytes and a text a list of Unicode scalar values, so the length of a text
counts code points. `Bytes.toNat` reads a byte string as a big-endian number, `Bytes.ofNat w` writes
the lowest `w` bytes of a number.
-/

namespace Keyring

/-- A byte string. -/
abbrev Bytes := List UInt8

/-- A text, one entry for each code point. -/
abbrev Text := List Char

namespace Bytes

/-- The big-endian number that a byte string spells. -/
def toNat (bs : Bytes) : Nat :=
  Radix.value 256 (bs.map UInt8.toNat)

/-- The lowest `w` bytes of `n`, highest first. -/
def ofNat (w n : Nat) : Bytes :=
  (Radix.fixed 256 w n).map UInt8.ofNat

/-- Combine two byte strings byte by byte with exclusive or. -/
def xor (as bs : Bytes) : Bytes :=
  List.zipWith (· ^^^ ·) as bs

/-- Zero bytes. -/
def zeros (n : Nat) : Bytes :=
  List.replicate n 0

@[simp] theorem length_ofNat (w n : Nat) : (ofNat w n).length = w := by
  simp [ofNat]

end Bytes

/-! ### Cutting a list into blocks -/

/-- Cut `xs` into pieces of `k`, at most `fuel` of them; the last piece may be shorter. -/
def chunksUpTo {α : Type} (k : Nat) : (fuel : Nat) → (xs : List α) → List (List α)
  | 0, _ => []
  | _ + 1, [] => []
  | fuel + 1, x :: xs => (x :: xs).take k :: chunksUpTo k fuel ((x :: xs).drop k)

/-- Cut a list into pieces of `k ≥ 1`; the last piece may be shorter. -/
def chunks {α : Type} (k : Nat) (xs : List α) : List (List α) :=
  chunksUpTo k xs.length xs

/-! ### Words of a text -/

namespace Text

/-- Cut a text at every occurrence of the character `sep`; there is always at least one piece. -/
def splitOn (sep : Char) : Text → List Text
  | [] => [[]]
  | c :: cs =>
    if c = sep then [] :: splitOn sep cs
    else match splitOn sep cs with
      | [] => [[c]]
      | w :: ws => (c :: w) :: ws

/-- The pieces with `sep` between neighbours. -/
def joinWith (sep : Char) : List Text → Text
  | [] => []
  | [w] => w
  | w :: ws => w ++ sep :: joinWith sep ws

theorem splitOn_ne_nil (sep : Char) (t : Text) : splitOn sep t ≠ [] := by
  cases t with
  | nil => simp [splitOn]
  | cons c t =>
    rw [splitOn]
    split
    · simp
    · split <;> simp

theorem joinWith_cons {sep : Char} {w : Text} {ws : List Text} (h : ws ≠ []) :
    joinWith sep (w :: ws) = w ++ sep :: joinWith sep ws := by
  cases ws with
  | nil => exact absurd rfl h
  | cons v vs => rfl

/-- The pieces of a text, joined again, are the text. -/
theorem joinWith_splitOn (sep : Char) (t : Text) : joinWith sep (splitOn sep t) = t := by
  induction t with
  | nil => rfl
  | cons c t ih =>
    rw [splitOn]
    split
    · rename_i h
      rw [joinWith_cons (splitOn_ne_nil sep t), ih, h]
      rfl
    · split
      · rename_i h
        exact absurd h (splitOn_ne_nil sep t)
      · rename_i w ws h
        rw [h] at ih
        cases ws with
        | nil => rw [← ih]; rfl
        | cons v vs => rw [← ih]; rfl

/-- The character of a digit below sixteen, letters in lower case. -/
def digitChar (d : Nat) : Char :=
  if d < 10 then Char.ofNat (48 + d) else Char.ofNat (87 + d)

/-- The shortest numeral of `n` in a base of at most sixteen. -/
def numeral (b n : Nat) : Text :=
  if n = 0 then ['0'] else (Radix.digits b n).map digitChar

/-- The decimal numeral of a natural number. -/
def ofNat (n : Nat) : Text :=
  numeral 10 n

/-- The decimal numeral of an integer, with a minus sign where it is negative. -/
def ofInt : Int → Text
  | .ofNat n => ofNat n
  | .negSucc n => '-' :: ofNat (n + 1)

end Text

end Keyring
