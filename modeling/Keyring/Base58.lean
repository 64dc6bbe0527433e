import Keyring.Fault

/-!
# Base58

A byte string and a Base58 text are both numerals, with bytes and with the 58 symbols as digits. A
conversion keeps the leading zeros, one for one, and rewrites the rest to the other base. A text is
refused on account of its leftmost symbol outside the alphabet.
-/

namespace Keyring.Base58

/-- The 58 symbols in the order of their values. -/
def alphabet : Text :=
  "123456789ABCDEFGHJKLMNPQRSTUVWXYZabcdefghijkmnopqrstuvwxyz".toList

/-- The symbol of a digit below 58. -/
def symbol (d : Nat) : Char :=
  alphabet.getD d '1'

/-- The digit of a symbol. -/
def digit? (c : Char) : Option Nat :=
  alphabet.idxOf? c

/-- Rewrite the numeral `ds` from base `src` to base `dst`, leading zeros one for one. -/
def rebase (src dst : Nat) (ds : List Nat) : List Nat :=
  List.replicate (ds.takeWhile (· = 0)).length 0 ++ Radix.digits dst (Radix.value src ds)

/-- A byte string in Base58. -/
def encode (bs : Bytes) : Text :=
  (rebase 256 58 (bs.map UInt8.toNat)).map symbol

/-- The digits of a Base58 text. -/
def digitsOf (t : Text) : Outcome (List Nat) :=
  t.mapM fun c => match digit? c with
    | some d => .ok d
    | none => .error (.alienSymbol c)

/-- Read Base58 text. -/
def decode (t : Text) : Outcome Bytes := do
  let ds ← digitsOf t
  return (rebase 58 256 ds).map UInt8.ofNat

/-- The alphabet names each digit once. -/
theorem digit?_symbol : ∀ d < 58, digit? (symbol d) = some d := by
  decide +kernel

end Keyring.Base58
