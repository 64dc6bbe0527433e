import Keyring.Text.Blank

/-!
# Base64 text

Three bytes are written as four characters of six bits each; a last group of one or two bytes is
filled up with two or one `=`. Reading wants exactly these fillers, save that any number of them may
follow complete groups, and ignores the bits of the last character that no byte needs.
-/

namespace Keyring.Text.Base64

/-- The 64 symbols in the order of their values. -/
def alphabet : Text :=
  "ABCDEFGHIJKLMNOPQRSTUVWXYZabcdefghijklmnopqrstuvwxyz0123456789+/".toList

/-- The symbol of a value below 64. -/
def symbol (n : Nat) : Char :=
  alphabet.getD n '='

/-- The value of a symbol. -/
def sextet? (c : Char) : Option Nat :=
  alphabet.idxOf? c

/-- A byte string in Base64. -/
def encode : Bytes → Text
  | [] => []
  | [x] =>
    let x := x.toNat
    [symbol (x / 4), symbol (x % 4 * 16), '=', '=']
  | [x, y] =>
    let x := x.toNat
    let y := y.toNat
    [symbol (x / 4), symbol (x % 4 * 16 + y / 16), symbol (y % 16 * 4), '=']
  | x :: y :: z :: bs =>
    let x := x.toNat
    let y := y.toNat
    let z := z.toNat
    symbol (x / 4) :: symbol (x % 4 * 16 + y / 16) :: symbol (y % 16 * 4 + z / 64) ::
      symbol (z % 64) :: encode bs

/-- The bytes that a list of six-bit values holds; bits that fill no byte are dropped. -/
def pack : List Nat → Bytes
  | a :: b :: c :: d :: ds =>
    UInt8.ofNat (a * 4 + b / 16) :: UInt8.ofNat (b % 16 * 16 + c / 4) ::
      UInt8.ofNat (c % 4 * 64 + d) :: pack ds
  | [a, b, c] => [UInt8.ofNat (a * 4 + b / 16), UInt8.ofNat (b % 16 * 16 + c / 4)]
  | [a, b] => [UInt8.ofNat (a * 4 + b / 16)]
  | _ => []

/-- Whether `pads` fillers complete `n` symbols. -/
def padsFit (n pads : Nat) : Bool :=
  match n % 4 with
  | 0 => n != 0 || pads == 0
  | 2 => pads == 2
  | 3 => pads == 1
  | _ => false

/-- Read Base64 text. -/
def decode? (t : Text) : Option Bytes :=
  let body := trimEndBy (· = '=') t
  match body.mapM sextet? with
  | some ds => if padsFit body.length (t.length - body.length) then some (pack ds) else none
  | none => none

/-- The alphabet names each value once. -/
theorem sextet?_symbol : ∀ n < 64, sextet? (symbol n) = some n := by
  decide

end Keyring.Text.Base64
