import Keyring.Bytes
import Keyring.Text.Blank

/-!
# Decimal digits and integer literals

`zeros` lists the code point of the digit zero of every decimal script; the nine other digits of a
script follow its zero. `Decimal.integer?` reads an integer literal: an optional sign and digits of
any script, single low lines between them allowed, blanks around it ignored. `Decimal.excess?` tells
apart the texts that begin with more digits than a literal may have.
-/

namespace Keyring.Text.Decimal

/-- The digit zero of every decimal script, in ascending order (general category `Nd`). -/
def zeros : List Nat :=
  [0x30, 0x660, 0x6f0, 0x7c0, 0x966, 0x9e6, 0xa66, 0xae6, 0xb66, 0xbe6, 0xc66, 0xce6, 0xd66, 0xde6,
   0xe50, 0xed0, 0xf20, 0x1040, 0x1090, 0x17e0, 0x1810, 0x1946, 0x19d0, 0x1a80, 0x1a90, 0x1b50,
   0x1bb0, 0x1c40, 0x1c50, 0xa620, 0xa8d0, 0xa900, 0xa9d0, 0xa9f0, 0xaa50, 0xabf0, 0xff10, 0x104a0,
   0x10d30, 0x11066, 0x110f0, 0x11136, 0x111d0, 0x112f0, 0x11450, 0x114d0, 0x11650, 0x116c0,
   0x11730, 0x118e0, 0x11950, 0x11c50, 0x11d50, 0x11da0, 0x16a60, 0x16ac0, 0x16b50, 0x1d7ce,
   0x1d7d8, 0x1d7e2, 0x1d7ec, 0x1d7f6, 0x1e140, 0x1e2f0, 0x1e950, 0x1fbf0]

/-- The value of a decimal digit of any script. -/
def digit? (c : Char) : Option Nat :=
  if '0' ≤ c ∧ c ≤ '9' then some (c.toNat - 48)
  else if c.toNat < 128 then none
  else (zeros.find? fun z => z ≤ c.toNat && c.toNat < z + 10).map (c.toNat - ·)

/-- Read the rest of a run of digits, `n` being the number read so far. A low line has to be
followed by a digit. -/
def digitsFrom (n : Nat) : Text → Option Nat
  | [] => some n
  | '_' :: c :: cs =>
    match digit? c with
    | some d => digitsFrom (n * 10 + d) cs
    | none => none
  | c :: cs =>
    match digit? c with
    | some d => digitsFrom (n * 10 + d) cs
    | none => none

/-- Read a run of at least one digit. -/
def natural? : Text → Option Nat
  | [] => none
  | c :: cs => (digit? c).bind (digitsFrom · cs)

/-- Read an optional sign and a run of digits. -/
def signed? : Text → Option Int
  | '-' :: cs => (natural? cs).map fun n => -(n : Int)
  | '+' :: cs => (natural? cs).map fun n => (n : Int)
  | cs => (natural? cs).map fun n => (n : Int)

/-- A blank that an integer literal may be surrounded by: any blank but the four information
separators U+001C to U+001F. -/
def isMargin (c : Char) : Bool :=
  isBlank c && !(0x1c ≤ c.toNat && c.toNat ≤ 0x1f)

/-- Read an integer literal, blanks around it ignored. -/
def integer? (t : Text) : Option Int :=
  signed? (trimBy isMargin t)

/-- The most digits that an integer literal may have. -/
def mostDigits : Nat := 4300

/-- A text without its sign. -/
def unsigned : Text → Text
  | '-' :: t => t
  | '+' :: t => t
  | t => t

/-- The number of digits at the start of a literal if these are too many, whatever follows them. -/
def excess? (t : Text) : Option Nat :=
  let run := (unsigned (trimBy isMargin t)).takeWhile fun c => c = '_' || (digit? c).isSome
  let n := (run.filter (· ≠ '_')).length
  if mostDigits < n && !(run.splitOn '_').contains [] then some n else none

end Keyring.Text.Decimal
