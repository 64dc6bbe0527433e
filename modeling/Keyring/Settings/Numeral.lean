import Keyring.Document.Checked
import Keyring.Text.Decimal

/-!
# Integers as text

A numeral is an optional minus sign and ASCII digits without a zero in front. `tidy?` brings other
texts into this form: blanks around them, a plus sign, zeros in front, a point with zeros at the end
and single low lines between digits are taken away. Zeros may even stand in front of the minus sign,
and low lines among the zeros in front.
-/

namespace Keyring.Setting

/-! ### Numerals -/

/-- The most characters that a numeral may have, its sign included. -/
def mostLength : Nat := 4300

/-- Read the digits of a numeral. The size is judged by the digits at the start, whatever follows.
-/
def ofDigits (negative : Bool) (t : Text) : Except Defect Int :=
  let ds := t.takeWhile Char.isDigit
  if ds.head? = some '0' && t ≠ ['0'] then .error .integerText
  else if mostLength < negative.toNat + ds.length then .error .integerSize
  else if ds = [] || ds ≠ t then .error .integerText
  else
    let n : Int := Radix.value 10 (ds.map fun c => c.toNat - 48)
    .ok (if negative then -n else n)

/-- Read a numeral. -/
def numeral : Text → Except Defect Int
  | '-' :: t => ofDigits true t
  | t => ofDigits false t

/-! ### Looser texts -/

/-- What follows the zeros in front, among which low lines may stand. The last of them, `last`, is
kept before a point and at the end of the text. -/
def afterZeros (last : Char) : Text → Option Text
  | [] => some [last]
  | '.' :: t => some (last :: '.' :: t)
  | c :: t =>
    if c = '0' || c = '_' then afterZeros c t
    else if c = '-' || c.isDigit then some (c :: t)
    else none

/-- A text without the zeros in front, if it starts with a digit or a minus sign. -/
def withoutZeros : Text → Option Text
  | [] => none
  | c :: t =>
    if c = '0' then afterZeros c t
    else if c = '-' || c.isDigit then some (c :: t)
    else none

/-- A text without a point and zeros, at least one, at its end. -/
def withoutFraction (t : Text) : Text :=
  let whole := t.takeWhile (· ≠ '.')
  match t.drop whole.length with
  | '.' :: '0' :: zeros => if zeros.all (· = '0') then whole else t
  | _ => t

/-- A text without its low lines, if each of them stands between two other characters. -/
def withoutLines (t : Text) : Text :=
  let pieces := t.splitOn '_'
  if pieces.contains [] then t else pieces.flatten

/-- The numeral that an unsigned text is brought into. -/
def tidyUnsigned? (t : Text) : Option Text :=
  (withoutZeros t).map fun t => withoutLines (withoutFraction t)

/-- The numeral that a text is brought into. -/
def tidy? (t : Text) : Option Text :=
  match Text.trimBy Text.Decimal.isMargin t with
  | '-' :: t => (tidyUnsigned? t).map ('-' :: ·)
  | '+' :: '-' :: _ => none
  | '+' :: t => tidyUnsigned? t
  | t => tidyUnsigned? t

/-- Read an integer from text. -/
def ofText (t : Text) : Except Defect Int :=
  match tidy? t with
  | some t => numeral t
  | none => .error .integerText

end Keyring.Setting
