import Keyring.Text.Pattern

/-!
# Addresses

An address is written `name@domain` or `name:domain`. `isValid` looks at the form alone: at the
length, at what may not occur (a dash at an end, beside a delimiter or beside another dash, a
delimiter twice on a line) and at one place that has to occur, a delimiter between two ASCII
letters, digits or dashes.
-/

namespace Keyring.Address

open Text

/-- The least number of characters. -/
def minLength : Nat := 3

/-- The greatest number of characters. -/
def maxLength : Nat := 64

/-- An ASCII letter, a digit or a dash. -/
def isNameChar (c : Char) : Bool :=
  c.isAlphanum || c = '-'

/-- One of the two delimiters. -/
def isDelimiter (c : Char) : Bool :=
  c = '@' || c = ':'

/-- A dash. -/
def dash : Pattern :=
  .char '-'

/-- What may not occur, as far as one of the delimiters is concerned. -/
def forbidden (delimiter : Char) : Pattern :=
  let d := Pattern.char delimiter
  dash ++ dash ||| d ++ d ||| d ++ .many (· ≠ '\n') ++ d ||| dash ++ d ||| d ++ dash
    ||| .start ++ dash ||| dash ++ .stop

/-- A delimiter between a name and a character of a name. -/
def joint : Pattern :=
  .one isNameChar ++ .many isNameChar ++ .one isDelimiter ++ .one isNameChar

/-- Whether a text has the form of an address. -/
def isValid (t : Text) : Bool :=
  minLength ≤ t.length && t.length ≤ maxLength && !(forbidden ':').occurs t &&
    !(forbidden '@').occurs t && joint.occurs t

end Keyring.Address
