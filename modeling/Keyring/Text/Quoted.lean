import Keyring.Text.Printable

/-!
# Quoted text in messages

A quoted text stands between single quotes, or between double quotes where it holds single quotes
only. The quote in use and the backslash are escaped by a backslash, and so are line feed, carriage
return and tabulator by their letters; other unprintable characters are written by their code in
hexadecimal.
-/

namespace Keyring.Text

/-- The quote to put around a text. -/
def quoteMark (t : Text) : Char :=
  if t.contains '\'' && !t.contains '"' then '"' else '\''

/-- A code point in hexadecimal with the fewest of two, four or eight digits. -/
def codeEscape (n : Nat) : Text :=
  let hex (lead : Char) (w : Nat) : Text := '\\' :: lead :: (Radix.fixed 16 w n).map digitChar
  if n < 0x100 then hex 'x' 2 else if n < 0x10000 then hex 'u' 4 else hex 'U' 8

/-- A character inside quotes `q`. -/
def quotedChar (q c : Char) : Text :=
  if c = q || c = '\\' then ['\\', c]
  else if c = '\n' then ['\\', 'n']
  else if c = '\r' then ['\\', 'r']
  else if c = '\t' then ['\\', 't']
  else if isPrintable c then [c]
  else codeEscape c.toNat

/-- A text in quotes. -/
def quoted (t : Text) : Text :=
  let q := quoteMark t
  q :: t.flatMap (quotedChar q) ++ [q]

end Keyring.Text
