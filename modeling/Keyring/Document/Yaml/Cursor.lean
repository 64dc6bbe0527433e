import Keyring.Document.Yaml.Plain

/-!
# Reading positions in a YAML document

A `Cursor` is the rest of a document with the column of its first character. It is fresh as long as
only blanks lie between the start of the line and it. `Cursor.skip` passes over blanks, comments and
line ends.
-/

namespace Keyring.Yaml

/-- A character that ends a line. -/
def isBreak (c : Char) : Bool :=
  c = '\n' || c = '\r' || c = '\u0085' || c = '\u2028' || c = '\u2029'

/-- A character that a document may hold. -/
def isAllowed (c : Char) : Bool :=
  let n := c.toNat
  n = 0x09 || n = 0x0a || n = 0x0d || (0x20 ≤ n && n ≤ 0x7e) || n = 0x85 || (0xa0 ≤ n && n ≤ 0xfffd)
    || 0x10000 ≤ n

/-- Whether nothing, a blank, a tabulator or a line end comes next. -/
def atGap : Text → Bool
  | [] => true
  | c :: _ => c = ' ' || c = '\t' || isBreak c

/-- A position in a document. -/
structure Cursor where
  rest : Text
  column : Nat
  fresh : Bool

namespace Cursor

/-- The position `n` characters further on, past content. -/
def advance (c : Cursor) (n : Nat) : Cursor :=
  ⟨c.rest.drop n, c.column + n, false⟩

/-- Pass over blanks, line ends and comments. -/
def skipText : (comment : Bool) → Text → (column : Nat) → (fresh : Bool) → Cursor
  | _, [], column, fresh => ⟨[], column, fresh⟩
  | comment, c :: t, column, fresh =>
    if isBreak c then skipText false t 0 true
    else if comment then skipText true t (column + 1) fresh
    else if c = ' ' then skipText false t (column + 1) fresh
    else if c = '#' then skipText true t (column + 1) fresh
    else ⟨c :: t, column, fresh⟩

/-- The position of the next content. -/
def skip (c : Cursor) : Cursor :=
  skipText false c.rest c.column c.fresh

/-- The position after the blanks of the same line. -/
def skipBlanks (c : Cursor) : Cursor :=
  let n := (c.rest.takeWhile (· = ' ')).length
  ⟨c.rest.drop n, c.column + n, c.fresh⟩

/-- Whether the three characters of a marker stand at the start of a line. -/
def atMarkerOf (mark : Text) (c : Cursor) : Bool :=
  c.column = 0 && mark.isPrefixOf c.rest && atGap (c.rest.drop 3)

/-- Whether a document begins here. -/
def atStart (c : Cursor) : Bool :=
  c.atMarkerOf ['-', '-', '-']

/-- Whether a document ends here. -/
def atStop (c : Cursor) : Bool :=
  c.atMarkerOf ['.', '.', '.']

/-- Whether no more content of this document follows. -/
def atEnd (c : Cursor) : Bool :=
  c.rest = [] || c.atStart || c.atStop

/-- Whether the indicator `i`, followed by a gap, comes next. -/
def atIndicator (i : Char) (c : Cursor) : Bool :=
  match c.rest with
  | d :: t => d = i && atGap t
  | [] => false

end Cursor

end Keyring.Yaml
