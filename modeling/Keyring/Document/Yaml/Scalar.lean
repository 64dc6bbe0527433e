import Keyring.Document.Yaml.Cursor

/-!
# Scalars of YAML documents

A scalar is plain or stands between single or double quotes, and may go over several lines: a single
line end counts as a blank and further ones as themselves. In double quotes the backslash escapes.
-/

namespace Keyring.Yaml

/-- What a run of line ends inside a scalar stands for. -/
def foldBreaks : Text → Text
  | [] => []
  | [b] => if b = '\u2028' || b = '\u2029' then [b] else [' ']
  | b :: bs => if b = '\u2028' || b = '\u2029' then b :: bs else bs

/-- A line end as it counts inside a scalar. -/
def lineEnd (c : Char) : Char :=
  if c = '\u2028' || c = '\u2029' then c else '\n'

/-! ### Quoted scalars -/

/-- The character that a letter after a backslash stands for. -/
def shortEscape? : Char → Option Char
  | '0' => some '\x00'
  | 'a' => some '\x07'
  | 'b' => some '\x08'
  | 't' => some '\t'
  | '\t' => some '\t'
  | 'n' => some '\n'
  | 'v' => some '\x0b'
  | 'f' => some '\x0c'
  | 'r' => some '\r'
  | 'e' => some '\x1b'
  | ' ' => some ' '
  | '"' => some '"'
  | '\\' => some '\\'
  | '/' => some '/'
  | 'N' => some '\u0085'
  | '_' => some '\u00a0'
  | 'L' => some '\u2028'
  | 'P' => some '\u2029'
  | _ => none

/-- The number of hexadecimal digits after the letter of an escape by code. -/
def codeWidth? : Char → Option Nat
  | 'x' => some 2
  | 'u' => some 4
  | 'U' => some 8
  | _ => none

/-- The character of a code in hexadecimal digits. -/
def codeChar (ds : Text) (w : Nat) : Except Fault Char :=
  match ds.mapM Text.Hex.digit? with
  | some ns =>
    let n := Radix.value 16 ns
    if ns.length ≠ w then .error .malformed
    else if n.isValidChar then .ok (Char.ofNat n)
    else if n < 0x110000 then .error .malformed
    else .error .impossible
  | none => .error .malformed

/-- Put what was read in front of the rest of a scalar. -/
def prepend (t : Text) (r : Except Fault (Text × Text)) : Except Fault (Text × Text) :=
  r.map fun s => (t ++ s.1, s.2)

/-- Read blanks and line ends: the text that they stand for and the rest. -/
def spaces (t : Text) : Except Fault (Text × Text) :=
  let isSpace (c : Char) : Bool := c = ' ' || c = '\t'
  let blanks := t.takeWhile isSpace
  let after := t.drop blanks.length
  match after with
  | [] => .error .malformed
  | c :: _ =>
    if isBreak c then
      let gap := after.takeWhile fun c => isSpace c || isBreak c
      let rest := after.drop gap.length
      let breaks := (gap.filter isBreak).map lineEnd
      let atLineStart := gap.getLast?.any isBreak
      if atLineStart && (Cursor.atStart ⟨rest, 0, true⟩ || Cursor.atStop ⟨rest, 0, true⟩) then
        .error .malformed
      else .ok (foldBreaks breaks, rest)
    else .ok (blanks, after)

/-- Read the rest of a scalar in the given quotes and the closing quote; `fuel` bounds its length.
-/
def quotedBody (double : Bool) : (fuel : Nat) → Text → Except Fault (Text × Text)
  | 0, _ => .error .malformed
  | fuel + 1, t =>
    match t with
    | [] => .error .malformed
    | c :: t =>
      if c = ' ' || c = '\t' || isBreak c then do
        let (s, rest) ← spaces (c :: t)
        prepend s (quotedBody double fuel rest)
      else if double then
        if c = '"' then .ok ([], t)
        else if c = '\\' then
          match t with
          | [] => .error .malformed
          | e :: t =>
            match shortEscape? e, codeWidth? e with
            | some d, _ => prepend [d] (quotedBody double fuel t)
            | none, some w => do
              let d ← codeChar (t.take w) w
              prepend [d] (quotedBody double fuel (t.drop w))
            | none, none =>
              if isBreak e then do
                let gap := t.takeWhile fun c => c = ' ' || c = '\t' || isBreak c
                let breaks := (gap.filter isBreak).map lineEnd
                prepend breaks (quotedBody double fuel (t.drop gap.length))
              else .error .malformed
        else prepend [c] (quotedBody double fuel t)
      else if c = '\'' then
        match t with
        | '\'' :: t => prepend ['\''] (quotedBody double fuel t)
        | _ => .ok ([], t)
      else prepend [c] (quotedBody double fuel t)

/-- Read a scalar in quotes from its opening quote on. -/
def quoted (c : Cursor) : Except Fault (Text × Cursor) := do
  let (s, rest) ← quotedBody (c.rest.head? = some '"') (c.rest.length + 1) (c.rest.drop 1)
  return (s, ⟨rest, c.column + (c.rest.length - rest.length), false⟩)

/-! ### Plain scalars -/

/-- An indicator that ends or separates parts of a flow collection. -/
def isFlowIndicator (c : Char) : Bool :=
  c = ',' || c = '[' || c = ']' || c = '{' || c = '}'

/-- Whether a plain scalar can begin here. -/
def startsPlain (flow : Bool) : Text → Bool
  | [] => false
  | c :: t =>
    if c = '-' || (!flow && (c = '?' || c = ':')) then !atGap t
    else !(atGap (c :: t) || isFlowIndicator c || "?:#&*!|>'\"%@\x60".toList.contains c)

/-- The characters of a plain scalar up to a gap or an indicator that ends it. -/
def plainChunk (flow : Bool) : Text → Text
  | [] => []
  | c :: t =>
    let ends := atGap (c :: t)
      || (c = ':' && (atGap t || (flow && t.head?.any isFlowIndicator)))
      || (flow && (isFlowIndicator c || c = '?'))
    if ends then [] else c :: plainChunk flow t

/-- Read a plain scalar on a single line. -/
def plainLine (flow : Bool) : (fuel : Nat) → (before : Text) → Cursor → Text × Cursor
  | 0, _, c => ([], c)
  | fuel + 1, before, c =>
    let chunk := plainChunk flow c.rest
    if chunk = [] || c.rest.head? = some '#' then ([], c)
    else
      let after := c.advance chunk.length
      let next := after.skipBlanks
      let blanks := after.rest.take (next.column - after.column)
      if blanks = [] then (before ++ chunk, after)
      else
        let (more, stop) := plainLine flow fuel blanks next
        (before ++ chunk ++ more, stop)

/-- Where a plain scalar may go on after a line end: the text that the line ends stand for, and the
position. -/
def plainGap (c : Cursor) : Option (Text × Cursor) :=
  match c.rest with
  | b :: _ =>
    if isBreak b then
      let gap := c.rest.takeWhile fun c => c = ' ' || isBreak c
      let column := (gap.reverse.takeWhile (· = ' ')).length
      let next : Cursor := ⟨c.rest.drop gap.length, column, true⟩
      if next.atStart || next.atStop then none
      else some (foldBreaks ((gap.filter isBreak).map lineEnd), next)
    else none
  | [] => none

/-- Read a plain scalar over as many lines as reach the column `least`. -/
def plainLines (flow : Bool) (least : Nat) : (fuel : Nat) → Cursor → Text × Cursor
  | 0, c => ([], c)
  | fuel + 1, c =>
    let (line, stop) := plainLine flow (c.rest.length + 1) [] c
    match plainGap stop with
    | none => (line, stop)
    | some (gap, next) =>
      if !flow && next.column < least || next.rest.head? = some '#' ||
          plainChunk flow next.rest = [] then
        (line, next)
      else
        let (more, stop) := plainLines flow least fuel next
        (line ++ gap ++ more, stop)

end Keyring.Yaml
