import Keyring.Document.Value
import Keyring.Text.Decimal
import Keyring.Text.Hex

/-!
# JSON

`Json.read?` reads a document strictly: no commas at the end, no control characters in strings, no
lone surrogates, no zeros in front of a number, no integer with more digits than a literal may have.
It knows the numbers `NaN`, `Infinity` and `-Infinity` besides, and the last of equal keys wins.
`Json.object` writes an object with text values compactly and escapes no more than it has to.

Lists and objects may be nested to any depth. A reader that recurses on a stack refuses a document
that is nested too deeply, even where a later key makes up for it; here such a document is read.
-/

namespace Keyring.Json

/-! ### Reading -/

/-- White space between tokens. -/
def isSpace (c : Char) : Bool :=
  c = ' ' || c = '\t' || c = '\n' || c = '\r'

/-- A text without white space at its start. -/
def skip (t : Text) : Text :=
  t.dropWhile isSpace

/-- The number of four hexadecimal digits. -/
def hex4? (a b c d : Char) : Option Nat := do
  let digit := Text.Hex.digit?
  return Radix.value 16 [← digit a, ← digit b, ← digit c, ← digit d]

/-- The character that a letter after a backslash stands for. -/
def shortEscape? : Char → Option Char
  | '"' => some '"'
  | '\\' => some '\\'
  | '/' => some '/'
  | 'b' => some '\x08'
  | 'f' => some '\x0c'
  | 'n' => some '\n'
  | 'r' => some '\r'
  | 't' => some '\t'
  | _ => none

/-- Put a character in front of what was read. -/
def consRead (c : Char) : Option (Text × Text) → Option (Text × Text)
  | some (s, rest) => some (c :: s, rest)
  | none => none

/-- Read the rest of a string and its closing quote. `high` is a high surrogate that has to be
completed by the next escape. -/
def body : (high : Option Nat) → Text → Option (Text × Text)
  | none, '"' :: t => some ([], t)
  | high, '\\' :: 'u' :: a :: b :: c :: d :: t =>
    match hex4? a b c d with
    | none => none
    | some n =>
      let isHigh := 0xd800 ≤ n && n < 0xdc00
      let isLow := 0xdc00 ≤ n && n < 0xe000
      match high with
      | none =>
        if isHigh then body (some n) t
        else if isLow then none
        else consRead (Char.ofNat n) (body none t)
      | some h =>
        if isLow then consRead (Char.ofNat (0x10000 + (h - 0xd800) * 0x400 + (n - 0xdc00)))
          (body none t)
        else none
  | none, '\\' :: c :: t =>
    match shortEscape? c with
    | some d => consRead d (body none t)
    | none => none
  | none, c :: t => if c.toNat < 0x20 || c = '\\' then none else consRead c (body none t)
  | _, _ => none

/-- An optional fraction: its digits and the rest. -/
def fraction? : Text → Option (Option Text × Text)
  | '.' :: t =>
    let ds := t.takeWhile Char.isDigit
    if ds = [] then none else some (some ds, t.drop ds.length)
  | t => some (none, t)

/-- The digits of an exponent and the rest, with the sign given. -/
def exponentDigits? (negative : Bool) (t : Text) : Option (Option Int × Text) :=
  let ds := t.takeWhile Char.isDigit
  let n := Radix.value 10 (ds.map fun c => c.toNat - 48)
  if ds = [] then none else some (some (if negative then -(n : Int) else n), t.drop ds.length)

/-- An optional exponent and the rest. -/
def exponent? : Text → Option (Option Int × Text)
  | c :: t =>
    if c = 'e' || c = 'E' then
      match t with
      | '-' :: t => exponentDigits? true t
      | '+' :: t => exponentDigits? false t
      | t => exponentDigits? false t
    else some (none, c :: t)
  | [] => some (none, [])

/-- Read a number after its sign. A fraction or an exponent makes it a floating point number. -/
def unsigned? (negative : Bool) (t : Text) : Option (Scalar × Text) := do
  let ds := t.takeWhile Char.isDigit
  if ds = [] || (ds.head? = some '0' && ds.length ≠ 1) then failure
  let (frac, t) ← fraction? (t.drop ds.length)
  let (exp, t) ← exponent? t
  let number (ds : Text) : Nat := Radix.value 10 (ds.map fun c => c.toNat - 48)
  match frac, exp with
  | none, none =>
    if Text.Decimal.mostDigits < ds.length then failure
    let n : Int := number ds
    return (.int (if negative then -n else n), t)
  | _, _ =>
    let frac := frac.getD []
    return (.float (.ofDecimal negative (number (ds ++ frac)) (exp.getD 0 - frac.length)), t)

/-- The values that are written as words. -/
def words : List (Text × Scalar) :=
  [("null".toList, .null), ("true".toList, .bool true), ("false".toList, .bool false),
   ("NaN".toList, .float .nan), ("Infinity".toList, .float (.infinite false)),
   ("-Infinity".toList, .float (.infinite true))]

/-- Read a word or a number. -/
def atom? (t : Text) : Option (Scalar × Text) :=
  match words.find? (·.1.isPrefixOf t) with
  | some (w, s) => some (s, t.drop w.length)
  | none => match t with
    | '-' :: t => unsigned? true t
    | t => unsigned? false t

mutual

/-- Read a value. -/
def value? : (fuel : Nat) → Text → Option (Value × Text)
  | 0, _ => none
  | fuel + 1, t =>
    match skip t with
    | '{' :: t =>
      match skip t with
      | '}' :: t => some (.map [], t)
      | t => (members? fuel t).map fun r => (.map (Entries.ofList r.1), r.2)
    | '[' :: t =>
      match skip t with
      | ']' :: t => some (.list [], t)
      | t => (elements? fuel t).map fun r => (.list r.1, r.2)
    | '"' :: t => (body none t).map fun r => (.text r.1, r.2)
    | t => (atom? t).map fun r => (.scalar r.1, r.2)

/-- Read the elements of a list and its closing bracket. -/
def elements? : (fuel : Nat) → Text → Option (List Value × Text)
  | 0, _ => none
  | fuel + 1, t =>
    (value? fuel t).bind fun (v, t) =>
      match skip t with
      | ']' :: t => some ([v], t)
      | ',' :: t => (elements? fuel t).map fun r => (v :: r.1, r.2)
      | _ => none

/-- Read the members of an object and its closing brace. -/
def members? : (fuel : Nat) → Text → Option (Entries × Text)
  | 0, _ => none
  | fuel + 1, t =>
    match skip t with
    | '"' :: t =>
      (body none t).bind fun (key, t) =>
        match skip t with
        | ':' :: t =>
          (value? fuel t).bind fun (v, t) =>
            match skip t with
            | '}' :: t => some ([(.text key, v)], t)
            | ',' :: t => (members? fuel t).map fun r => ((.text key, v) :: r.1, r.2)
            | _ => none
        | _ => none
    | _ => none

end

/-- Read a document. -/
def read? (t : Text) : Option Value :=
  match value? (2 * t.length + 1) t with
  | some (v, rest) => if skip rest = [] then some v else none
  | none => none

/-! ### Writing -/

/-- A character inside a string. -/
def escape (c : Char) : Text :=
  if c = '"' then ['\\', '"']
  else if c = '\\' then ['\\', '\\']
  else if c = '\x08' then ['\\', 'b']
  else if c = '\t' then ['\\', 't']
  else if c = '\n' then ['\\', 'n']
  else if c = '\x0c' then ['\\', 'f']
  else if c = '\r' then ['\\', 'r']
  else if c.toNat < 0x20 then '\\' :: 'u' :: (Radix.fixed 16 4 c.toNat).map Text.digitChar
  else [c]

/-- A text as a string. -/
def string (t : Text) : Text :=
  '"' :: t.flatMap escape ++ ['"']

/-- A member of an object. -/
def member (m : Text × Text) : Text :=
  string m.1 ++ ':' :: string m.2

/-- An object with text values. -/
def object (members : List (Text × Text)) : Text :=
  '{' :: Text.joinWith ',' (members.map member) ++ ['}']

/-! ### Reading what was written -/

theorem body_escape_control (n : Nat) (h : n < 0x20) (t : Text) :
    body none (escape (Char.ofNat n) ++ t) = consRead (Char.ofNat n) (body none t) := by
  match n, h with
  | 0, _ | 1, _ | 2, _ | 3, _ | 4, _ | 5, _ | 6, _ | 7, _ | 8, _ | 9, _ | 10, _ | 11, _ | 12, _
  | 13, _ | 14, _ | 15, _ | 16, _ | 17, _ | 18, _ | 19, _ | 20, _ | 21, _ | 22, _ | 23, _ | 24, _
  | 25, _ | 26, _ | 27, _ | 28, _ | 29, _ | 30, _ | 31, _ => rfl
  | n + 32, h => exact absurd h (by omega)

theorem escape_plain {c : Char} (h : ¬c.toNat < 0x20) (hq : c ≠ '"') (hb : c ≠ '\\') :
    escape c = [c] := by
  have hne : ∀ d : Char, d.toNat < 0x20 → c ≠ d := by
    rintro d hd rfl
    exact h hd
  simp [escape, h, hq, hb, hne '\x08' (by decide), hne '\t' (by decide), hne '\n' (by decide),
    hne '\x0c' (by decide), hne '\r' (by decide)]

/-- An escaped character is read back, whatever follows. -/
theorem body_escape (c : Char) (t : Text) :
    body none (escape c ++ t) = consRead c (body none t) := by
  by_cases h : c.toNat < 0x20
  · have := body_escape_control c.toNat h t
    rwa [Char.ofNat_toNat] at this
  by_cases hq : c = '"'
  · subst hq
    rfl
  by_cases hb : c = '\\'
  · subst hb
    rfl
  rw [escape_plain h hq hb, List.singleton_append]
  rw [body.eq_def]
  simp [h, hb]

/-- A string that was written is read back, up to its closing quote. -/
theorem body_write (s t : Text) :
    body none (s.flatMap escape ++ '"' :: t) = some (s, t) := by
  induction s with
  | nil => rfl
  | cons c s ih => rw [List.flatMap_cons, List.append_assoc, body_escape, ih]; rfl

end Keyring.Json
