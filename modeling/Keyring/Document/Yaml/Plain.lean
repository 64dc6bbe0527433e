import Keyring.Document.Value
import Keyring.Text.Decimal
import Keyring.Text.Hex

/-!
# Plain scalars of YAML 1.1

A scalar without quotes denotes a truth value, `null`, a number, a date or moment, or else its own
text. Integers are binary, octal, decimal, hexadecimal or sexagesimal, floating point numbers have a
point, and low lines may stand between digits.
-/

namespace Keyring.Yaml

/-- Why a document is not read. -/
inductive Fault
  /-- It does not follow the grammar, or holds a value that has no place there. -/
  | malformed
  /-- It holds a scalar of the right form that denotes nothing. -/
  | impossible
  deriving DecidableEq, Repr

namespace Plain

/-! ### Pieces -/

/-- An optional sign: whether it is a minus, and the rest. -/
def sign : Text → Bool × Text
  | '-' :: t => (true, t)
  | '+' :: t => (false, t)
  | t => (false, t)

/-- A text without its low lines. -/
def squeeze (t : Text) : Text :=
  t.filter (· ≠ '_')

/-- A decimal digit or a low line. -/
def isDigitOrLine (c : Char) : Bool :=
  c.isDigit || c = '_'

/-- Whether a text is not empty and holds only characters that satisfy `p`. -/
def isRun (p : Char → Bool) (t : Text) : Bool :=
  t ≠ [] && t.all p

/-- A digit and then digits and low lines. -/
def isNumeral : Text → Bool
  | c :: t => c.isDigit && t.all isDigitOrLine
  | [] => false

/-- The number that digits of a base spell; `none` if there are none. -/
def number? (base : Nat) (t : Text) : Option Nat :=
  let ds := (squeeze t).filterMap Text.Hex.digit?
  if ds = [] then none else some (Radix.value base ds)

/-- The number that decimal digits spell, zero for none. -/
def decimal (t : Text) : Nat :=
  (number? 10 t).getD 0

/-- The sign put on a number. -/
def signed (negative : Bool) (n : Nat) : Int :=
  if negative then -(n : Int) else n

/-- A sexagesimal digit: one or two decimal digits below sixty. -/
def isSixty : Text → Bool
  | [c] => c.isDigit
  | [c, d] => '0' ≤ c && c ≤ '5' && d.isDigit
  | _ => false

/-! ### Integers -/

/-- The integer that a plain scalar denotes, if it has the form of one. -/
def integer? (t : Text) : Option (Except Fault Int) :=
  let (negative, body) := sign t
  let based (base : Nat) (p : Char → Bool) (ds : Text) : Option (Except Fault Int) :=
    if isRun (fun c => p c || c = '_') ds then
      some (match number? base ds with
        | some n => .ok (signed negative n)
        | none => .error .impossible)
    else none
  match body with
  | ['0'] => some (.ok 0)
  | '0' :: 'b' :: ds => based 2 (fun c => c = '0' || c = '1') ds
  | '0' :: 'x' :: ds => based 16 (fun c => (Text.Hex.digit? c).isSome) ds
  | '0' :: ds =>
    if isRun (fun c => ('0' ≤ c && c ≤ '7') || c = '_') ds then
      some (.ok (signed negative ((number? 8 ds).getD 0)))
    else none
  | _ =>
    match body.splitOn ':' with
    | [] => none
    | first :: rest =>
      if isNumeral first && rest.all isSixty then
        if Text.Decimal.mostDigits < (squeeze first).length then some (.error .impossible)
        else some (.ok (signed negative (Radix.value 60 (decimal first :: rest.map decimal))))
      else none

/-! ### Floating point numbers -/

/-- An optional exponent with its sign, at the end of a number. -/
def exponent? : Text → Option Int
  | [] => some 0
  | c :: s :: ds =>
    if (c = 'e' || c = 'E') && (s = '-' || s = '+') && isRun Char.isDigit ds then
      some (signed (s = '-') (decimal ds))
    else none
  | _ => none

/-- The number `whole.frac` times a power of ten. -/
def double (negative : Bool) (whole frac : Text) (e : Int) : Double :=
  .ofDecimal negative (decimal (whole ++ frac)) (e - (squeeze frac).length)

/-- The floating point number that a plain scalar denotes. -/
def float? (t : Text) : Option Double :=
  let (negative, body) := sign t
  let isSigned := body ≠ t
  let whole := body.takeWhile (· ≠ '.')
  match body.drop whole.length with
  | '.' :: tail =>
    let frac := tail.takeWhile isDigitOrLine
    let rest := tail.drop frac.length
    if whole = [] then
      if (["inf", "Inf", "INF"].map String.toList).contains tail then some (.infinite negative)
      else if (["nan", "NaN", "NAN"].map String.toList).contains tail && !isSigned then some .nan
      else if isNumeral frac && !isSigned then (exponent? rest).map (double negative whole frac)
      else none
    else if isNumeral whole then (exponent? rest).map (double negative whole frac)
    else if rest = [] then
      match whole.splitOn ':' with
      | first :: more =>
        if isNumeral first && more.all isSixty then
          some (double negative (Text.ofNat (Radix.value 60 (decimal first :: more.map decimal)))
            frac 0)
        else none
      | [] => none
    else none
  | _ => none

/-! ### Dates and moments -/

/-- The number of days of a month. -/
def daysOfMonth (year month : Nat) : Nat :=
  if month = 2 then
    if year % 4 = 0 ∧ (year % 100 ≠ 0 ∨ year % 400 = 0) then 29 else 28
  else if month = 4 ∨ month = 6 ∨ month = 9 ∨ month = 11 then 30
  else 31

/-- Whether a date exists. -/
def isDate (year month day : Nat) : Bool :=
  1 ≤ year && 1 ≤ month && month ≤ 12 && 1 ≤ day && day ≤ daysOfMonth year month

/-- Between `least` and `most` decimal digits as a number. -/
def digits? (least most : Nat) (t : Text) : Option Nat :=
  if least ≤ t.length && t.length ≤ most && t.all Char.isDigit then some (decimal t) else none

/-- Whether a zone offset can be added, or `none` if it is no zone. -/
def zone? : Text → Option Bool
  | [] => some true
  | ['Z'] => some true
  | s :: t =>
    if s = '-' || s = '+' then
      match t.splitOn ':' with
      | [h] => (digits? 1 2 h).map (· < 24)
      | [h, m] => do
        let hours ← digits? 1 2 h
        let minutes ← digits? 2 2 m
        return hours * 60 + minutes < 24 * 60
      | _ => none
    else none

/-- Whether a time of day with its zone exists, or `none` if the text is none. -/
def timeOfDay? (t : Text) : Option Bool := do
  match t.splitOn ':' with
  | h :: m :: more =>
    let hours ← digits? 1 2 h
    let minutes ← digits? 2 2 m
    let tail := Text.joinWith ':' more
    let seconds ← digits? 2 2 (tail.take 2)
    let afterSeconds := tail.drop 2
    let rest := match afterSeconds with
      | '.' :: r => r.dropWhile Char.isDigit
      | r => r
    let trimmed := rest.dropWhile fun c => c = ' ' || c = '\t'
    let valid ← zone? trimmed
    return valid && hours < 24 && minutes < 60 && seconds < 60
  | _ => none

/-- Whether the date or moment exists that a plain scalar spells, or `none` if it has no such form.
-/
def time? (t : Text) : Option Bool := do
  let whole := t.takeWhile fun c => c.isDigit || c = '-'
  let rest := t.drop whole.length
  match whole.splitOn '-' with
  | [y, m, d] =>
    let year ← digits? 4 4 y
    match rest with
    | [] =>
      let month ← digits? 2 2 m
      let day ← digits? 2 2 d
      return isDate year month day
    | c :: r =>
      let month ← digits? 1 2 m
      let day ← digits? 1 2 d
      let time :=
        if c = 'T' || c = 't' then some r
        else if c = ' ' || c = '\t' then some (r.dropWhile fun c => c = ' ' || c = '\t')
        else none
      let valid ← timeOfDay? (← time)
      return valid && isDate year month day
  | _ => none

/-! ### Words -/

/-- The words with a meaning of their own. -/
def words : List (List String × Scalar) :=
  [(["yes", "Yes", "YES", "true", "True", "TRUE", "on", "On", "ON"], .bool true),
   (["no", "No", "NO", "false", "False", "FALSE", "off", "Off", "OFF"], .bool false),
   (["~", "null", "Null", "NULL", ""], .null)]

end Plain

/-- What a plain scalar denotes. -/
def resolve (t : Text) : Except Fault Scalar :=
  if t = ['='] || t = ['<', '<'] then .error .malformed
  else match Plain.words.find? fun w => (w.1.map String.toList).contains t with
    | some (_, s) => .ok s
    | none => match Plain.float? t with
      | some x => .ok (.float x)
      | none => match Plain.integer? t with
        | some n => n.map .int
        | none => match Plain.time? t with
          | some valid => if valid then .ok (.other t) else .error .impossible
          | none => .ok (.text t)

end Keyring.Yaml
