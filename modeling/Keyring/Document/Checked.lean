import Keyring.Document.Double.Shortest
import Keyring.Document.Value

/-!
# Checked readings

Records and settings are read field by field from the entries of a mapping. A reading collects every
issue that it meets instead of stopping at the first, and `Checked.sorted` lists them by place.
-/

namespace Keyring

/-- What can be wrong with a value. -/
inductive Defect
  | missing
  | notText
  /-- A field that the record does not have. -/
  | stray
  /-- A key that is not text. -/
  | strayKey
  /-- A value that cannot stand for an integer at all. -/
  | notInteger
  /-- A text that is no integer. -/
  | integerText
  /-- A text or a floating point number for too large an integer. -/
  | integerSize
  /-- A floating point number that is no integer. -/
  | fraction
  | notFinite
  | belowRange
  | aboveRange
  /-- A value that is not one of the choices. -/
  | notChoice
  /-- A section that is not a mapping. -/
  | notSection
  /-- A file whose content cannot be read as values. -/
  | unreadable
  deriving DecidableEq, Repr

/-- The machine-readable code of a defect. -/
def Defect.code : Defect → String
  | missing => "missing"
  | notText => "string_type"
  | stray => "extra_forbidden"
  | strayKey => "invalid_key"
  | notInteger => "int_type"
  | integerText => "int_parsing"
  | integerSize => "int_parsing_size"
  | fraction => "int_from_float"
  | notFinite => "finite_number"
  | belowRange => "greater_than_equal"
  | aboveRange => "less_than"
  | notChoice => "enum"
  | notSection => "model_type"
  | unreadable => "value_error"

/-- A defect and its place: the keys that lead to it. -/
structure Issue where
  place : List Scalar
  defect : Defect
  deriving DecidableEq, Repr

namespace Issue

/-- How a key is named in a place: an integer of 64 bits or a truth value by a number, and any other
key by its text. -/
def keyName : Scalar → Int ⊕ Text
  | .text t => .inr t
  | .int n =>
    if -0x8000000000000000 ≤ n ∧ n < 0x8000000000000000 then .inl n else .inr (Text.ofInt n)
  | .bool b => .inl b.toNat
  | .float x => .inr x.toText
  | .other t => .inr t
  | .null => .inr "None".toList

/-- How a key sorts: by its name, a number by its decimal numeral. -/
def sortKey (key : Scalar) : Text :=
  (keyName key).elim Text.ofInt id

/-- Whether an issue is listed before another: by place, then by code. -/
def before (i j : Issue) : Bool :=
  let p := i.place.map sortKey
  let q := j.place.map sortKey
  if p = q then decide (i.defect.code ≤ j.defect.code) else decide (p < q)

/-- The same issue, one key further down. -/
def under (key : String) (i : Issue) : Issue :=
  { i with place := .text key.toList :: i.place }

end Issue

/-- A reading that collects issues. -/
abbrev Checked := Except (List Issue)

namespace Checked

/-- A single issue. -/
def fail {α : Type} (place : List Scalar) (d : Defect) : Checked α :=
  .error [⟨place, d⟩]

/-- Apply a function that was read to an argument that was read; the issues of both add up. -/
def ap {α β : Type} : Checked (α → β) → Checked α → Checked β
  | .ok f, .ok a => .ok (f a)
  | .ok _, .error e => .error e
  | .error e, .ok _ => .error e
  | .error e, .error e' => .error (e ++ e')

/-- The issues of a reading, one key further down. -/
def under {α : Type} (key : String) (r : Checked α) : Checked α :=
  r.mapError (·.map (Issue.under key))

/-- The issues of a reading in their listed order. -/
def sorted {α : Type} (r : Checked α) : Checked α :=
  r.mapError (·.mergeSort Issue.before)

/-- A combined reading succeeds exactly if both parts do. -/
theorem ap_eq_ok {α β : Type} {f : Checked (α → β)} {a : Checked α} {b : β} :
    ap f a = .ok b ↔ ∃ g x, f = .ok g ∧ a = .ok x ∧ g x = b := by
  cases f <;> cases a <;> simp [ap]

/-! ### Fields -/

/-- Whether a mapping has no other keys than the names; the value is passed on. -/
def only {α : Type} (names : List String) (es : Entries) (value : α) : Checked α :=
  let issue (e : Scalar × Value) : Option Issue :=
    match e.1 with
    | .text t => if (names.map String.toList).contains t then none else some ⟨[.text t], .stray⟩
    | key => some ⟨[key], .strayKey⟩
  match es.filterMap issue with
  | [] => .ok value
  | issues => .error issues

/-- The value of a field, read by `read` where it is there. -/
def field {α : Type} (es : Entries) (name : String) (absent : Except Defect α)
    (read : Value → Except Defect α) : Checked α :=
  let place := [Scalar.text name.toList]
  ((es.get? (.text name.toList)).elim absent read).mapError fun d => [⟨place, d⟩]

/-- Read a text. -/
def readText (v : Value) : Except Defect Text :=
  match v.text? with
  | some t => .ok t
  | none => .error .notText

/-- Read a text or `null`. -/
def readOptional (v : Value) : Except Defect (Option Text) :=
  if v.isNull then .ok none else (readText v).map some

/-- A text field that has to be there. -/
def required (es : Entries) (name : String) : Checked Text :=
  field es name (.error .missing) readText

/-- A text field that is empty unless it is there. -/
def defaulted (es : Entries) (name : String) : Checked Text :=
  field es name (.ok []) readText

/-- A text field that may be left out or `null`. -/
def optional (es : Entries) (name : String) : Checked (Option Text) :=
  field es name (.ok none) readOptional

end Checked

end Keyring
