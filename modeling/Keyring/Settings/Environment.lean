import Keyring.Document.Json
import Keyring.Settings.Merge
import Keyring.Settings.Spelling

/-!
# Settings from the environment

A variable `FIOWALLET_X`, in any case, sets the top-level field `x`. A section is set by a variable
that holds JSON, by variables `FIOWALLET_SECTION__FIELD`, or by both, where the latter win. JSON
`null` counts as not set.
-/

namespace Keyring.Settings

/-- The variables of an environment with their values, the latest last. -/
abbrev Environment := List (Text × Text)

/-- A variable that has to hold JSON and does not, by the name of its section. -/
structure BadVariable where
  name : String
  deriving DecidableEq, Repr

namespace Environment

/-- The variables with their names in small letters. -/
def lowered (env : Environment) : Environment :=
  env.map fun v => (v.1.lower, v.2)

/-- The start of all names. -/
def start : Text := "fiowallet_".toList

/-- The value of a variable, the last of equal names. -/
def get? (env : Environment) (name : Text) : Option Text :=
  (env.reverse.find? (·.1 = name)).map (·.2)

/-- A name cut at every pair of low lines. -/
def levels : Text → List Text
  | '_' :: '_' :: t => [] :: levels t
  | c :: t =>
    match levels t with
    | [] => [[c]]
    | w :: ws => (c :: w) :: ws
  | [] => [[]]

/-- Set a member of a section from a nested name and its value. A value is kept against a deeper
name, which makes the member a mapping otherwise. -/
def setMember (es : Entries) (levels : List Text) (value : Text) : Entries :=
  match levels with
  | [] => es
  | [name] => es.put (.text name) (.text value)
  | name :: deeper :: _ =>
    match es.get? (.text name) with
    | some (.scalar _) => es
    | _ => es.put (.text name) (.map [(.text deeper, .text value)])

/-- The members that nested names set in a section. -/
def members (env : Environment) (name : Text) : Entries :=
  let lead := start ++ name ++ ['_', '_']
  env.foldl (fun es v =>
    if lead.isPrefixOf v.1 then setMember es (levels (v.1.drop lead.length)) v.2 else es) []

/-- What the environment sets for a section. -/
def sectionOf (env : Environment) (name : String) (fields : List String) :
    Except BadVariable (Option Value) :=
  let nested := members env name.toList
  match get? env (start ++ name.toList) with
  | none => .ok (if nested = [] then none else some (.map (spelled fields nested)))
  | some json =>
    match Json.read? json with
    | none => .error ⟨name⟩
    | some (.map es) => .ok (some (.map (spelled fields (overlay nested es))))
    | some v => .ok (if v.isNull then none else some v)

end Environment

end Keyring.Settings
