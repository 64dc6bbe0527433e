import Keyring.Document.Value
import Keyring.Text.LowerCase

/-!
# Names up to case

Arguments and environment name fields in any case. `spelled` gives such names the spelling of the
field, and leaves names alone that no field has.
-/

namespace Keyring.Settings

/-- A key with the spelling of the field that it names up to case. -/
def spelling (fields : List String) : Scalar → Scalar
  | .text t =>
    match fields.find? fun f => f.toList = t.lower with
    | some f => .text f.toList
    | none => .text t
  | key => key

/-- The entries with the spelling of the fields, the last of equal keys winning. -/
def spelled (fields : List String) (es : Entries) : Entries :=
  Entries.ofList (es.map fun e => (spelling fields e.1, e.2))

end Keyring.Settings
