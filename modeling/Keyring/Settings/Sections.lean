import Keyring.Envelope
import Keyring.Mnemonic.Keys
import Keyring.Settings.Integer

/-!
# Sections of the settings

Two sections exist: `keys` tells the branch on which keys are derived, and `messaging` the encoding
of envelopes. Every field may be left out, and no other fields are allowed.
-/

namespace Keyring

namespace Branch

/-- The names of the fields. -/
def names : List String := ["coin_type", "account", "change"]

open Checked in
/-- Read a branch from the entries of a mapping. -/
def ofEntries (es : Entries) : Checked Branch :=
  let read := Setting.index ExtendedKey.hardenedOffset
  sorted <| only names es mk
    |> (ap · (field es "coin_type" (.ok usual.coinType) read))
    |> (ap · (field es "account" (.ok usual.account) read))
    |> (ap · (field es "change" (.ok usual.change) read))

/-- An empty section gives the usual branch. -/
theorem ofEntries_nil : ofEntries [] = .ok usual := rfl

end Branch

namespace Envelope.Encoding

/-- The names of the fields. -/
def names : List String := ["envelope_encoding"]

/-- The encoding unless another is set. -/
def usual : Encoding := base64

/-- Read the exact name of an encoding. -/
def choice (v : Value) : Except Defect Encoding :=
  match v.text? with
  | some t =>
    if t = hex.name then .ok hex else if t = base64.name then .ok base64 else .error .notChoice
  | none => .error .notChoice

open Checked in
/-- Read an encoding from the entries of a mapping. -/
def ofEntries (es : Entries) : Checked Encoding :=
  sorted <| ap (only names es id) (field es "envelope_encoding" (.ok usual) choice)

end Envelope.Encoding

end Keyring
