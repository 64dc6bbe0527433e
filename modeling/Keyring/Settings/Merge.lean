import Keyring.Document.Value

/-!
# Layers of settings

Settings come in layers: arguments over the environment over a file. `overlay` puts one layer over
another, member by member where both hold a mapping, at every depth. `under` slides the values of a
file under those already there: it fills in what is absent or `null`, completes mappings and touches
nothing else.
-/

namespace Keyring.Settings

mutual

/-- A value put over another: two mappings are put together, and else the upper one wins. -/
def overlayValue : (upper : Value) → (lower : Option Value) → Value
  | .map upper, some (.map lower) => .map (overlay upper lower)
  | upper, _ => upper

/-- A layer of values put over another. -/
def overlay : (upper lower : Entries) → Entries
  | [], lower => lower
  | (key, v) :: upper, lower => overlay upper (lower.put key (overlayValue v (lower.get? key)))

end

/-- A value of a file under the value that is there. -/
def underValue (file : Value) : (value : Option Value) → Value
  | none => file
  | some (.map es) =>
    match file with
    | .map fs => .map (Entries.putAll es fs)
    | _ => .map es
  | some v => if v.isNull then file else v

/-- The values of a file under those that are there. -/
def under (file values : Entries) : Entries :=
  file.foldl (fun es e => es.put e.1 (underValue e.2 (es.get? e.1))) values

end Keyring.Settings
