import Keyring.Document.Yaml.Node
import Keyring.Settings.Environment
import Keyring.Settings.Merge
import Keyring.Settings.Sections
import Keyring.Text.Utf8

/-!
# Settings

The settings are the path of a file and two sections. Their values come from arguments, from the
environment and from the file, in this order of precedence. A missing file and one that holds no
mapping count as empty.

What a file holds is up to a `FileReader`, which is a parameter of everything that looks at a file.
Of YAML documents `Yaml.read` reads those that settings are usually written as, and `build` reads
files with it; the rules of precedence do not depend on it.
-/

namespace Keyring

/-- The settings of a wallet. -/
structure Settings where
  configPath : Text
  keys : Branch
  messaging : Envelope.Encoding
  deriving DecidableEq

namespace Settings

/-- What is found at a path. -/
inductive FileState
  | missing
  | directory
  | file (content : Bytes)

/-- Why no settings are made. -/
inductive Refusal
  | invalid (issues : List Issue)
  | badVariable (v : BadVariable)
  | malformedFile
  | isDirectory

/-- The key of the path of the file. -/
def pathKey : Scalar := .text "config_path".toList

/-- What the environment sets. -/
def ofEnvironment (env : Environment) : Except BadVariable Entries := do
  let env := env.lowered
  let path := (env.get? (Environment.start ++ "config_path".toList)).map Value.text
  let keys ← env.sectionOf "keys" Branch.names
  let messaging ← env.sectionOf "messaging" Envelope.Encoding.names
  return [("config_path", path), ("keys", keys), ("messaging", messaging)].filterMap fun e =>
    e.2.map (Scalar.text e.1.toList, ·)

/-! ### The file -/

/-- A way to read the text of a file as a value. -/
abbrev FileReader := Text → Except Yaml.Fault Value

/-- A text with every line end as a line feed. -/
def unifyLineEnds : Text → Text
  | '\r' :: '\n' :: t => '\n' :: unifyLineEnds t
  | '\r' :: t => '\n' :: unifyLineEnds t
  | c :: t => c :: unifyLineEnds t
  | [] => []

/-- The entries that a file holds. -/
def fileEntries (reader : FileReader) (content : Bytes) : Except Refusal Entries :=
  match Text.Utf8.decode? content with
  | none => .error (.invalid [⟨[], .unreadable⟩])
  | some t =>
    match reader (unifyLineEnds t) with
    | .ok (.map es) => .ok es
    | .ok _ => .ok []
    | .error .malformed => .error .malformedFile
    | .error .impossible => .error (.invalid [⟨[], .unreadable⟩])

/-- The path of the file that values name, unless it is empty. -/
def filePath? (values : Entries) : Option Text :=
  match (values.get? pathKey).bind Value.text? with
  | some [] => none
  | path => path

/-- The entries of the file that values name. -/
def loadFile (reader : FileReader) (lookup : Text → FileState) (values : Entries) :
    Except Refusal Entries :=
  match filePath? values with
  | none => .ok []
  | some path =>
    match lookup path with
    | .missing => .ok []
    | .directory => .error .isDirectory
    | .file content => fileEntries reader content

/-- Values with those of the file that they name under them. -/
def withFile (reader : FileReader) (lookup : Text → FileState) (values : Entries) :
    Except Refusal Entries := do
  return under (← loadFile reader lookup values) values

/-- Without a file the values stay as they are. -/
theorem withFile_of_noFile {reader : FileReader} {lookup : Text → FileState} {values : Entries}
    (h : filePath? values = none) : withFile reader lookup values = .ok values := by
  simp only [withFile, loadFile, h]
  rfl

/-! ### Validation -/

/-- The names of the top-level fields. -/
def names : List String := ["config_path", "keys", "messaging"]

/-- Read a section with `read`; without it the usual values apply. -/
def sectionField {α : Type} (es : Entries) (name : String) (usual : α)
    (read : Entries → Checked α) : Checked α :=
  match es.get? (.text name.toList) with
  | none => .ok usual
  | some (.map sub) => (read sub).under name
  | some _ => Checked.fail [.text name.toList] .notSection

open Checked in
/-- Read settings from values. -/
def ofEntries (es : Entries) : Checked Settings :=
  sorted <| only names es mk
    |> (ap · (field es "config_path" (.ok []) readText))
    |> (ap · (sectionField es "keys" Branch.usual Branch.ofEntries))
    |> (ap · (sectionField es "messaging" Envelope.Encoding.usual Envelope.Encoding.ofEntries))

/-- The values that arguments and an environment give. Arguments name the top-level fields in any
case. -/
def collect (env : Environment) (arguments : Entries) : Except BadVariable Entries := do
  return overlay (spelled names arguments) (← ofEnvironment env)

/-- The settings of arguments, an environment and the files that these can name. -/
def buildWith (reader : FileReader) (lookup : Text → FileState) (env : Environment)
    (arguments : Entries) : Except Refusal Settings := do
  let values ← withFile reader lookup (← (collect env arguments).mapError .badVariable)
  (ofEntries values).mapError .invalid

/-- The settings, with files in YAML. -/
def build (lookup : Text → FileState) (env : Environment) (arguments : Entries) :
    Except Refusal Settings :=
  buildWith Yaml.read lookup env arguments

/-- The arguments that only name a file. -/
def argumentsOfPath (path : Text) : Entries :=
  [(pathKey, .text path)]

end Settings

end Keyring
