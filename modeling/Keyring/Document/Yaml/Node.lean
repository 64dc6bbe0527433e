import Keyring.Document.Yaml.Scalar

/-!
# Nodes of YAML documents

A node is a scalar, a flow collection in brackets or braces, or a block collection by indentation. A
key of a mapping stands on one line and is a scalar; the last of equal keys wins. `Yaml.read` reads
a text of at most one document, and a text without one denotes `null`.

This is the part of YAML that settings are usually written in. Anchors and aliases, tags, block
scalars, explicit keys, merge keys and directives are not known here: a text that has them is
refused, though it may well be a document.
-/

namespace Keyring.Yaml

/-- The longest key in characters. -/
def maxKey : Nat := 1024

/-- Whether what was read from `start` on can be a key whose colon stands at `colon`. -/
def isKey (start colon : Cursor) : Bool :=
  let n := start.rest.length - colon.rest.length
  n ≤ maxKey && !(start.rest.take n).any isBreak

/-- The scalar of a key or value that was read plain. -/
def plainValue (r : Text × Cursor) : Except Fault (Scalar × Cursor) := do
  return (← resolve r.1, r.2)

/-! ### Flow collections -/

mutual

/-- Read a node inside a flow collection. -/
def flowNode : (fuel : Nat) → Cursor → Except Fault (Value × Cursor)
  | 0, _ => .error .malformed
  | fuel + 1, c =>
    if c.atEnd then .error .malformed
    else match c.rest with
      | '[' :: _ => do
        let (items, c) ← flowItems fuel (c.advance 1).skip
        return (.list items, c)
      | '{' :: _ => do
        let (entries, c) ← flowEntries fuel (c.advance 1).skip
        return (.map (Entries.ofList entries), c)
      | q :: _ =>
        if q = '"' || q = '\'' then do
          let (t, c) ← quoted c
          return (.text t, c)
        else if startsPlain true c.rest then do
          let (s, c) ← plainValue (plainLines true 0 (c.rest.length + 1) c)
          return (.scalar s, c)
        else .error .malformed
      | [] => .error .malformed

/-- Read a value after a colon in a flow collection; none is `null`. -/
def flowValue : (fuel : Nat) → Cursor → Except Fault (Value × Cursor)
  | 0, _ => .error .malformed
  | fuel + 1, c =>
    match c.rest with
    | d :: _ => if d = ',' || d = ']' || d = '}' then .ok (.null, c) else flowNode fuel c
    | [] => .error .malformed

/-- Read the items of a list in brackets and the closing bracket. -/
def flowItems : (fuel : Nat) → Cursor → Except Fault (List Value × Cursor)
  | 0, _ => .error .malformed
  | fuel + 1, c =>
    match c.rest with
    | ']' :: _ => .ok ([], c.advance 1)
    | _ => do
      let (item, after) ← flowNode fuel c
      let next := after.skip
      let (item, next) ← (match next.rest, item with
        | ':' :: _, .scalar key =>
          if isKey c next then
            (flowValue fuel (next.advance 1).skip).map fun r => (.map [(key, r.1)], r.2.skip)
          else .error .malformed
        | ':' :: _, _ => .error .malformed
        | _, _ => .ok (item, next))
      match next.rest with
      | ',' :: _ => do
        let (items, c) ← flowItems fuel (next.advance 1).skip
        return (item :: items, c)
      | ']' :: _ => return ([item], next.advance 1)
      | _ => throw .malformed

/-- Read the entries of a mapping in braces and the closing brace. -/
def flowEntries : (fuel : Nat) → Cursor → Except Fault (Entries × Cursor)
  | 0, _ => .error .malformed
  | fuel + 1, c =>
    match c.rest with
    | '}' :: _ => .ok ([], c.advance 1)
    | _ => do
      let (key, after) ← flowNode fuel c
      match key with
      | .scalar key => do
        let next := after.skip
        let (v, next) ← (match next.rest with
          | ':' :: _ =>
            if isKey c next then (flowValue fuel (next.advance 1).skip).map fun r => (r.1, r.2.skip)
            else .error .malformed
          | _ => .ok (.null, next))
        match next.rest with
        | ',' :: _ => do
          let (entries, c) ← flowEntries fuel (next.advance 1).skip
          return ((key, v) :: entries, c)
        | '}' :: _ => return ([(key, v)], next.advance 1)
        | _ => throw .malformed
      | _ => throw .malformed

end

/-! ### Block collections -/

/-- The key of a block mapping that begins here, and the position behind its colon; `none` if what
begins here is no key. -/
def blockKey? (c : Cursor) : Except Fault (Option (Scalar × Cursor)) := do
  let finish (key : Except Fault Scalar) (after : Cursor) :
    Except Fault (Option (Scalar × Cursor)) :=
    let colon := after.skipBlanks
    if colon.atIndicator ':' && isKey c colon then key.map fun k => some (k, colon.advance 1)
    else .ok none
  match c.rest with
  | q :: _ =>
    if q = '"' || q = '\'' then do
      let (t, after) ← quoted c
      finish (.ok (.text t)) after
    else if startsPlain false c.rest then
      let (t, after) := plainLine false (c.rest.length + 1) [] c
      finish (resolve t) after
    else return none
  | [] => return none

/-- Read a scalar or a flow collection. -/
def leaf (fuel least : Nat) (c : Cursor) : Except Fault (Value × Cursor) :=
  match c.rest with
  | q :: _ =>
    if q = '[' || q = '{' || q = '"' || q = '\'' then flowNode fuel c
    else if startsPlain false c.rest then do
      let (s, c) ← plainValue (plainLines false least (c.rest.length + 1) c)
      return (.scalar s, c)
    else .error .malformed
  | [] => .error .malformed

mutual

/-- Read a node whose lines reach the column `least`. Block collections can begin here only if
`block` allows it. -/
def node : (fuel least : Nat) → (block : Bool) → Cursor → Except Fault (Value × Cursor)
  | 0, _, _, _ => .error .malformed
  | fuel + 1, least, block, c =>
    if c.atIndicator '-' then
      if block then do
        let (items, c') ← blockItems fuel c.column c
        return (.list items, c')
      else .error .malformed
    else do
      match ← blockKey? c with
      | some (key, after) =>
        if block then do
          let (entries, c') ← blockEntries fuel c.column key after
          return (.map (Entries.ofList entries), c')
        else .error .malformed
      | none => leaf fuel least c

/-- Read the items of a block list from a dash in its column on. -/
def blockItems : (fuel column : Nat) → Cursor → Except Fault (List Value × Cursor)
  | 0, _, _ => .error .malformed
  | fuel + 1, column, c => do
    let content := (c.advance 1).skip
    let isEmpty :=
      content.rest = [] || (content.fresh && (content.atEnd || content.column ≤ column))
    let (item, next) ← (if isEmpty then .ok (.null, content)
      else node fuel (column + 1) true content)
    let next := next.skip
    if next.atEnd then return ([item], next)
    else if !next.fresh then throw .malformed
    else if next.column = column && next.atIndicator '-' then do
      let (items, c') ← blockItems fuel column next
      return (item :: items, c')
    else if next.column ≤ column then return ([item], next)
    else throw .malformed

/-- Read the entries of a block mapping, the first key being read already. -/
def blockEntries : (fuel column : Nat) → (key : Scalar) → Cursor → Except Fault (Entries × Cursor)
  | 0, _, _, _ => .error .malformed
  | fuel + 1, column, key, c => do
    let content := c.skip
    let isEmpty :=
      content.rest = [] || (content.fresh && (content.atEnd || content.column ≤ column))
    let (v, next) ← (
      if content.fresh && content.column = column && !content.atEnd && content.atIndicator '-' then
        (blockItems fuel column content).map fun r => (.list r.1, r.2)
      else if isEmpty then .ok (.null, content)
      else node fuel (column + 1) content.fresh content)
    let next := next.skip
    if next.atEnd then return ([(key, v)], next)
    else if !next.fresh then throw .malformed
    else if next.column = column then do
      match ← blockKey? next with
      | some (key', after) =>
        let (entries, c') ← blockEntries fuel column key' after
        return ((key, v) :: entries, c')
      | none => throw .malformed
    else if next.column < column then return ([(key, v)], next)
    else throw .malformed

end

/-! ### Documents -/

/-- Pass over lines that end a document. -/
def skipStops : (fuel : Nat) → Cursor → Cursor
  | 0, c => c
  | fuel + 1, c =>
    let c := c.skip
    if c.atStop then skipStops fuel ⟨c.rest.drop 3, 3, false⟩ else c

/-- Read the root of a document and what follows it, which may only be the end. -/
def root (c : Cursor) : Except Fault Value := do
  let fuel := 4 * c.rest.length + 4
  let begun := c.atStart
  let content := (if begun then c.advance 3 else c).skip
  if content.atEnd then
    if (skipStops fuel content).rest = [] then return .null else throw .malformed
  let (v, after) ← node fuel 0 (content.fresh || !begun) content
  let after := after.skip
  if !(after.atEnd && (after.fresh || after.rest = [])) then throw .malformed
  if (skipStops fuel after).rest = [] then return v else throw .malformed

/-- Read a text of at most one document. -/
def read (t : Text) : Except Fault Value :=
  if t.all isAllowed then
    let body := match t with
      | '\ufeff' :: body => body
      | body => body
    root (skipStops (body.length + 1) ⟨body, 0, true⟩)
  else .error .malformed

end Keyring.Yaml
