import Keyring.Bytes
import Keyring.Document.Double

/-!
# Document values

What a JSON or YAML document denotes: scalars, lists and mappings. The keys of a mapping are
scalars, and it keeps them in the order in which they first occurred. Two keys with the same number
are the same key, whether they are written as an integer, as a truth value or with a point, and
not-a-number counts as one key.
-/

namespace Keyring

/-- A value without parts. -/
inductive Scalar
  | null
  | bool (b : Bool)
  | int (n : Int)
  | float (x : Double)
  | text (t : Text)
  /-- A date, a moment or a value of yet another kind that no field takes, by its text. -/
  | other (t : Text)
  deriving DecidableEq, Repr

/-- What counts of a scalar where it is a key: its number, if it has one. -/
def Scalar.asKey : Scalar → Scalar
  | .bool b => .int b.toNat
  | .float x => x.toInt?.elim (.float x) .int
  | s => s

/-- The value of a document. -/
inductive Value
  | scalar (s : Scalar)
  | list (items : List Value)
  | map (entries : List (Scalar × Value))
  deriving Repr

/-- The entries of a mapping. -/
abbrev Entries := List (Scalar × Value)

namespace Entries

/-- What counts of the keys. -/
def keys (es : Entries) : List Scalar :=
  es.map (·.1.asKey)

/-- The value of a key. -/
def get? (es : Entries) (key : Scalar) : Option Value :=
  (es.find? (·.1.asKey = key.asKey)).map (·.2)

/-- Give a key a value, in place where it has one already and else at the end. -/
def put : (es : Entries) → (key : Scalar) → (v : Value) → Entries
  | [], key, v => [(key, v)]
  | e :: es, key, v => if e.1.asKey = key.asKey then (e.1, v) :: es else e :: put es key v

/-- Put all entries of `upper` over those of `lower`. -/
def putAll (upper lower : Entries) : Entries :=
  upper.foldl (fun es e => put es e.1 e.2) lower

/-- The entries in the given order, the last of equal keys winning. -/
def ofList (es : Entries) : Entries :=
  putAll es []

theorem get?_cons (e : Scalar × Value) (es : Entries) (key : Scalar) :
    get? (e :: es) key = if e.1.asKey = key.asKey then some e.2 else get? es key := by
  by_cases h : e.1.asKey = key.asKey
  · simp [get?, h]
  · simp [get?, h]

/-- An entry that was put is found, and the others are left as they were. -/
theorem get?_put (es : Entries) (key other : Scalar) (v : Value) :
    get? (put es key v) other = if other.asKey = key.asKey then some v else get? es other := by
  induction es with
  | nil => simp only [put, get?_cons, eq_comm]
  | cons e es ih =>
    by_cases he : e.1.asKey = key.asKey
    · rw [put, if_pos he, get?_cons, get?_cons, he]
      by_cases h : key.asKey = other.asKey
      · rw [if_pos h, if_pos h.symm]
      · rw [if_neg h, if_neg h, if_neg (Ne.symm h)]
    · rw [put, if_neg he, get?_cons, get?_cons, ih]
      by_cases h : e.1.asKey = other.asKey
      · rw [if_pos h, if_pos h, if_neg (h ▸ he)]
      · rw [if_neg h, if_neg h]

theorem map_fst_put (es : Entries) (key : Scalar) (v : Value) :
    (put es key v).map (·.1) =
      if key.asKey ∈ keys es then es.map (·.1) else es.map (·.1) ++ [key] := by
  induction es with
  | nil => simp [put, keys]
  | cons e es ih =>
    by_cases he : e.1.asKey = key.asKey
    · simp [put, keys, he]
    · have h : key.asKey ≠ e.1.asKey := fun h => he h.symm
      have hkeys : keys (e :: es) = e.1.asKey :: keys es := rfl
      rw [put, if_neg he, List.map_cons, ih, List.map_cons, hkeys]
      by_cases hm : key.asKey ∈ keys es <;> simp only [List.mem_cons, h, hm, false_or, if_true,
        if_false, List.cons_append]

theorem keys_put (es : Entries) (key : Scalar) (v : Value) :
    keys (put es key v) = if key.asKey ∈ keys es then keys es else keys es ++ [key.asKey] := by
  have hkeys : ∀ es : Entries, keys es = (es.map (·.1)).map Scalar.asKey := fun es => by
    rw [keys, List.map_map]
    rfl
  rw [hkeys (put es key v), map_fst_put]
  split
  · exact (hkeys es).symm
  · rw [List.map_append, ← hkeys]
    rfl

theorem nodup_put {es : Entries} (h : (keys es).Nodup) (key : Scalar) (v : Value) :
    (keys (put es key v)).Nodup := by
  rw [keys_put]
  split
  · exact h
  · rename_i hk
    refine List.nodup_append.2 ⟨h, by simp, ?_⟩
    rintro a ha b hb rfl
    exact hk (List.mem_singleton.1 hb ▸ ha)

theorem nodup_putAll {upper lower : Entries} (h : (keys lower).Nodup) :
    (keys (putAll upper lower)).Nodup := by
  induction upper generalizing lower with
  | nil => exact h
  | cons e upper ih => exact ih (nodup_put h e.1 e.2)

/-- No two entries that were put together have the same key. -/
theorem nodup_ofList (es : Entries) : (keys (ofList es)).Nodup :=
  nodup_putAll (by simp [keys])

end Entries

namespace Value

/-- The value `null`. -/
def null : Value := scalar .null

/-- A text value. -/
def text (t : Text) : Value := scalar (.text t)

/-- Whether a value is `null`. -/
def isNull : Value → Bool
  | scalar .null => true
  | _ => false

/-- The text of a text value. -/
def text? : Value → Option Text
  | scalar (.text t) => some t
  | _ => none

/-- The entries of a mapping. -/
def entries? : Value → Option Entries
  | map es => some es
  | _ => none

end Value

end Keyring
