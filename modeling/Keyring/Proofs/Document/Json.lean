import Keyring.Document.Json
import Mathlib.Data.List.Basic

/-!
# Objects are read back

An object with text values is read as the mapping with these members (`read?_object`). The members
are read one by one, with fuel for each; a written object is longer than the fuel that it takes.
-/

namespace Keyring.Json

theorem skip_cons {c : Char} (h : isSpace c = false) (t : Text) : skip (c :: t) = c :: t :=
  List.dropWhile_cons_of_neg (by simp [h])

theorem string_append (s t : Text) : string s ++ t = '"' :: (s.flatMap escape ++ '"' :: t) := by
  simp [string]

/-- A string is read as the text that was written, up to its closing quote. -/
theorem value?_string (fuel : ℕ) (s t : Text) :
    value? (fuel + 1) (string s ++ t) = some (.text s, t) := by
  rw [string_append, value?, skip_cons rfl]
  simp only [body_write, Option.map_some]

/-- The entry of a member. -/
def entry (m : Text × Text) : Scalar × Value := (.text m.1, .text m.2)

section Members

variable (fuel : ℕ) (m : Text × Text) (t : Text)

theorem members?_last : members? (fuel + 2) (member m ++ '}' :: t) = some ([entry m], t) := by
  rw [member, List.append_assoc, string_append, members?, skip_cons rfl]
  simp only [body_write, Option.bind_some]
  rw [List.cons_append, skip_cons rfl]
  simp only [value?_string, Option.bind_some, skip_cons (c := '}') rfl]
  rfl

/-- One member is read and the rest of the object follows. -/
theorem members?_cons : members? (fuel + 2) (member m ++ ',' :: t) =
    (members? (fuel + 1) t).map fun r => (entry m :: r.1, r.2) := by
  rw [member, List.append_assoc, string_append, members?, skip_cons rfl]
  simp only [body_write, Option.bind_some]
  rw [List.cons_append, skip_cons rfl]
  simp only [value?_string, Option.bind_some, skip_cons (c := ',') rfl]
  rfl

end Members

/-- Each member takes one unit of fuel, and the value in the last one another. -/
theorem members?_write {ms : List (Text × Text)} (hne : ms ≠ []) {fuel : ℕ} (h : ms.length < fuel)
    (t : Text) :
    members? fuel (Text.joinWith ',' (ms.map member) ++ '}' :: t) = some (ms.map entry, t) := by
  induction ms generalizing fuel with
  | nil => exact absurd rfl hne
  | cons m ms ih =>
    rw [List.length_cons] at h
    obtain ⟨n, rfl⟩ : ∃ n, fuel = n + 2 := ⟨fuel - 2, by omega⟩
    cases ms with
    | nil => exact members?_last n m t
    | cons m' ms =>
      rw [List.map_cons, Text.joinWith_cons (by simp), List.append_assoc, List.cons_append,
        members?_cons, ih (by simp) (by omega)]
      rfl

theorem length_member (m : Text × Text) : 5 ≤ (member m).length := by
  simp only [member, string, List.length_append, List.length_cons, List.length_nil]
  omega

theorem length_le_joinWith (ms : List (Text × Text)) :
    ms.length ≤ (Text.joinWith ',' (ms.map member)).length := by
  induction ms with
  | nil => exact Nat.zero_le _
  | cons m ms ih =>
    have hpos := length_member m
    cases ms with
    | nil =>
      simp only [List.map_cons, List.map_nil, Text.joinWith, List.length_cons, List.length_nil]
      omega
    | cons m' ms =>
      simp only [List.length_cons] at ih
      rw [List.map_cons, Text.joinWith_cons (by simp), List.length_append]
      simp only [List.length_cons]
      omega

/-- Members begin with the quote of the first name. -/
theorem exists_quote (m : Text × Text) (ms : List (Text × Text)) (t : Text) :
    ∃ u, Text.joinWith ',' ((m :: ms).map member) ++ t = '"' :: u := by
  cases ms with
  | nil => exact ⟨_, rfl⟩
  | cons m' ms => exact ⟨_, rfl⟩

/-- What is written as an object is the mapping with its members. -/
theorem read?_object (ms : List (Text × Text)) :
    read? (object ms) = some (.map (Entries.ofList (ms.map entry))) := by
  have hvalue : ∀ fuel, ms.length + 1 < fuel →
      value? fuel (object ms) = some (.map (Entries.ofList (ms.map entry)), []) := by
    intro fuel hfuel
    obtain ⟨n, rfl⟩ : ∃ n, fuel = n + 1 := ⟨fuel - 1, by omega⟩
    rw [value?, object, List.cons_append, skip_cons rfl]
    cases ms with
    | nil => rfl
    | cons m ms =>
      have hmembers :=
        members?_write (List.cons_ne_nil m ms) (show (m :: ms).length < n by omega) []
      obtain ⟨u, hu⟩ := exists_quote m ms ['}']
      rw [hu] at hmembers
      simp only [hu, skip_cons (c := '"') rfl]
      show (members? n ('"' :: u)).map (fun r => (Value.map (Entries.ofList r.1), r.2)) = _
      rw [hmembers]
      rfl
  have hlen : (object ms).length = (Text.joinWith ',' (ms.map member)).length + 2 := by
    simp [object]
  have hle := length_le_joinWith ms
  rw [read?, hvalue _ (by omega)]
  rfl

end Keyring.Json
