import Keyring.Bytes

/-!
# Blanks

`isBlank` is the Unicode white space of text fields, with the four information separators counted in
and the zero-width characters left out. `trim` removes blanks at both ends.
-/

namespace Keyring.Text

/-- Unicode white space. -/
def isBlank (c : Char) : Bool :=
  let n := c.toNat
  if n < 128 then n = 0x20 || (0x09 ≤ n && n ≤ 0x0d) || (0x1c ≤ n && n ≤ 0x1f)
  else n = 0x85 || n = 0xa0 || n = 0x1680 || (0x2000 ≤ n && n ≤ 0x200a) || n = 0x2028 || n = 0x2029
    || n = 0x202f || n = 0x205f || n = 0x3000

/-- Drop the characters at the end of a text that satisfy `p`. -/
def trimEndBy (p : Char → Bool) (t : Text) : Text :=
  (t.reverse.dropWhile p).reverse

/-- Drop the characters at both ends of a text that satisfy `p`. -/
def trimBy (p : Char → Bool) (t : Text) : Text :=
  trimEndBy p (t.dropWhile p)

/-- Drop the blanks at both ends of a text. -/
def trim (t : Text) : Text :=
  trimBy isBlank t

/-- A text without blanks at its ends is trimmed already. -/
theorem trimBy_eq_self {p : Char → Bool} {t : Text} (hfirst : ∀ c ∈ t.head?, p c = false)
    (hlast : ∀ c ∈ t.getLast?, p c = false) : trimBy p t = t := by
  have h : t.dropWhile p = t := by
    cases t with
    | nil => rfl
    | cons c t => simp [hfirst c (by simp)]
  have h' : t.reverse.dropWhile p = t.reverse := by
    cases hr : t.reverse with
    | nil => rfl
    | cons c u =>
      have : t.getLast? = some c := by
        rw [← List.head?_reverse, hr]
        rfl
      simp [hlast c (by simp [this])]
  rw [trimBy, trimEndBy, h, h', List.reverse_reverse]

end Keyring.Text
