import Keyring.Bytes

/-!
# UTF-8

`encode` writes each scalar value with the fewest bytes. `decode?` accepts nothing else: no overlong
forms, no surrogates, no bytes out of place.
-/

namespace Keyring.Text.Utf8

/-- The bytes of one scalar value. -/
def encodeChar (c : Char) : Bytes :=
  let n := c.toNat
  let trail (k : Nat) : UInt8 := UInt8.ofNat (0x80 + k % 64)
  if n < 0x80 then [UInt8.ofNat n]
  else if n < 0x800 then [UInt8.ofNat (0xc0 + n / 64), trail n]
  else if n < 0x10000 then [UInt8.ofNat (0xe0 + n / 4096), trail (n / 64), trail n]
  else [UInt8.ofNat (0xf0 + n / 262144), trail (n / 4096), trail (n / 64), trail n]

/-- A text in UTF-8. -/
def encode (t : Text) : Bytes :=
  t.flatMap encodeChar

/-- The six bits of a continuation byte. -/
def trail? (b : UInt8) : Option Nat :=
  if 0x80 ≤ b.toNat ∧ b.toNat < 0xc0 then some (b.toNat - 0x80) else none

/-- The scalar value `n`, if it is one and needs at least the length that begins at `least`. -/
def scalar? (least n : Nat) : Option Char :=
  if least ≤ n ∧ n.isValidChar then some (Char.ofNat n) else none

/-- Read UTF-8. -/
def decode? : Bytes → Option Text
  | [] => some []
  | b :: bs =>
    let n := b.toNat
    if n < 0x80 then (decode? bs).map (Char.ofNat n :: ·)
    else if n < 0xc0 then none
    else if n < 0xe0 then
      match bs with
      | b₁ :: bs => do
        let c ← scalar? 0x80 ((n - 0xc0) * 64 + (← trail? b₁))
        return c :: (← decode? bs)
      | _ => none
    else if n < 0xf0 then
      match bs with
      | b₁ :: b₂ :: bs => do
        let c ← scalar? 0x800 (((n - 0xe0) * 64 + (← trail? b₁)) * 64 + (← trail? b₂))
        return c :: (← decode? bs)
      | _ => none
    else
      match bs with
      | b₁ :: b₂ :: b₃ :: bs => do
        let c ← scalar? 0x10000
          ((((n - 0xf0) * 64 + (← trail? b₁)) * 64 + (← trail? b₂)) * 64 + (← trail? b₃))
        return c :: (← decode? bs)
      | _ => none

/-! ### Reading what was written -/

theorem scalar?_toNat {least : Nat} {c : Char} (h : least ≤ c.toNat) :
    scalar? least c.toNat = some c := by
  have hc : c.toNat.isValidChar := c.valid
  simp [scalar?, h, hc, Char.ofNat_toNat]

theorem trail?_ofNat (k : Nat) : trail? (UInt8.ofNat (0x80 + k % 64)) = some (k % 64) := by
  have h : (UInt8.ofNat (0x80 + k % 64)).toNat = 0x80 + k % 64 := by
    rw [UInt8.toNat_ofNat']
    omega
  rw [trail?, h, if_pos (by omega)]
  simp

/-- One character is read back, whatever follows. -/
theorem decode?_encodeChar (c : Char) (bs : Bytes) :
    decode? (encodeChar c ++ bs) = (decode? bs).map (c :: ·) := by
  have hn : c.toNat < 0x110000 := by
    have := c.valid
    rcases this with h | h
    · exact Nat.lt_trans h (by decide)
    · exact h.2
  have hof : ∀ k < 256, (UInt8.ofNat k).toNat = k := by
    intro k hk
    rw [UInt8.toNat_ofNat']
    omega
  unfold encodeChar
  simp only
  split
  · rw [List.singleton_append, decode?.eq_def]
    simp only [hof c.toNat (by omega), if_pos, *, Char.ofNat_toNat]
  split
  · have hb := hof (0xc0 + c.toNat / 64) (by omega)
    have hv : (0xc0 + c.toNat / 64 - 0xc0) * 64 + c.toNat % 64 = c.toNat := by omega
    simp only [List.cons_append, List.nil_append, decode?, hb, trail?_ofNat]
    rw [if_neg (by omega), if_neg (by omega), if_pos (by omega)]
    have hs : scalar? 0x80 c.toNat = some c := scalar?_toNat (by omega)
    simp only [Option.bind_eq_bind, Option.bind_some, hv, hs]
    cases decode? bs <;> rfl
  split
  · have hb := hof (0xe0 + c.toNat / 4096) (by omega)
    have hv : ((0xe0 + c.toNat / 4096 - 0xe0) * 64 + c.toNat / 64 % 64) * 64 + c.toNat % 64
        = c.toNat := by omega
    simp only [List.cons_append, List.nil_append, decode?, hb, trail?_ofNat]
    rw [if_neg (by omega), if_neg (by omega), if_neg (by omega), if_pos (by omega)]
    have hs : scalar? 0x800 c.toNat = some c := scalar?_toNat (by omega)
    simp only [Option.bind_eq_bind, Option.bind_some, hv, hs]
    cases decode? bs <;> rfl
  · have hb := hof (0xf0 + c.toNat / 262144) (by omega)
    have hv : (((0xf0 + c.toNat / 262144 - 0xf0) * 64 + c.toNat / 4096 % 64) * 64
        + c.toNat / 64 % 64) * 64 + c.toNat % 64 = c.toNat := by omega
    simp only [List.cons_append, List.nil_append, decode?, hb, trail?_ofNat]
    rw [if_neg (by omega), if_neg (by omega), if_neg (by omega), if_neg (by omega)]
    have hs : scalar? 0x10000 c.toNat = some c := scalar?_toNat (by omega)
    simp only [Option.bind_eq_bind, Option.bind_some, hv, hs]
    cases decode? bs <;> rfl

/-- What is written can be read. -/
theorem decode?_encode (t : Text) : decode? (encode t) = some t := by
  induction t with
  | nil => rfl
  | cons c t ih => rw [encode, List.flatMap_cons, decode?_encodeChar, ← encode, ih]; rfl

end Keyring.Text.Utf8
