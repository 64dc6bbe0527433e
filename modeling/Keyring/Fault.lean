import Keyring.Text.Quoted

/-!
# Faults

`Fault` lists every cause for which an operation on keys, mnemonics or messages is refused. A cause
belongs to a `Family`; families have a machine-readable code and form a tree under `general`.
`Fault.message` words each cause.
-/

namespace Keyring

/-- The families of faults. -/
inductive Family
  /-- The common root. -/
  | general
  /-- Key agreement and decryption. -/
  | crypto
  /-- Public key bytes that are no point of the curve. -/
  | pointDecode
  /-- An envelope whose tag does not verify. -/
  | authentication
  /-- A decrypted text that is not filled up to whole blocks as it should be. -/
  | padding
  /-- An envelope of impossible length, or text that is no envelope. -/
  | envelope
  /-- A decrypted text that is no content record. -/
  | content
  /-- Key text of wrong length, label or checksum. -/
  | key
  /-- Text that is not Base58. -/
  | base58
  /-- A phrase that is no mnemonic. -/
  | mnemonic
  /-- A key index or key count out of range. -/
  | keyIndex
  /-- More quiz questions than words. -/
  | quizCount
  /-- A key with too few fields for an actor name. -/
  | exhausted
  /-- A derivation that yields no key. -/
  | derivation
  /-- Text that is no integer literal. -/
  | literal
  /-- A number that does not fit its field in a serialized key. -/
  | fieldWidth
  deriving DecidableEq, Repr

namespace Family

/-- The family directly above. -/
def parent : Family → Option Family
  | general | literal | fieldWidth => none
  | pointDecode | authentication | padding => some crypto
  | _ => some general

/-- A family and the families above it; `fuel` bounds the number of steps up. -/
def lineageUpTo : (fuel : Nat) → Family → List Family
  | 0, f => [f]
  | fuel + 1, f =>
    match parent f with
    | some p => f :: lineageUpTo fuel p
    | none => [f]

/-- A family and all families above it; the tree has three levels. -/
def lineage (f : Family) : List Family :=
  lineageUpTo 2 f

/-- The machine-readable code; literals and field widths have none. -/
def code : Family → Option String
  | general => some "fio-error"
  | crypto => some "crypto-error"
  | pointDecode => some "point-decode-failed"
  | authentication => some "authentication-failed"
  | padding => some "padding-invalid"
  | envelope => some "envelope-malformed"
  | content => some "content-decode-failed"
  | key => some "malformed-key"
  | base58 => some "invalid-base58"
  | mnemonic => some "invalid-mnemonic"
  | keyIndex => some "invalid-derivation-index"
  | quizCount => some "invalid-quiz-count"
  | exhausted => some "derivation-exhausted"
  | derivation => some "key-derivation-failed"
  | literal | fieldWidth => none

/-- The message of a family that needs no further detail. -/
def standing : Family → Option String
  | authentication => some "envelope authentication failed"
  | padding => some "invalid padding in decrypted content"
  | exhausted => some "key has too many trailing zero bytes"
  | _ => none

end Family

/-- What is told about a fault: its family, a message and a code. -/
structure Notice where
  family : Family
  message : String
  code : Option String

/-- A notice of a family. A message left out is the standing one, and a code left out the family's.
-/
def Family.notice (f : Family) (message code : Option String) : Notice :=
  ⟨f, (message.or f.standing).getD "", code.or f.code⟩

/-- The causes for which an operation is refused. -/
inductive Fault
  /-- A character outside the Base58 alphabet. -/
  | alienSymbol (c : Char)
  /-- Base58Check text of fewer than four bytes. -/
  | checkedTooShort
  | checkedMismatch
  /-- Public key text of fewer than five bytes. -/
  | keyTextTooShort
  | keyTextMismatch
  | secretLength (n : Nat)
  | wifLength (n : Nat)
  | wifVersion (b : UInt8)
  | wifFlag
  /-- A private key that is zero, not below the group order or not 32 bytes long. -/
  | secretRange
  | pointLength (n : Nat)
  | publicTextLength (n : Nat)
  | labelLength (label : Text)
  | labelUnknown (label : Text)
  | payloadLength (n : Nat)
  /-- A decoded public key that is not 33 bytes with marker 2 or 3. -/
  | notCompressed
  | offCurve
  /-- A child is asked of an extended public key. -/
  | publicParent
  /-- The left half of a derivation code is not below the group order. -/
  | childTooLarge
  | childZero
  /-- A part of a path with an index out of range, as written. -/
  | pathIndex (part : Text)
  | seedLength (n : Nat)
  | masterRange
  | notAnInteger (t : Text)
  /-- Text that begins with more digits than an integer literal may have. -/
  | literalTooLong (digits : Nat)
  | fieldOverflow
  | fieldsExhausted
  | phraseLength
  | emptyWord
  /-- A phrase with an unknown word or a wrong checksum. -/
  | phraseRejected
  | indexRange (i : Int)
  | noKeys
  | quizRange (count : Int) (words : Nat)
  | ivLength (n : Nat)
  | envelopeTooShort (n : Nat)
  | envelopeMisaligned (n : Nat)
  /-- Text that is no envelope in the encoding of that name. -/
  | envelopeText (encoding : Text)
  | tagMismatch
  | badPadding
  | contentKind (name : Text)
  /-- A decrypted text that is no record of the kind of that name. -/
  | contentRejected (name : Text)
  deriving DecidableEq, Repr

namespace Fault

/-- The family of a cause. -/
def family : Fault → Family
  | alienSymbol _ => .base58
  | checkedTooShort | checkedMismatch | keyTextTooShort | keyTextMismatch | secretLength _
  | wifLength _ | wifVersion _ | wifFlag | secretRange | pointLength _ | publicTextLength _
  | labelLength _ | labelUnknown _ | payloadLength _ | notCompressed => .key
  | offCurve => .pointDecode
  | publicParent | childTooLarge | childZero | pathIndex _ | seedLength _ | masterRange =>
    .derivation
  | notAnInteger _ | literalTooLong _ => .literal
  | fieldOverflow => .fieldWidth
  | fieldsExhausted => .exhausted
  | phraseLength | emptyWord | phraseRejected => .mnemonic
  | indexRange _ | noKeys => .keyIndex
  | quizRange _ _ => .quizCount
  | ivLength _ | envelopeTooShort _ | envelopeMisaligned _ | envelopeText _ => .envelope
  | tagMismatch => .authentication
  | badPadding => .padding
  | contentKind _ | contentRejected _ => .content

/-- A text in quotes, as a string. -/
def inQuotes (t : Text) : String :=
  String.ofList (Text.quoted t)

/-- The wording of a cause. -/
def message : Fault → String
  | alienSymbol c => "invalid base58 character " ++ inQuotes [c]
  | checkedTooShort => "Base58Check string too short"
  | checkedMismatch => "Base58Check checksum mismatch"
  | keyTextTooShort => "checked key string too short"
  | keyTextMismatch => "key checksum mismatch"
  | secretLength n => s!"Invalid private key length: {n}"
  | wifLength n => s!"Invalid WIF payload length: {n}"
  | wifVersion b => "Invalid WIF version byte: 0x" ++ String.ofList (Text.numeral 16 b.toNat)
  | wifFlag => "Invalid WIF compression flag"
  | secretRange => "private key is not a valid secp256k1 scalar"
  | pointLength n => s!"Invalid compressed public key length: {n}"
  | publicTextLength n => s!"public key should be 53 chars, got {n}"
  | labelLength l => "key prefix should be 3 chars, got " ++ inQuotes l
  | labelUnknown l => "unsupported public key prefix " ++ inQuotes l
  | payloadLength n => s!"public key payload should be 50 chars, got {n}"
  | notCompressed => "public key is not a compressed secp256k1 key"
  | offCurve => "public key is not a point on secp256k1"
  | publicParent => "Cannot derive child keys from a public extended key"
  | childTooLarge => "Derived key is invalid (il >= curve order)"
  | childZero => "Derived key is invalid (key == 0)"
  | pathIndex part => "Derivation index out of range: " ++ String.ofList part
  | seedLength n => s!"Seed must be 16-64 bytes, got {n}"
  | masterRange => "Invalid seed (derived key out of range)"
  | notAnInteger t =>
    "invalid literal for int() with base 10: " ++ String.ofList ((Text.quoted t).take 200)
  | literalTooLong digits =>
    s!"Exceeds the limit (4300 digits) for integer string conversion: value has {digits} digits; "
      ++ "use sys.set_int_max_str_digits() to increase the limit"
  | fieldOverflow => "number out of range for its field"
  | fieldsExhausted => "key has too many trailing zero bytes"
  | phraseLength => "mnemonic length should be 12, 15, 18, 21, or 24 words"
  | emptyWord => "invalid mnemonic, got an empty word"
  | phraseRejected => "invalid mnemonic, unknown word or bad checksum"
  | indexRange i => s!"derivation index must be in [0, 2^31), got {i}"
  | noKeys => "cannot derive 0 keys"
  | quizRange count words => s!"cannot ask {count} questions about a {words} word mnemonic"
  | ivLength n => s!"IV must be 16 bytes, got {n}"
  | envelopeTooShort n => s!"envelope is {n} bytes, need at least 64"
  | envelopeMisaligned n => s!"ciphertext length {n} is not a multiple of 16"
  | envelopeText encoding => "envelope is not valid " ++ String.ofList encoding ++ " text"
  | tagMismatch => "envelope authentication failed"
  | badPadding => "invalid padding in decrypted content"
  | contentKind name => "unknown content type " ++ inQuotes name
  | contentRejected name => "decrypted content is not a valid " ++ String.ofList name ++ " record"

/-- What is told about a cause. -/
def notice (f : Fault) : Notice :=
  f.family.notice (some f.message) none

end Fault

/-- The outcome of an operation that can be refused. -/
abbrev Outcome := Except Fault

end Keyring
