import Keyring.Key.Secret

/-!
# Public keys as text

A public key is written as a label of three characters and checked Base58 of its 33 bytes, 53
characters in all. A second form, `PUB_K1_`, is read too; its checksum may take in the suffix `K1`.
The label says nothing about the key: `relabel` exchanges it.
-/

namespace Keyring.PublicKey

/-- The label of the wallet's own network. -/
def fio : Text := "FIO".toList

/-- The label that the curve's own key text carries. -/
def eos : Text := "EOS".toList

/-- The start of the second form. -/
def k1Start : Text := "PUB_K1_".toList

/-- The suffix that the checksum of the second form may take in. -/
def k1Suffix : Bytes := [0x4b, 0x31]

/-- The length of labelled key text. -/
def textLength : Nat := 53

/-- The length of a label. -/
def labelLength : Nat := 3

/-- The text of a key under a label. -/
def labelled (label : Text) (key : Bytes) : Text :=
  label ++ Base58.KeyText.encode key []

/-- The text of a key of 33 bytes under a label. -/
def toText (key : Bytes) (label : Text) : Outcome Text := do
  if key.length ≠ 33 then throw (.pointLength key.length)
  return labelled label key

/-- Exchange the label of key text; key and checksum stay as they are. -/
def relabel (text label : Text) : Outcome Text := do
  if text.length ≠ textLength then throw (.publicTextLength text.length)
  if label.length ≠ labelLength then throw (.labelLength label)
  return label ++ text.drop labelLength

/-- The Base58 part of key text and the checksum suffixes that it may have. -/
def payload (text : Text) (labels : List Text) : Outcome (Text × List Bytes) :=
  if k1Start.isPrefixOf text then
    .ok (text.drop k1Start.length, [k1Suffix, []])
  else if text.length ≠ textLength then
    .error (.publicTextLength text.length)
  else if text.take labelLength ∉ labels then
    .error (.labelUnknown (text.take labelLength))
  else
    .ok (text.drop labelLength, [[]])

/-- Whether a byte string has the shape of a compressed point. -/
def isCompressed (key : Bytes) : Bool :=
  key.length = 33 && (key.head? = some 2 || key.head? = some 3)

/-- Read key text under one of the labels, or in the second form. -/
def ofText (text : Text) (labels : List Text) : Outcome Bytes := do
  let (body, suffixes) ← payload text labels
  if body.length ≠ textLength - labelLength then throw (.payloadLength body.length)
  let key ← Base58.KeyText.decode body suffixes
  if !isCompressed key then throw .notCompressed
  return key

/-- The labels that are read unless others are asked for. -/
def usualLabels : List Text := [fio, eos]

/-- The public key text of a private key in wallet import format: the curve's own text under
`curveLabel`, then shown under `label`. -/
def ofWif (wif label curveLabel : Text) : Outcome Text := do
  let key ← SecretKey.publicKey (← SecretKey.ofWif wif)
  relabel (← toText key curveLabel) label

end Keyring.PublicKey
