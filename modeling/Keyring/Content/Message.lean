import Keyring.Account
import Keyring.Content.Record
import Keyring.Envelope

/-!
# Encrypted content

A content field is a record in an envelope, as text. Sender and recipient may name an encoding;
otherwise that of their settings applies. `Message.read` decides on the kind first, then on text,
envelope, keys, tag and padding, and on the record last.
-/

namespace Keyring.Message

/-- The name of the encoding: the one asked for, or else that of the settings. -/
def encodingName (asked : Option Text) (settings : Envelope.Encoding) : Text :=
  asked.getD settings.name

/-- A record for the holder of a public key text, in the encoding of that name. -/
def write (sender : Account) (recipient : Text) (record : Content) (encoding : Text) (iv : Bytes) :
    Outcome Text := do
  return Envelope.toText (← Envelope.encrypt sender.wif recipient record.toBytes iv) encoding

/-- The record of the kind of that name in a content field from the holder of a public key text. -/
def read (recipient : Account) (sender text kindName encoding : Text) : Outcome Content := do
  match ContentKind.named? kindName with
  | none => throw (.contentKind kindName)
  | some kind =>
    let envelope ← Envelope.ofText text encoding
    let plaintext ← Envelope.decrypt recipient.wif sender envelope
    match Content.ofBytes? kind plaintext with
    | some record => return record
    | none => throw (.contentRejected kindName)

end Keyring.Message
