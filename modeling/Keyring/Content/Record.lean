import Keyring.Document.Checked
import Keyring.Document.Json
import Keyring.Text.Utf8

/-!
# Content records

Two kinds of records travel in envelopes: a request for funds, sent by the payee, and a record of a
payment, sent by the payer. `Content.toBytes` writes a record as compact JSON with its fields in
declared order and without those that are not set; `Content.ofBytes?` reads it.
-/

namespace Keyring

/-- A request for funds. -/
structure FundsRequest where
  payeeAddress : Text
  amount : Text
  chainCode : Text
  tokenCode : Text
  memo : Option Text
  hash : Option Text
  offlineUrl : Option Text
  deriving DecidableEq, Repr

/-- A record of a payment. -/
structure PaymentRecord where
  payerAddress : Text
  payeeAddress : Text
  amount : Text
  chainCode : Text
  tokenCode : Text
  status : Text
  obtId : Text
  memo : Option Text
  hash : Option Text
  offlineUrl : Option Text
  deriving DecidableEq, Repr

/-- A record of either kind. -/
inductive Content
  | request (r : FundsRequest)
  | payment (r : PaymentRecord)
  deriving DecidableEq, Repr

/-- The kinds of records. -/
inductive ContentKind
  | request
  | payment
  deriving DecidableEq, Repr

namespace ContentKind

/-- The name of a kind on the chain. -/
def name : ContentKind → Text
  | request => "new_funds_content".toList
  | payment => "record_obt_data_content".toList

/-- The kind of a name. -/
def named? (t : Text) : Option ContentKind :=
  if t = request.name then some request else if t = payment.name then some payment else none

end ContentKind

namespace FundsRequest

/-- The fields in declared order with their values. -/
def fields (r : FundsRequest) : List (String × Option Text) :=
  [("payee_public_address", some r.payeeAddress), ("amount", some r.amount),
   ("chain_code", some r.chainCode), ("token_code", some r.tokenCode), ("memo", r.memo),
   ("hash", r.hash), ("offline_url", r.offlineUrl)]

/-- The names of the fields. -/
def names : List String :=
  ["payee_public_address", "amount", "chain_code", "token_code", "memo", "hash", "offline_url"]

open Checked in
/-- Read a request from the entries of a mapping. -/
def ofEntries (es : Entries) : Checked FundsRequest :=
  only names es mk
    |> (ap · (required es "payee_public_address"))
    |> (ap · (required es "amount"))
    |> (ap · (required es "chain_code"))
    |> (ap · (required es "token_code"))
    |> (ap · (optional es "memo"))
    |> (ap · (optional es "hash"))
    |> (ap · (optional es "offline_url"))

end FundsRequest

namespace PaymentRecord

/-- The fields in declared order with their values. -/
def fields (r : PaymentRecord) : List (String × Option Text) :=
  [("payer_public_address", some r.payerAddress), ("payee_public_address", some r.payeeAddress),
   ("amount", some r.amount), ("chain_code", some r.chainCode), ("token_code", some r.tokenCode),
   ("status", some r.status), ("obt_id", some r.obtId), ("memo", r.memo), ("hash", r.hash),
   ("offline_url", r.offlineUrl)]

/-- The names of the fields. -/
def names : List String :=
  ["payer_public_address", "payee_public_address", "amount", "chain_code", "token_code", "status",
   "obt_id", "memo", "hash", "offline_url"]

open Checked in
/-- Read a payment from the entries of a mapping. -/
def ofEntries (es : Entries) : Checked PaymentRecord :=
  only names es mk
    |> (ap · (required es "payer_public_address"))
    |> (ap · (required es "payee_public_address"))
    |> (ap · (required es "amount"))
    |> (ap · (required es "chain_code"))
    |> (ap · (required es "token_code"))
    |> (ap · (defaulted es "status"))
    |> (ap · (defaulted es "obt_id"))
    |> (ap · (optional es "memo"))
    |> (ap · (optional es "hash"))
    |> (ap · (optional es "offline_url"))

end PaymentRecord

namespace Content

/-- The kind of a record. -/
def kind : Content → ContentKind
  | request _ => .request
  | payment _ => .payment

/-- The fields of a record in declared order with their values. -/
def fields : Content → List (String × Option Text)
  | request r => r.fields
  | payment r => r.fields

/-- Read a record of a kind from the entries of a mapping. -/
def ofEntries (kind : ContentKind) (es : Entries) : Checked Content :=
  match kind with
  | .request => Checked.sorted ((FundsRequest.ofEntries es).map request)
  | .payment => Checked.sorted ((PaymentRecord.ofEntries es).map payment)

/-- The members that a record is written with. -/
def members (c : Content) : List (Text × Text) :=
  c.fields.filterMap fun f => f.2.map (f.1.toList, ·)

/-- A record as JSON. -/
def toText (c : Content) : Text :=
  Json.object c.members

/-- A record as JSON in UTF-8. -/
def toBytes (c : Content) : Bytes :=
  Text.Utf8.encode c.toText

/-- Read a record of a kind from JSON. -/
def ofText? (kind : ContentKind) (t : Text) : Option Content :=
  match Json.read? t with
  | some (.map es) => (ofEntries kind es).toOption
  | _ => none

/-- Read a record of a kind from JSON in UTF-8. -/
def ofBytes? (kind : ContentKind) (bs : Bytes) : Option Content :=
  (Text.Utf8.decode? bs).bind (ofText? kind)

/-- The declared fields are the ones that are written. -/
theorem names_fields_request (r : FundsRequest) : r.fields.map (·.1) = FundsRequest.names := rfl

/-- The declared fields are the ones that are written. -/
theorem names_fields_payment (r : PaymentRecord) : r.fields.map (·.1) = PaymentRecord.names := rfl

end Content

end Keyring
