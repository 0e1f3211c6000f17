/-
NostrMesh/Payments/Transform.lean

Invoices as objects of the program, and where they come from: rows of the
database, request bodies and answers of payment processors (`transform.ts`,
and `getInvoice` of the LNbits processor).

A field may hold anything that a request body can hold, or nothing.  The
behaviour of the runtime and of the database driver outside of the common
cases is the parameter `Platform`.
-/
import NostrMesh.Lib.Json
import NostrMesh.Payments.Ledger

namespace NostrMesh.Payments

open Json (Value)

/-! ### The platform -/

/-- A `Date`: a time in milliseconds, or an invalid date. -/
inductive JsDate
  | invalid
  | time (ms : ℤ)
  deriving DecidableEq, Repr

/-- `new Date(ms)`. -/
def JsDate.ofMs (ms : ℤ) : JsDate := if ms.natAbs ≤ 8640000000000000 then .time ms else .invalid

structure Platform where
  /-- The text that an array or an object converts to. -/
  textOf : Json → String
  /-- `Buffer.from(v, "hex")` of a value that is not a string. -/
  bufferFrom : Json → Except String Bytes
  /-- The text that the database driver sends for a value that is not a
  string. -/
  parameterText : Json → String
  /-- `new Date(text)`. -/
  parseDate : String → JsDate
  /-- `new Date(ms).toISOString()`. -/
  toISOString : ℤ → String
  hmacSha256 : (secret data : Bytes) → Bytes

variable (P : Platform)

/-- `toBuffer`. -/
def toBuffer : Value → Except String Bytes
  | some (.str s) => .ok (Bytes.ofHex s)
  | some v => P.bufferFrom v
  | none => .error "The first argument must be of type string or an instance of Buffer. Received undefined"

/-- `toDate` of a field that is a string. -/
def dateField (v : Value) : Option JsDate := (Json.asString v).map P.parseDate

/-! ### Invoices -/

/-- An invoice as an object; a `confirmedAt` that is null or undefined is
`none`. -/
structure Invoice where
  id : Value
  pubkey : Value
  amountRequested : Option ℤ
  amountPaid : Option ℤ
  unit : Value
  status : Value
  confirmedAt : Option JsDate

/-- A column of an enumeration, null or its text. -/
def columnValue (text : Option String) : Value := some ((text.map Json.str).getD .null)

def fromDBInvoice (row : InvoiceRow) : Invoice where
  id := some (.str row.id)
  pubkey := some (.str (Bytes.toHex row.pubkey))
  amountRequested := some row.amountRequested
  amountPaid := row.amountPaid
  unit := columnValue (row.unit.map InvoiceUnit.text)
  status := columnValue (row.status.map InvoiceStatus.text)
  confirmedAt := row.confirmedAt.map JsDate.time

def fromZebedeeInvoice (body : Json) : Except String Invoice :=
  match Json.toBigInt P.textOf (body.prop "amount") with
  | .error e => .error e
  | .ok amount => .ok {
      id := body.prop "id"
      pubkey := body.prop "internalId"
      amountRequested := some amount
      amountPaid := none
      unit := body.prop "unit"
      status := body.prop "status"
      confirmedAt := dateField P (body.prop "confirmedAt") }

/-- The status of a table of names, if the field is one of them. -/
def statusOf (table : List (String × InvoiceStatus)) (v : Value) : Value :=
  ((Json.asString v).bind fun s => (table.find? fun entry => entry.1 = s).map Prod.snd).map
    fun status => .str status.text

def nodelessStatuses : List (String × InvoiceStatus) :=
  [("new", .pending), ("pending_confirmation", .pending), ("underpaid", .pending),
    ("in_flight", .pending), ("paid", .completed), ("overpaid", .completed), ("expired", .expired)]

def fromNodelessInvoice (invoice : Json) : Except String Invoice :=
  match Json.toBigInt P.textOf (invoice.prop "satsAmount") with
  | .error e => .error e
  | .ok amount => .ok {
      id := invoice.prop "id"
      pubkey := invoice.path ["metadata", "requestId"]
      amountRequested := some amount
      amountPaid := none
      unit := invoice.path ["metadata", "unit"]
      status := statusOf nodelessStatuses (invoice.prop "status")
      confirmedAt := dateField P (invoice.prop "paidAt") }

def openNodeStatuses : List (String × InvoiceStatus) :=
  [("expired", .expired), ("refunded", .expired), ("unpaid", .pending), ("processing", .pending),
    ("underpaid", .pending), ("paid", .completed)]

/-- `fromOpenNodeInvoice`, at the time `now`. -/
def fromOpenNodeInvoice (now : ℤ) (body : Json) : Except String Invoice :=
  let amount := if (Json.asNumber (body.prop "amount")).isSome then body.prop "amount"
    else body.prop "price"
  match Json.toBigInt P.textOf amount with
  | .error e => .error e
  | .ok amount => .ok {
      id := body.prop "id"
      pubkey := body.prop "order_id"
      amountRequested := some amount
      amountPaid := none
      unit := some (.str InvoiceUnit.sats.text)
      status := statusOf openNodeStatuses (body.prop "status")
      confirmedAt := if Json.asString (body.prop "status") = some "paid" then some (.time now)
        else none }

/-! ### Answers of the payment processors -/

/-- What `getInvoice` of a payment processor answers.  The fields from
`pubkey` on are `none` where the object has no such property. -/
structure PartialInvoice where
  id : Value
  status : Value
  confirmedAt : Option JsDate
  pubkey : Option Value
  amountRequested : Option (Option ℤ)
  amountPaid : Option (Option ℤ)
  unit : Option Value

/-- Reading a property that is not there gives undefined. -/
def PartialInvoice.toInvoice (invoice : PartialInvoice) : Invoice where
  id := invoice.id
  pubkey := invoice.pubkey.join
  amountRequested := invoice.amountRequested.join
  amountPaid := invoice.amountPaid.join
  unit := invoice.unit.join
  status := invoice.status
  confirmedAt := invoice.confirmedAt

/-- `mergeDeepLeft(update)(invoice)`: the properties that the update has win. -/
def mergeDeepLeft (update : PartialInvoice) (invoice : Invoice) : Invoice where
  id := update.id
  pubkey := update.pubkey.getD invoice.pubkey
  amountRequested := update.amountRequested.getD invoice.amountRequested
  amountPaid := update.amountPaid.getD invoice.amountPaid
  unit := update.unit.getD invoice.unit
  status := update.status
  confirmedAt := update.confirmedAt

/-- A payment as LNbits reports it; the amount is in millisatoshis and the
time in seconds. -/
structure LNbitsPayment where
  paymentHash : String
  internalId : Value
  amount : ℤ
  paid : Bool
  time : ℤ

/-- `LNbitsPaymentsProcessor.getInvoice`. -/
def lnbitsInvoice (payment : LNbitsPayment) : PartialInvoice where
  id := some (.str payment.paymentHash)
  status := some (.str (if payment.paid then InvoiceStatus.completed else .pending).text)
  confirmedAt := if payment.paid then some (.ofMs (payment.time * 1000)) else none
  pubkey := some payment.internalId
  amountRequested := some (some (payment.amount / 1000))
  amountPaid := some (if payment.paid then some (payment.amount / 1000) else none)
  unit := some (some (.str InvoiceUnit.sats.text))

end NostrMesh.Payments
