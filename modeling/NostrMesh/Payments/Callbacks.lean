/-
NostrMesh/Payments/Callbacks.lean

The callback controllers of the four payment processors and the maintenance
worker, as programs over what they do outside of their own memory: read the
clock, ask the payment processor, send statements to the database, notify.
Another handler can get in between at each of these operations.

`eff` says what an operation does to the tables: a statement may fail, and
its answer may get lost.  The payment processor may answer anything.
`respond` is the same without failures.
-/
import NostrMesh.Lib.Program
import NostrMesh.Payments.Service

namespace NostrMesh.Payments

open Interleaving
open Json (Value)

/-! ### Operations -/

inductive Op
  | now
  | getInvoice (id : Value)
  | findById (id : String)
  | findPendingInvoices (offset limit : ℕ)
  | updateStatus (id status : Value)
  | confirmInvoice (invoice : Invoice)
  | sendInvoiceUpdateNotification (invoice : Invoice)

abbrev Res : Op → Type
  | .now => ℤ
  | .getInvoice _ => Except String PartialInvoice
  | .findById _ => Except String (Option InvoiceRow)
  | .findPendingInvoices _ _ => Except String (List InvoiceRow)
  | .updateStatus _ _ => Except String (Option InvoiceRow)
  | .confirmInvoice _ => Except String Unit
  | .sendInvoiceUpdateNotification _ => Except String Unit

abbrev Handler (α : Type) := Prog Op Res α

abbrev perform (o : Op) : Handler (Res o) := Prog.perform o

/-- The response, or the error that the handler throws; a maintenance pass
just ends. -/
inductive Answer
  | sent (status : ℕ) (body : String)
  | thrown (error : String)
  | ended
  deriving DecidableEq, Repr

def forbidden : Answer := .sent 403 "Forbidden"

/-! ### Requests -/

/-- The environment variables; an empty `SECRET` counts as one that is not
set. -/
structure Environment where
  secret : String
  nodelessWebhookSecret : Option String
  deriving DecidableEq, Repr

/-- A request with what its controller reads of it, or a maintenance pass. -/
inductive Request
  | openNode (body : Json)
  | zebedee (remoteAddress : String) (body : Json)
  | nodeless (signature : Option String) (rawBody : Option Bytes) (body : Json)
  | lnbits (hmac : Value) (body : Json)
  | maintenance

variable (P : Platform) (settings : Settings) (environment : Environment)

/-! ### The controllers -/

def Invoice.IsCompleted (invoice : Invoice) : Prop :=
  Json.asString invoice.status = some InvoiceStatus.completed.text

instance (invoice : Invoice) : Decidable invoice.IsCompleted :=
  inferInstanceAs (Decidable (_ = _))

/-- The confirmation and the notification that end a handler. -/
def confirmAndNotify (confirmed notified : Invoice) (body : String) : Handler Answer := do
  match ← perform (.confirmInvoice confirmed) with
  | .error e => return .thrown e
  | .ok () =>
      match ← perform (.sendInvoiceUpdateNotification notified) with
      | .error e => return .thrown e
      | .ok () => return .sent 200 body

/-- What three of the controllers do with the invoice of the request: they
update its status, and confirm what `argument` makes of the invoice and the
updated row. -/
def updateAndConfirm (invoice : Invoice) (argument : Invoice → Invoice → Invoice) (body : String) :
    Handler Answer := do
  match ← perform (.updateStatus invoice.id invoice.status) with
  | .error e => return .thrown e
  | .ok none => return .thrown "Cannot read properties of undefined (reading 'status')"
  | .ok (some row) =>
      let updatedInvoice := fromDBInvoice row
      if ¬ updatedInvoice.IsCompleted ∧ updatedInvoice.confirmedAt = none then return .sent 200 ""
      else
        confirmAndNotify (argument invoice updatedInvoice)
          { updatedInvoice with amountPaid := invoice.amountRequested } body

/-- The argument of `confirmInvoice` in the OpenNode controller. -/
def openNodeArgument (invoice updatedInvoice : Invoice) : Invoice where
  id := invoice.id
  pubkey := invoice.pubkey
  amountRequested := none
  amountPaid := updatedInvoice.amountRequested
  unit := none
  status := updatedInvoice.status
  confirmedAt := updatedInvoice.confirmedAt

/-- `OpenNodeCallbackController.handleRequest`. -/
def openNodeCallback (body : Json) : Handler Answer := do
  let now ← perform .now
  match fromOpenNodeInvoice P now body with
  | .error e => return .thrown e
  | .ok invoice => updateAndConfirm invoice openNodeArgument "OK"

/-- The argument of `confirmInvoice` in the Zebedee controller. -/
def zebedeeArgument (invoice updatedInvoice : Invoice) : Invoice where
  id := invoice.id
  pubkey := invoice.pubkey
  amountRequested := none
  amountPaid := invoice.amountRequested
  unit := none
  status := updatedInvoice.status
  confirmedAt := invoice.confirmedAt

/-- `ZebedeeCallbackController.handleRequest`. -/
def zebedeeCallback (remoteAddress : String) (body : Json) : Handler Answer :=
  if settings.zebedeeIpWhitelist ≠ [] ∧ remoteAddress ∉ settings.zebedeeIpWhitelist then
    return forbidden
  else if settings.processor ≠ "zebedee" then return forbidden
  else
    match fromZebedeeInvoice P body with
    | .error e => return .thrown e
    | .ok invoice => updateAndConfirm invoice zebedeeArgument "OK"

/-- The argument of `confirmInvoice` in the Nodeless controller. -/
def nodelessArgument (invoice _updatedInvoice : Invoice) : Invoice :=
  { invoice with amountPaid := invoice.amountRequested }

/-- The invoice that the Nodeless controller makes of a request body. -/
def nodelessInvoice (now : ℤ) (body : Json) : Json :=
  Json.ofFields
    [("id", body.prop "uuid"), ("status", body.prop "status"), ("satsAmount", body.prop "amount"),
      ("metadata", body.prop "metadata"),
      ("paidAt", if Json.asString (body.prop "status") = some "paid" then
        some (.str (P.toISOString now)) else some .null)]

/-- `NodelessCallbackController.handleRequest`. -/
def nodelessCallback (signature : Option String) (rawBody : Option Bytes) (body : Json) :
    Handler Answer :=
  match environment.nodelessWebhookSecret, rawBody with
  | none, _ => return .thrown "The \"key\" argument must be of type string"
  | some _, none =>
      return .thrown "The \"data\" argument must be of type string or an instance of Buffer"
  | some secret, some rawBody =>
      if signature ≠ some (Bytes.toHex (P.hmacSha256 (Bytes.ofText secret) rawBody)) then
        return forbidden
      else if settings.processor ≠ "nodeless" then return forbidden
      else do
        let now ← perform .now
        match fromNodelessInvoice P (nodelessInvoice P now body) with
        | .error e => return .thrown e
        | .ok invoice => updateAndConfirm invoice nodelessArgument "\x7b\"status\":\"ok\"\x7d"

/-- `/^[0-9]{1,20}:[0-9a-f]{64}$/`, with its two parts. -/
def splitHmac (hmac : String) : Option (String × String) :=
  let digits := hmac.toList.takeWhile Char.isDigit
  match hmac.toList.drop digits.length with
  | ':' :: signature =>
      if 1 ≤ digits.length ∧ digits.length ≤ 20 ∧ signature.length = 64 ∧
          signature.all Bytes.isLowerHex then
        some (String.ofList digits, String.ofList signature)
      else none
  | _ => none

/-- The end of validity of an `hmac` parameter with the right signature. -/
def hmacExpiry (hmac : Value) : Except String (Option Js.Num) :=
  match (Json.asString hmac).bind splitHmac with
  | none => .ok none
  | some (expiry, signature) =>
      if environment.secret = "" then .error "SECRET environment variable not set"
      else
        let key := P.hmacSha256 (Bytes.ofText environment.secret)
          (Bytes.ofText "lnbits-callback-hmac-key")
        if Bytes.toHex (P.hmacSha256 key (Bytes.ofText expiry)) = signature then
          .ok (some (Js.parseInt 10 expiry))
        else .ok none

/-- The end of `LNbitsCallbackController.handleRequest`, for a payment hash. -/
def lnbitsUpdate (paymentHash : String) : Handler Answer := do
  match ← perform (.getInvoice (some (.str paymentHash))) with
  | .error e => return .thrown e
  | .ok answer =>
      let invoice := answer.toInvoice
      match ← perform (.findById paymentHash) with
      | .error e => return .thrown e
      | .ok none => return .sent 404 "No such invoice"
      | .ok (some storedInvoice) =>
          match ← perform (.updateStatus invoice.id invoice.status) with
          | .error e => return .thrown e
          | .ok _ =>
              if ¬ invoice.IsCompleted ∧ invoice.confirmedAt = none then return .sent 200 ""
              else if storedInvoice.status = some .completed then
                return .sent 409 "Invoice is already marked paid"
              else
                confirmAndNotify { invoice with amountPaid := invoice.amountRequested }
                  { invoice with amountPaid := invoice.amountRequested } "OK"

/-- `LNbitsCallbackController.handleRequest`. -/
def lnbitsCallback (hmac : Value) (body : Json) : Handler Answer :=
  if settings.processor ≠ "lnbits" then return forbidden
  else
    match hmacExpiry P environment hmac with
    | .error e => return .thrown e
    | .ok none => return forbidden
    | .ok (some expiry) => do
        let now : ℤ ← perform .now
        if !(now : Js.Num).lt expiry then return forbidden
        else
          match Json.asString (body.prop "payment_hash") with
          | none => return .sent 400 "Malformed body"
          | some paymentHash =>
              if Js.length paymentHash ≠ 64 then return .sent 400 "Malformed body"
              else lnbitsUpdate paymentHash

/-! ### The maintenance worker -/

/-- The body of the loop of `onSchedule`; its errors are caught. -/
def settleInvoice (row : InvoiceRow) : Handler Unit := do
  match ← perform (.getInvoice (some (.str row.id))) with
  | .error _ => return ()
  | .ok updatedInvoice =>
      match Json.asString updatedInvoice.id, Json.asString updatedInvoice.status with
      | some _, some status =>
          match ← perform (.updateStatus updatedInvoice.id updatedInvoice.status) with
          | .error _ => return ()
          | .ok _ =>
              if row.status.map InvoiceStatus.text ≠ some status ∧
                  status = InvoiceStatus.completed.text ∧ updatedInvoice.confirmedAt ≠ none then do
                let update := { mergeDeepLeft updatedInvoice (fromDBInvoice row) with
                  amountPaid := some row.amountRequested }
                let _ ← perform (.confirmInvoice update)
                let _ ← perform (.sendInvoiceUpdateNotification update)
                return ()
              else return ()
      | _, _ => return ()

def settleInvoices : List InvoiceRow → Handler Unit
  | [] => return ()
  | row :: rows => do
      settleInvoice row
      settleInvoices rows

/-- `MaintenanceWorker.onSchedule`. -/
def onSchedule : Handler Answer :=
  if !settings.paymentsEnabled then return .ended
  else do
    match ← perform (.findPendingInvoices 0 10) with
    | .error e => return .thrown e
    | .ok rows =>
        settleInvoices rows
        return .ended

/-- The handler of a request. -/
def handle : Request → Handler Answer
  | .openNode body => openNodeCallback P body
  | .zebedee remoteAddress body => zebedeeCallback P settings remoteAddress body
  | .nodeless signature rawBody body =>
      nodelessCallback P settings environment signature rawBody body
  | .lnbits hmac body => lnbitsCallback P settings environment hmac body
  | .maintenance => onSchedule settings

/-! ### What operations do -/

def pendingInvoices (L : Ledger) : List InvoiceRow :=
  L.invoices.filter fun row => row.status = some .pending

/-- What an operation answers and does to the tables. -/
def eff : (o : Op) → Ledger → Res o → Ledger → Prop
  | .now => fun L _ L' => L' = L
  | .getInvoice _ => fun L _ L' => L' = L
  | .findById id => fun L r L' => L' = L ∧ (r = .ok (L.invoice id) ∨ ∃ e, r = .error e)
  | .findPendingInvoices offset limit => fun L r L' => L' = L ∧
      ((∃ rows : List InvoiceRow, rows.Perm (pendingInvoices L) ∧ r = .ok ((rows.drop offset).take limit)) ∨
        ∃ e, r = .error e)
  | .updateStatus id status => fun L r L' =>
      (L' = L ∧ ∃ e, r = .error e) ∨ (L' = (updateStatus P id status L).2 ∧
        (r = (updateStatus P id status L).1 ∨ ∃ e, r = .error e))
  | .confirmInvoice invoice => fun L r L' => ∃ F, (r, L') = confirmInvoice P settings F invoice L
  | .sendInvoiceUpdateNotification _ => fun L _ L' => L' = L

/-- An operation in which nothing fails, at the time `now` and with this
answer of the payment processor. -/
def respond (now : ℤ) (answer : PartialInvoice) : (o : Op) → Ledger → Res o × Ledger
  | .now, L => (now, L)
  | .getInvoice _, L => (.ok answer, L)
  | .findById id, L => (.ok (L.invoice id), L)
  | .findPendingInvoices offset limit, L => (.ok (((pendingInvoices L).drop offset).take limit), L)
  | .updateStatus id status, L => updateStatus P id status L
  | .confirmInvoice invoice, L => confirmInvoice P settings .none invoice L
  | .sendInvoiceUpdateNotification _, L => (.ok (), L)

/-- What happens without failures can happen. -/
theorem eff_respond (now : ℤ) (answer : PartialInvoice) (o : Op) (L : Ledger) :
    eff P settings o L (respond P settings now answer o L).1 (respond P settings now answer o L).2 := by
  cases o with
  | now => rfl
  | getInvoice id => rfl
  | findById id => exact ⟨rfl, Or.inl rfl⟩
  | findPendingInvoices offset limit => exact ⟨rfl, Or.inl ⟨_, .refl _, rfl⟩⟩
  | updateStatus id status => exact Or.inr ⟨rfl, Or.inl rfl⟩
  | confirmInvoice invoice => exact ⟨.none, rfl⟩
  | sendInvoiceUpdateNotification invoice => rfl

end NostrMesh.Payments
