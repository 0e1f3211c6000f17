/-
NostrMesh/Payments/Settlement.lean

What the paid notification of a payment processor does, delivered once or
many times, when nothing fails.

The tables matter at two rows only, the invoice and its payee
(`Ledger.Holds`).  A confirmation is a function of these two
(`confirmInvoice_first`, `confirmInvoice_again`), and so is a delivery: after
the first one the rows are settled (`Settled`), and every other leaves them
so.  Two kinds of notification never get that far, since the argument of
`confirmInvoice` has no confirmation date: every one of OpenNode, and
`overpaid` of Nodeless (`Unsettled`).  Zebedee's are settled with an amount
without unit.  `takesEffect_iff` says when a notification does what it should.
-/
import NostrMesh.Payments.Admission

namespace NostrMesh.Payments

open Interleaving
open Json (Value)

variable {P : Platform} {settings : Settings} {environment : Environment}
variable {L L' : Ledger} {row : InvoiceRow} {user : UserRow} {invoice : Invoice}

/-! ### One confirmation -/

/-- The tables hold an invoice and its payee. -/
def Ledger.Holds (L : Ledger) (row : InvoiceRow) (user : UserRow) : Prop :=
  L.invoice row.id = some row ∧ L.user row.pubkey = some user

/-- A user after an upsert that takes place only if the fee is reached. -/
def UserRow.admitIf (reached : Bool) (user : UserRow) : UserRow :=
  { user with isAdmitted := user.isAdmitted || reached }

/-- An amount in its unit reaches a fee that is not zero. -/
def reachesFee (settings : Settings) (pubkey : Bytes) (msats : ℤ) : Bool :=
  decide (0 < applicableFee settings (Bytes.toHex pubkey) ∧
    applicableFee settings (Bytes.toHex pubkey) ≤ msats)

/-- No amount is too large for its column. -/
structure Fits (row : InvoiceRow) (user : UserRow) : Prop where
  amount : inBigint row.amountRequested = true
  credit : inBigint (toMsats row.unit row.amountRequested) = true
  balance : inBigint (user.balance + toMsats row.unit row.amountRequested) = true

/-- An argument of `confirmInvoice` that passes its guards, for an invoice and
a payee in hexadecimal. -/
structure Confirms (id : String) (pubkey : Bytes) (amount ms : ℤ) (invoice : Invoice) : Prop where
  id : invoice.id = some (.str id)
  pubkey : invoice.pubkey = some (.str (Bytes.toHex pubkey))
  amountPaid : invoice.amountPaid = some amount
  status : invoice.IsCompleted
  confirmedAt : invoice.confirmedAt = some (.time ms)

theorem Confirms.confirmGuards {id : String} {pubkey : Bytes} {amount ms : ℤ}
    (h : Confirms id pubkey amount ms invoice) :
    confirmGuards P invoice = .ok (.time ms, amount) :=
  confirmGuards_of_completed P h.confirmedAt h.status h.amountPaid

/-- What the second statement of the transaction does with a public key in
hexadecimal. -/
theorem admitPayee_spec (P : Platform) (settings : Settings) {pubkey : Bytes} (amount : ℤ)
    (hpubkey : invoice.pubkey = some (.str (Bytes.toHex pubkey))) (huser : L.user pubkey = some user) :
    ∃ L', admitPayee P settings none invoice amount L = .ok L' ∧
      (∀ id, L'.invoice id = L.invoice id) ∧
      L'.user pubkey =
        some (user.admitIf (reachesFee settings pubkey (amountPaidMsat invoice.unit amount))) := by
  simp only [admitPayee, hpubkey, admissionFeeAmount_str, guardedBy, upsertStatement, toBuffer,
    Bytes.ofHex_toHex, reachesFee]
  split
  · next hreach =>
    refine ⟨_, rfl, fun _ => rfl, ?_⟩
    simp [user_upsertUser, huser, UserRow.merge, UserRow.admitIf, hreach]
  · next hreach =>
    refine ⟨L, rfl, fun _ => rfl, ?_⟩
    simp [huser, UserRow.admitIf, hreach]

/-- A confirmation, from what its first statement does. -/
theorem confirmInvoice_of_statement (settings : Settings) {id : String} {pubkey : Bytes} {amount ms : ℤ}
    (hinvoice : Confirms id pubkey amount ms invoice)
    (hstatement : confirmStatement P (some (.str id)) amount (.time ms) L = .ok L')
    (huser : L'.user pubkey = some user) :
    (∀ id, (confirmInvoice P settings .none invoice L).2.invoice id = L'.invoice id) ∧
      (confirmInvoice P settings .none invoice L).2.user pubkey =
        some (user.admitIf (reachesFee settings pubkey (amountPaidMsat invoice.unit amount))) := by
  obtain ⟨L₂, hpayee, hinvoices, husers⟩ :=
    admitPayee_spec P settings amount hinvoice.pubkey huser
  have hsecond : admitPayee P settings TransactionFaults.none.second invoice amount L' = .ok L₂ :=
    hpayee
  rw [confirmInvoice, hinvoice.confirmGuards]
  simp only [hinvoice.id, transact_none hstatement, hsecond]
  exact ⟨hinvoices, husers⟩

/-- **The first confirmation** of an invoice confirms the row, credits the
payee, and admits the payee if the fee is reached. -/
theorem confirmInvoice_first {ms : ℤ} (hL : L.Holds row user) (hfits : Fits row user)
    (hunit : row.unit ≠ none) (hnone : row.confirmedAt = none)
    (hinvoice : Confirms row.id row.pubkey row.amountRequested ms invoice) :
    (confirmInvoice P settings .none invoice L).2.Holds (row.confirm row.amountRequested ms)
      ((user.addBalance (toMsats row.unit row.amountRequested)).admitIf
        (reachesFee settings row.pubkey (amountPaidMsat invoice.unit row.amountRequested))) := by
  obtain ⟨unit, hunit⟩ := Option.ne_none_iff_exists'.mp hunit
  have hcredit : credit row.unit row.amountRequested = some (toMsats row.unit row.amountRequested) := by
    rw [hunit]
    rfl
  obtain ⟨L', hfunction⟩ : ∃ L', confirmInvoiceFunction row.id row.amountRequested ms L = .ok L' := by
    simp [confirmInvoiceFunction, hfits.amount, hL.1, hnone, hcredit, addBalance, hL.2,
      hfits.credit, hfits.balance]
  obtain ⟨-, hconfirmed⟩ | ⟨row', hrow, -, hinvoices, husers⟩ := confirmInvoiceFunction_spec hfunction
  · exact absurd hnone (hconfirmed row hL.1)
  obtain rfl := Option.some.inj (hL.1.symm.trans hrow)
  have huser : L'.user row.pubkey =
      some (user.addBalance (toMsats row.unit row.amountRequested)) := by
    rw [husers, if_pos rfl, hL.2, hcredit]
    rfl
  have hstatement : confirmStatement P (some (.str row.id)) row.amountRequested (.time ms) L =
      .ok L' := hfunction
  obtain ⟨hinvoice', huser'⟩ := confirmInvoice_of_statement settings hinvoice
    hstatement huser
  exact ⟨(hinvoice' row.id).trans ((hinvoices row.id).trans (if_pos rfl)), huser'⟩

/-- **Another confirmation** leaves the row as it is and does not credit the
payee again. -/
theorem confirmInvoice_again {ms : ℤ} (hL : L.Holds row user)
    (hamount : inBigint row.amountRequested = true) (hsome : row.confirmedAt ≠ none)
    (hinvoice : Confirms row.id row.pubkey row.amountRequested ms invoice) :
    (confirmInvoice P settings .none invoice L).2.Holds row (user.admitIf
      (reachesFee settings row.pubkey (amountPaidMsat invoice.unit row.amountRequested))) := by
  have hstatement : confirmStatement P (some (.str row.id)) row.amountRequested (.time ms) L =
      .ok L := by
    simp [confirmStatement, parameterText, confirmInvoiceFunction, hamount, hL.1,
      Option.isSome_iff_ne_none.mpr hsome]
  obtain ⟨hinvoice', huser'⟩ := confirmInvoice_of_statement settings hinvoice
    hstatement hL.2
  exact ⟨(hinvoice' row.id).trans hL.1, huser'⟩

/-- Without a confirmation date nothing happens. -/
theorem confirmInvoice_of_undated {F : TransactionFaults} (hdate : invoice.confirmedAt = none) :
    (confirmInvoice P settings F invoice L).2 = L := by
  simp [confirmInvoice, confirmGuards, hdate]

/-! ### Handlers that nobody disturbs -/

/-- The row with the status of a paid invoice. -/
def InvoiceRow.complete (row : InvoiceRow) : InvoiceRow := row.setStatus (some .completed)

def Ledger.complete (id : String) (L : Ledger) : Ledger := L.modifyInvoice id InvoiceRow.complete

theorem Ledger.Holds.complete (hL : L.Holds row user) :
    (L.complete row.id).Holds row.complete user := by
  refine ⟨?_, hL.2⟩
  rw [Ledger.complete, Ledger.invoice_modifyInvoice row.id InvoiceRow.complete fun _ => rfl]
  exact (if_pos rfl).trans (congrArg (Option.map InvoiceRow.complete) hL.1)

theorem updateStatus_completed (hrow : L.invoice row.id = some row) :
    updateStatus P (some (.str row.id)) (some (.str InvoiceStatus.completed.text)) L =
      (.ok (some row.complete), L.complete row.id) := by
  simp only [updateStatus, updateStatusStatement, parameterText, hrow, StatusUpdate.apply,
    InvoiceStatus.ofText_text]
  rfl

section

variable {now : ℤ} {answer : PartialInvoice}

theorem run_confirmAndNotify (confirmed notified : Invoice) (body : String) (L : Ledger) :
    ((confirmAndNotify confirmed notified body).run (respond P settings now answer) L).2 =
      (confirmInvoice P settings .none confirmed L).2 := by
  simp only [confirmAndNotify, perform, Prog.bind_eq, Prog.perform_bind, Prog.run_op, respond]
  rcases (confirmInvoice P settings .none confirmed L).1 with e | -
  · rfl
  · rfl

/-- The common end of three controllers, for a notification that an invoice
has been paid. -/
theorem run_updateAndConfirm {argument : Invoice → Invoice → Invoice} {body : String}
    (hid : invoice.id = some (.str row.id))
    (hstatus : invoice.status = some (.str InvoiceStatus.completed.text))
    (hrow : L.invoice row.id = some row) :
    ((updateAndConfirm invoice argument body).run (respond P settings now answer) L).2 =
      (confirmInvoice P settings .none (argument invoice (fromDBInvoice row.complete))
        (L.complete row.id)).2 := by
  have hcompleted : (fromDBInvoice row.complete).IsCompleted := rfl
  simp only [updateAndConfirm, perform, Prog.bind_eq, Prog.perform_bind, Prog.run_op, respond,
    hid, hstatus, updateStatus_completed hrow, hcompleted, not_true_eq_false, false_and, if_false,
    run_confirmAndNotify]

end

/-! ### Notifications -/

/-- `row` has been reported paid by its payment processor, in deliveries at
these times: the request passes the checks of its controller, and it names the
invoice, its payee and its amount as they are stored. -/
inductive ReportsPaid (P : Platform) (settings : Settings) (environment : Environment)
    (row : InvoiceRow) (times : List ℤ) : Request → PartialInvoice → Prop
  | openNode {body answer} :
      settings.processor = "opennode" → row.unit = some .sats →
      body.prop "id" = some (.str row.id) →
      body.prop "order_id" = some (.str (Bytes.toHex row.pubkey)) →
      Json.toBigInt P.textOf (if (Json.asNumber (body.prop "amount")).isSome then body.prop "amount"
        else body.prop "price") = .ok row.amountRequested →
      body.prop "status" = some (.str "paid") →
      ReportsPaid P settings environment row times (.openNode body) answer
  | zebedee {remoteAddress body answer date ms} :
      settings.processor = "zebedee" →
      (settings.zebedeeIpWhitelist = [] ∨ remoteAddress ∈ settings.zebedeeIpWhitelist) →
      body.prop "id" = some (.str row.id) →
      body.prop "internalId" = some (.str (Bytes.toHex row.pubkey)) →
      Json.toBigInt P.textOf (body.prop "amount") = .ok row.amountRequested →
      body.prop "status" = some (.str "completed") →
      body.prop "confirmedAt" = some (.str date) → P.parseDate date = .time ms →
      ReportsPaid P settings environment row times (.zebedee remoteAddress body) answer
  | nodeless {secret rawBody body answer status} :
      settings.processor = "nodeless" → environment.nodelessWebhookSecret = some secret →
      body.prop "uuid" = some (.str row.id) →
      body.path ["metadata", "requestId"] = some (.str (Bytes.toHex row.pubkey)) →
      body.path ["metadata", "unit"] = row.unit.map (fun unit => .str unit.text) →
      Json.toBigInt P.textOf (body.prop "amount") = .ok row.amountRequested →
      body.prop "status" = some (.str status) → status = "paid" ∨ status = "overpaid" →
      ReportsPaid P settings environment row times
        (.nodeless (some (Bytes.toHex (P.hmacSha256 (Bytes.ofText secret) rawBody))) (some rawBody) body)
        answer
  | lnbits {hmac expiry body payment} :
      settings.processor = "lnbits" → row.unit = some .sats →
      hmacExpiry P environment hmac = .ok (some expiry) →
      (∀ now ∈ times, (now : Js.Num).lt expiry = true) →
      body.prop "payment_hash" = some (.str row.id) → Js.length row.id = 64 →
      payment.paymentHash = row.id →
      payment.internalId = some (.str (Bytes.toHex row.pubkey)) →
      payment.amount / 1000 = row.amountRequested → payment.paid = true →
      JsDate.ofMs (payment.time * 1000) = .time (payment.time * 1000) →
      ReportsPaid P settings environment row times (.lnbits hmac body) (lnbitsInvoice payment)

/-- A pending invoice and its payee are stored. -/
structure Stored (L : Ledger) (row : InvoiceRow) (user : UserRow) : Prop where
  holds : L.Holds row user
  pending : row.status = some .pending
  unconfirmed : row.confirmedAt = none
  unit : row.unit ≠ none
  fits : Fits row user

/-- One delivery of a notification, at the time `now`. -/
def deliver (P : Platform) (settings : Settings) (environment : Environment) (request : Request)
    (answer : PartialInvoice) (L : Ledger) (now : ℤ) : Ledger :=
  ((handle P settings environment request).run (respond P settings now answer) L).2

/-- The deliveries of a notification, one after the other. -/
def deliverAll (P : Platform) (settings : Settings) (environment : Environment) (request : Request)
    (answer : PartialInvoice) (times : List ℤ) (L : Ledger) : Ledger :=
  times.foldl (deliver P settings environment request answer) L

/-- The invoice is confirmed, the payee's balance has grown by its amount, and
the payee is admitted now if that amount reaches the fee. -/
def TakesEffect (settings : Settings) (row : InvoiceRow) (user : UserRow) (L' : Ledger) : Prop :=
  ∃ row' user', L'.invoice row.id = some row' ∧ row'.confirmedAt ≠ none ∧
    L'.user row.pubkey = some user' ∧
    user'.balance = user.balance + toMsats row.unit row.amountRequested ∧
    (user'.isAdmitted = true ↔ user.isAdmitted = true ∨
      reachesFee settings row.pubkey (toMsats row.unit row.amountRequested) = true)

/-- The notifications that take effect. -/
def Effective (settings : Settings) (row : InvoiceRow) (user : UserRow) : Request → Prop
  | .openNode _ => False
  | .zebedee _ _ => user.isAdmitted = true ∨ reachesFee settings row.pubkey row.amountRequested =
      reachesFee settings row.pubkey (toMsats row.unit row.amountRequested)
  | .nodeless _ _ body => Json.asString (body.prop "status") = some "paid"
  | .lnbits _ _ => True
  | .maintenance => True

/-! ### One delivery -/

/-- The row is confirmed, and the payee has got the amount, and is admitted if
the amount in this unit reaches the fee. -/
def Settled (settings : Settings) (row : InvoiceRow) (user : UserRow) (unit : Value) (L' : Ledger) :
    Prop :=
  ∃ ms, L'.Holds (row.complete.confirm row.amountRequested ms)
    ((user.addBalance (toMsats row.unit row.amountRequested)).admitIf
      (reachesFee settings row.pubkey (amountPaidMsat unit row.amountRequested)))

/-- A delivery that only changes the status. -/
def OnlyMarks (P : Platform) (settings : Settings) (environment : Environment) (row : InvoiceRow)
    (request : Request) (answer : PartialInvoice) (now : ℤ) (L : Ledger) : Prop :=
  deliver P settings environment request answer L now = L.complete row.id

/-- A delivery that changes the status and confirms the invoice, with an
argument of this unit. -/
def MarksAndConfirms (P : Platform) (settings : Settings) (environment : Environment)
    (row : InvoiceRow) (unit : Value) (request : Request) (answer : PartialInvoice) (now : ℤ)
    (L : Ledger) : Prop :=
  ∃ argument ms, Confirms row.id row.pubkey row.amountRequested ms argument ∧
    argument.unit = unit ∧ deliver P settings environment request answer L now =
      (confirmInvoice P settings .none argument (L.complete row.id)).2

@[simp] theorem UserRow.admitIf_admitIf (reached : Bool) (user : UserRow) :
    (user.admitIf reached).admitIf reached = user.admitIf reached := by
  simp [admitIf]

section

variable {request : Request} {answer : PartialInvoice} {now : ℤ} {unit : Value}

/-- The first delivery settles the invoice. -/
theorem settled_of_first (hstored : Stored L row user)
    (h : MarksAndConfirms P settings environment row unit request answer now L) :
    Settled settings row user unit (deliver P settings environment request answer L now) := by
  obtain ⟨argument, ms, hargument, hunit, heq⟩ := h
  have hfits : Fits row.complete user :=
    ⟨hstored.fits.amount, hstored.fits.credit, hstored.fits.balance⟩
  rw [heq, ← hunit]
  exact ⟨ms, confirmInvoice_first hstored.holds.complete hfits hstored.unit hstored.unconfirmed
    hargument⟩

/-- A delivery that confirms again leaves it settled. -/
theorem settled_of_again (hamount : inBigint row.amountRequested = true)
    (hL : Settled settings row user unit L)
    (h : MarksAndConfirms P settings environment row unit request answer now L) :
    Settled settings row user unit (deliver P settings environment request answer L now) := by
  obtain ⟨ms, hholds⟩ := hL
  obtain ⟨argument, ms', hargument, hunit, heq⟩ := h
  have hagain : (confirmInvoice P settings .none argument (L.complete row.id)).2.Holds _ _ :=
    confirmInvoice_again hholds.complete hamount (Option.some_ne_none _) hargument
  rw [hunit] at hagain
  refine ⟨ms, ?_⟩
  rw [heq, ← UserRow.admitIf_admitIf]
  exact hagain

/-- So does one that only changes the status. -/
theorem settled_of_onlyMarks (hL : Settled settings row user unit L)
    (h : OnlyMarks P settings environment row request answer now L) :
    Settled settings row user unit (deliver P settings environment request answer L now) := by
  obtain ⟨ms, hholds⟩ := hL
  rw [OnlyMarks] at h
  rw [h]
  exact ⟨ms, hholds.complete⟩

/-- A delivery that only changes the status leaves an invoice without a
confirmation date as it is. -/
theorem unconfirmed_of_onlyMarks
    (hL : ∃ r, L.invoice row.id = some r ∧ r.id = row.id ∧ r.confirmedAt = none)
    (h : OnlyMarks P settings environment row request answer now L) :
    ∃ r, (deliver P settings environment request answer L now).invoice row.id = some r ∧
      r.id = row.id ∧ r.confirmedAt = none := by
  obtain ⟨r, hr, hid, hnone⟩ := hL
  rw [OnlyMarks] at h
  rw [h, Ledger.complete, Ledger.invoice_modifyInvoice row.id InvoiceRow.complete fun _ => rfl,
    if_pos rfl, hr]
  exact ⟨r.complete, rfl, hid, hnone⟩

end

/-! ### What each processor's notification does -/

section

variable {now : ℤ} {r : InvoiceRow} {answer : PartialInvoice}

/-- OpenNode: the argument has the confirmation date of the row, and the row
has none. -/
theorem onlyMarks_openNode {body : Json}
    (hid : body.prop "id" = some (.str row.id))
    (hamount : Json.toBigInt P.textOf (if (Json.asNumber (body.prop "amount")).isSome then
      body.prop "amount" else body.prop "price") = .ok row.amountRequested)
    (hstatus : body.prop "status" = some (.str "paid"))
    (hr : L.invoice row.id = some r) (hrid : r.id = row.id) (hnone : r.confirmedAt = none) :
    OnlyMarks P settings environment row (.openNode body) answer now L := by
  have hpaid : statusOf openNodeStatuses (some (.str "paid")) =
      some (.str InvoiceStatus.completed.text) := rfl
  rw [← hrid] at hid hr
  simp only [OnlyMarks, deliver, handle, openNodeCallback, perform, Prog.bind_eq, Prog.perform_bind,
    Prog.run_op, respond, fromOpenNodeInvoice, hamount, hstatus]
  rw [run_updateAndConfirm hid hpaid hr, confirmInvoice_of_undated, hrid]
  simp [openNodeArgument, fromDBInvoice, InvoiceRow.complete, InvoiceRow.setStatus, hnone]

/-- What the Nodeless controller reads out of a request body. -/
theorem fromNodelessInvoice_spec (now : ℤ) (body : Json) {amount : ℤ}
    (hamount : Json.toBigInt P.textOf (body.prop "amount") = .ok amount) :
    ∃ invoice, fromNodelessInvoice P (nodelessInvoice P now body) = .ok invoice ∧
      invoice.id = body.prop "uuid" ∧ invoice.pubkey = body.path ["metadata", "requestId"] ∧
      invoice.amountRequested = some amount ∧ invoice.unit = body.path ["metadata", "unit"] ∧
      invoice.status = statusOf nodelessStatuses (body.prop "status") ∧
      invoice.confirmedAt = if Json.asString (body.prop "status") = some "paid" then
        some (P.parseDate (P.toISOString now)) else none := by
  have hprop : ∀ name, (nodelessInvoice P now body).prop name = _ :=
    fun name => Json.prop_ofFields (by simp) name
  simp only [fromNodelessInvoice, Json.path, List.foldl_cons, List.foldl_nil, Json.Value.prop,
    Option.bind_some, hprop]
  by_cases hpaid : Json.asString (body.prop "status") = some "paid"
  · simp [hamount, dateField, hpaid]
  · simp [hamount, dateField, hpaid]

section

variable {secret : String} {rawBody : Bytes} {body : Json}
  (hprocessor : settings.processor = "nodeless")
  (hsecret : environment.nodelessWebhookSecret = some secret)
  (hid : body.prop "uuid" = some (.str row.id))
  (hamount : Json.toBigInt P.textOf (body.prop "amount") = .ok row.amountRequested)
  (hr : L.invoice row.id = some r) (hrid : r.id = row.id)

include hprocessor hsecret hid hamount hr hrid

/-- What the Nodeless controller does with a paid invoice. -/
theorem deliver_nodeless {status : String} (hstatus : body.prop "status" = some (.str status))
    (hpaid : status = "paid" ∨ status = "overpaid") :
    ∃ argument, deliver P settings environment (.nodeless
        (some (Bytes.toHex (P.hmacSha256 (Bytes.ofText secret) rawBody))) (some rawBody) body)
        answer L now = (confirmInvoice P settings .none argument (L.complete row.id)).2 ∧
      argument.id = some (.str row.id) ∧ argument.pubkey = body.path ["metadata", "requestId"] ∧
      argument.amountPaid = some row.amountRequested ∧ argument.unit = body.path ["metadata", "unit"] ∧
      argument.IsCompleted ∧
      argument.confirmedAt =
        if status = "paid" then some (P.parseDate (P.toISOString now)) else none := by
  obtain ⟨invoice, hinvoice, hid', hpubkey', hamount', hunit', hstatus', hdate'⟩ :=
    fromNodelessInvoice_spec now body hamount
  rw [hid, ← hrid] at hid'
  have hcompleted : invoice.status = some (.str InvoiceStatus.completed.text) := by
    rw [hstatus', hstatus]
    rcases hpaid with rfl | rfl
    · rfl
    · rfl
  refine ⟨nodelessArgument invoice (fromDBInvoice r.complete), ?_, hrid ▸ hid', hpubkey', hamount',
    hunit', ?_, ?_⟩
  · simp only [deliver, handle, nodelessCallback, hsecret, hprocessor, ne_eq, not_true_eq_false,
      if_false, perform, Prog.bind_eq, Prog.perform_bind, Prog.run_op, respond, hinvoice]
    rw [run_updateAndConfirm hid' hcompleted (hrid ▸ hr), hrid]
  · rw [nodelessArgument, Invoice.IsCompleted, hcompleted]
    rfl
  · rw [nodelessArgument, hdate', hstatus, Json.asString_str]
    simp only [Option.some.injEq]

/-- `paid` has a confirmation date. -/
theorem confirms_nodeless
    (hpubkey : body.path ["metadata", "requestId"] = some (.str (Bytes.toHex row.pubkey)))
    (hstatus : body.prop "status" = some (.str "paid"))
    (hdate : P.parseDate (P.toISOString now) = .time now) :
    MarksAndConfirms P settings environment row (body.path ["metadata", "unit"]) (.nodeless
      (some (Bytes.toHex (P.hmacSha256 (Bytes.ofText secret) rawBody))) (some rawBody) body)
      answer now L := by
  obtain ⟨argument, hdeliver, hid', hpubkey', hpaid, hunit, hcompleted, hconfirmedAt⟩ :=
    deliver_nodeless hprocessor hsecret hid hamount hr hrid hstatus (Or.inl rfl)
  rw [if_pos rfl, hdate] at hconfirmedAt
  exact ⟨argument, now, ⟨hid', hpubkey'.trans hpubkey, hpaid, hcompleted, hconfirmedAt⟩, hunit, hdeliver⟩

/-- `overpaid` has none. -/
theorem onlyMarks_overpaid (hstatus : body.prop "status" = some (.str "overpaid")) :
    OnlyMarks P settings environment row (.nodeless
      (some (Bytes.toHex (P.hmacSha256 (Bytes.ofText secret) rawBody))) (some rawBody) body)
      answer now L := by
  obtain ⟨argument, hdeliver, -, -, -, -, -, hconfirmedAt⟩ :=
    deliver_nodeless hprocessor hsecret hid hamount hr hrid hstatus (Or.inr rfl)
  rw [if_neg (by decide)] at hconfirmedAt
  exact hdeliver.trans (confirmInvoice_of_undated hconfirmedAt)

end

/-- What the Zebedee controller does with a paid invoice. -/
theorem confirms_zebedee {remoteAddress date : String} {body : Json} {ms : ℤ}
    (hprocessor : settings.processor = "zebedee")
    (hwhitelist : settings.zebedeeIpWhitelist = [] ∨ remoteAddress ∈ settings.zebedeeIpWhitelist)
    (hid : body.prop "id" = some (.str row.id))
    (hpubkey : body.prop "internalId" = some (.str (Bytes.toHex row.pubkey)))
    (hamount : Json.toBigInt P.textOf (body.prop "amount") = .ok row.amountRequested)
    (hstatus : body.prop "status" = some (.str "completed"))
    (hdate : body.prop "confirmedAt" = some (.str date)) (hms : P.parseDate date = .time ms)
    (hr : L.invoice row.id = some r) (hrid : r.id = row.id) :
    MarksAndConfirms P settings environment row none (.zebedee remoteAddress body) answer now L := by
  have hallowed : ¬ (settings.zebedeeIpWhitelist ≠ [] ∧
      remoteAddress ∉ settings.zebedeeIpWhitelist) := by tauto
  obtain ⟨invoice, hinvoice, hid', hpubkey', hamount', hstatus', hdate'⟩ :
      ∃ invoice, fromZebedeeInvoice P body = .ok invoice ∧ invoice.id = some (.str r.id) ∧
        invoice.pubkey = some (.str (Bytes.toHex row.pubkey)) ∧
        invoice.amountRequested = some row.amountRequested ∧
        invoice.status = some (.str InvoiceStatus.completed.text) ∧
        invoice.confirmedAt = some (.time ms) := by
    simp [fromZebedeeInvoice, hid, hpubkey, hamount, hstatus, hdate, dateField, hms, hrid,
      InvoiceStatus.text]
  refine ⟨zebedeeArgument invoice (fromDBInvoice r.complete), ms, ⟨hrid ▸ hid', hpubkey', hamount',
    rfl, hdate'⟩, rfl, ?_⟩
  simp only [deliver, handle, zebedeeCallback, hallowed, hprocessor, ne_eq, not_true_eq_false,
    if_false, hinvoice]
  rw [run_updateAndConfirm hid' hstatus' (hrid ▸ hr), hrid]

section

variable {hmac : Value} {expiry : Js.Num} {body : Json} {payment : LNbitsPayment}
  (hprocessor : settings.processor = "lnbits")
  (hhmac : hmacExpiry P environment hmac = .ok (some expiry))
  (hnow : (now : Js.Num).lt expiry = true)
  (hhash : body.prop "payment_hash" = some (.str row.id)) (hlength : Js.length row.id = 64)
  (hid : payment.paymentHash = row.id) (hpaid : payment.paid = true)
  (hr : L.invoice row.id = some r) (hrid : r.id = row.id)

include hprocessor hhmac hnow hhash hlength hid hpaid hr hrid

/-- What the LNbits controller does with a paid invoice: it stops if the row
says that the invoice is completed. -/
theorem deliver_lnbits :
    deliver P settings environment (.lnbits hmac body) (lnbitsInvoice payment) L now =
      if r.status = some .completed then L.complete row.id else
        (confirmInvoice P settings .none { (lnbitsInvoice payment).toInvoice with
          amountPaid := (lnbitsInvoice payment).toInvoice.amountRequested } (L.complete row.id)).2 := by
  have hsize : ¬ Js.length row.id ≠ 64 := not_not.mpr hlength
  have hid' : (lnbitsInvoice payment).toInvoice.id = some (.str r.id) := by
    rw [hrid, ← hid]
    rfl
  have hstatus : (lnbitsInvoice payment).toInvoice.status =
      some (.str InvoiceStatus.completed.text) := by
    simp [lnbitsInvoice, PartialInvoice.toInvoice, hpaid]
  have hcompleted : (lnbitsInvoice payment).toInvoice.IsCompleted := by
    rw [Invoice.IsCompleted, hstatus]
    rfl
  have hr' : L.invoice r.id = some r := hrid ▸ hr
  simp only [deliver, handle, lnbitsCallback, hprocessor, ne_eq, not_true_eq_false, if_false, hhmac,
    perform, Prog.bind_eq, Prog.perform_bind, Prog.run_op, respond, hnow, Bool.not_true,
    Bool.false_eq_true, hhash, Json.asString_str, hsize, lnbitsUpdate, hr, hid', hstatus,
    updateStatus_completed hr', hcompleted, false_and]
  split
  · rw [hrid]
    rfl
  · rw [run_confirmAndNotify, hrid]

theorem confirms_lnbits (hpubkey : payment.internalId = some (.str (Bytes.toHex row.pubkey)))
    (hamount : payment.amount / 1000 = row.amountRequested)
    (hdate : JsDate.ofMs (payment.time * 1000) = .time (payment.time * 1000))
    (hstatus : r.status ≠ some .completed) :
    MarksAndConfirms P settings environment row (some (.str InvoiceUnit.sats.text))
      (.lnbits hmac body) (lnbitsInvoice payment) now L := by
  refine ⟨{ (lnbitsInvoice payment).toInvoice with
    amountPaid := (lnbitsInvoice payment).toInvoice.amountRequested }, payment.time * 1000,
    ⟨congrArg (fun id => some (Json.str id)) hid, hpubkey, ?_, ?_, ?_⟩, rfl,
    (deliver_lnbits hprocessor hhmac hnow hhash hlength hid hpaid hr hrid).trans (if_neg hstatus)⟩
  · simp [PartialInvoice.toInvoice, lnbitsInvoice, hamount]
  · simp [Invoice.IsCompleted, PartialInvoice.toInvoice, lnbitsInvoice, hpaid]
  · simp [PartialInvoice.toInvoice, lnbitsInvoice, hpaid, hdate]

theorem onlyMarks_lnbits (hstatus : r.status = some .completed) :
    OnlyMarks P settings environment row (.lnbits hmac body) (lnbitsInvoice payment) now L :=
  (deliver_lnbits hprocessor hhmac hnow hhash hlength hid hpaid hr hrid).trans (if_pos hstatus)

end

end

/-! ### Any number of deliveries -/

section

variable {request : Request} {answer : PartialInvoice} {times : List ℤ} {unit : Value}

/-- What `Settled` says of the row and of the payee. -/
theorem takesEffect_of_settled (hL : Settled settings row user unit L) :
    TakesEffect settings row user L ↔ (user.isAdmitted = true ∨
      reachesFee settings row.pubkey (amountPaidMsat unit row.amountRequested) =
        reachesFee settings row.pubkey (toMsats row.unit row.amountRequested)) := by
  obtain ⟨ms, hrow, huser⟩ := hL
  have hrow : L.invoice row.id = _ := hrow
  have huser : L.user row.pubkey = _ := huser
  constructor
  · rintro ⟨row', user', -, -, huser', -, hadmitted⟩
    obtain rfl := Option.some.inj (huser.symm.trans huser')
    rcases hbefore : user.isAdmitted with - | -
    · simp only [UserRow.admitIf, UserRow.addBalance, hbefore, Bool.false_or, Bool.false_eq_true,
        false_or] at hadmitted
      exact Or.inr (Bool.eq_iff_iff.mpr hadmitted)
    · exact Or.inl rfl
  · intro h
    refine ⟨_, _, hrow, Option.some_ne_none _, huser, rfl, ?_⟩
    simp only [UserRow.admitIf, UserRow.addBalance, Bool.or_eq_true]
    obtain hbefore | hsame := h
    · simp [hbefore]
    · rw [hsame]

/-- **However many deliveries**, the first of them settles the invoice and the
others leave it settled. -/
theorem settled_deliverAll (hstored : Stored L row user) (htimes : times ≠ [])
    (hfirst : ∀ now ∈ times,
      MarksAndConfirms P settings environment row unit request answer now L)
    (hagain : ∀ now ∈ times, ∀ L r, L.invoice row.id = some r → r.id = row.id →
      MarksAndConfirms P settings environment row unit request answer now L ∨
        OnlyMarks P settings environment row request answer now L) :
    Settled settings row user unit (deliverAll P settings environment request answer times L) := by
  obtain ⟨now, later, rfl⟩ := List.exists_cons_of_ne_nil htimes
  refine List.foldlRecOn later _ (settled_of_first hstored (hfirst now List.mem_cons_self)) ?_
  intro L₁ hL₁ now' hnow'
  obtain ⟨ms, hrow, -⟩ := id hL₁
  obtain hconfirms | hmarks := hagain now' (List.mem_cons_of_mem _ hnow') L₁ _ hrow rfl
  · exact settled_of_again hstored.fits.amount hL₁ hconfirms
  · exact settled_of_onlyMarks hL₁ hmarks

/-- Deliveries that only change the status never take effect. -/
theorem not_takesEffect_of_onlyMarks (hstored : Stored L row user)
    (h : ∀ now ∈ times, ∀ L r, L.invoice row.id = some r → r.id = row.id → r.confirmedAt = none →
      OnlyMarks P settings environment row request answer now L) :
    ¬ TakesEffect settings row user
      (deliverAll P settings environment request answer times L) := by
  have hnone : ∃ r, (deliverAll P settings environment request answer times L).invoice row.id =
      some r ∧ r.id = row.id ∧ r.confirmedAt = none := by
    refine List.foldlRecOn (motive := fun L' : Ledger =>
      ∃ r, L'.invoice row.id = some r ∧ r.id = row.id ∧ r.confirmedAt = none) times _
      ⟨row, hstored.holds.1, rfl, hstored.unconfirmed⟩ ?_
    rintro L₁ ⟨r, hr, hid, hr'⟩ now hnow
    exact unconfirmed_of_onlyMarks ⟨r, hr, hid, hr'⟩ (h now hnow L₁ r hr hid hr')
  rintro ⟨row', user', hrow', hconfirmed, -⟩
  obtain ⟨r, hr, -, hr'⟩ := hnone
  obtain rfl := Option.some.inj (hr.symm.trans hrow')
  exact hconfirmed hr'

/-- The amount of a unit's text is the amount in that unit. -/
theorem amountPaidMsat_unit (unit : Option InvoiceUnit) (amount : ℤ) :
    amountPaidMsat (unit.map fun unit => .str unit.text) amount = toMsats unit amount := by
  rcases unit with - | unit
  · simp [amountPaidMsat, Json.asString, toMsats, InvoiceUnit.scale]
  · cases unit <;> simp [amountPaidMsat, InvoiceUnit.text, toMsats, InvoiceUnit.scale]

/-- **A notification takes effect** unless it is one of OpenNode's, or an
`overpaid` of Nodeless, or one of Zebedee's whose amount reaches the fee only
with its unit. -/
theorem takesEffect_iff (hstored : Stored L row user)
    (hreports : ReportsPaid P settings environment row times request answer)
    (hdates : ∀ now ∈ times, P.parseDate (P.toISOString now) = .time now) (htimes : times ≠ []) :
    TakesEffect settings row user (deliverAll P settings environment request answer times L) ↔
      Effective settings row user request := by
  cases hreports with
  | openNode _ _ hid _ hamount hstatus =>
      refine iff_of_false (not_takesEffect_of_onlyMarks hstored ?_) id
      intro now _ L' r hr hrid hnone
      exact onlyMarks_openNode hid hamount hstatus hr hrid hnone
  | zebedee hprocessor hwhitelist hid hpubkey hamount hstatus hdate hms =>
      exact takesEffect_of_settled (settled_deliverAll hstored htimes
        (fun now _ => confirms_zebedee hprocessor hwhitelist hid hpubkey hamount hstatus hdate hms
          hstored.holds.1 rfl)
        fun now _ L r hr hrid => Or.inl (confirms_zebedee hprocessor hwhitelist hid hpubkey hamount
          hstatus hdate hms hr hrid))
  | nodeless hprocessor hsecret hid hpubkey hunit hamount hstatus hpaid =>
      obtain rfl | rfl := hpaid
      · refine (takesEffect_of_settled (settled_deliverAll hstored htimes
          (fun now hnow => confirms_nodeless hprocessor hsecret hid hamount hstored.holds.1 rfl
            hpubkey hstatus (hdates now hnow))
          fun now hnow L r hr hrid => Or.inl (confirms_nodeless hprocessor hsecret hid hamount
            hr hrid hpubkey hstatus (hdates now hnow)))).trans ?_
        rw [hunit, amountPaidMsat_unit]
        simp [Effective, hstatus]
      · refine iff_of_false (not_takesEffect_of_onlyMarks hstored ?_) ?_
        · intro now _ L' r hr hrid _
          exact onlyMarks_overpaid hprocessor hsecret hid hamount hr hrid hstatus
        · simp [Effective, hstatus]
  | lnbits hprocessor hunit hhmac hexpiry hhash hlength hid hpubkey hamount hpaid hdate =>
      refine (takesEffect_of_settled (settled_deliverAll hstored htimes
        (fun now hnow => confirms_lnbits hprocessor hhmac (hexpiry now hnow) hhash hlength hid
          hpaid hstored.holds.1 rfl hpubkey hamount hdate (by simp [hstored.pending]))
        (fun now hnow L r hr hrid => by
          by_cases hstatus : r.status = some .completed
          · exact Or.inr (onlyMarks_lnbits hprocessor hhmac (hexpiry now hnow) hhash hlength hid
              hpaid hr hrid hstatus)
          · exact Or.inl (confirms_lnbits hprocessor hhmac (hexpiry now hnow) hhash hlength hid
              hpaid hr hrid hpubkey hamount hdate hstatus)))).trans
        (iff_of_true (Or.inr ?_) trivial)
      rw [hunit]
      exact congrArg _ (amountPaidMsat_unit (some .sats) _)

end

/-! ### An invoice of 1000 sats -/

/-- An invoice that the payer has not paid yet. -/
def pendingInvoice (unit : InvoiceUnit) (amountRequested : ℤ) : InvoiceRow where
  id := "8f2c1a"
  pubkey := payer
  amountRequested := amountRequested
  amountPaid := none
  unit := some unit
  status := some .pending
  confirmedAt := none

def newPayer : UserRow := ⟨payer, false, 0⟩

def pendingLedger (row : InvoiceRow) : Ledger := ⟨[row], [newPayer]⟩

/-- Zebedee reports the invoice paid. -/
def zebedeeBody : Json :=
  .obj [("id", .str "8f2c1a"), ("internalId", .str (Bytes.toHex payer)), ("amount", .str "1000000"),
    ("unit", .str "msats"), ("status", .str "completed"),
    ("confirmedAt", .str "2023-11-14T22:13:20.000Z")]

/-- So does OpenNode. -/
def openNodeBody : Json :=
  .obj [("id", .str "8f2c1a"), ("order_id", .str (Bytes.toHex payer)), ("amount", .num (1000 : ℤ)),
    ("status", .str "paid")]

theorem stored_pendingLedger {unit : InvoiceUnit} {amountRequested : ℤ}
    (hfits : Fits (pendingInvoice unit amountRequested) newPayer) :
    Stored (pendingLedger (pendingInvoice unit amountRequested))
      (pendingInvoice unit amountRequested) newPayer :=
  ⟨⟨rfl, rfl⟩, rfl, rfl, Option.some_ne_none _, hfits⟩

/-- Zebedee's notification, delivered twice. -/
theorem takesEffect_zebedee : TakesEffect sampleSettings (pendingInvoice .msats 1000000) newPayer
    (deliverAll samplePlatform sampleSettings sampleEnvironment (.zebedee "::1" zebedeeBody) noAnswer
      [1700000000000, 1700000000000] (pendingLedger (pendingInvoice .msats 1000000))) := by
  refine (takesEffect_iff (stored_pendingLedger ⟨by decide, by decide, by decide⟩)
    (.zebedee rfl (Or.inl rfl) rfl rfl ?_ rfl rfl rfl) ?_ (by simp)).mpr (Or.inr rfl)
  · rfl
  · decide

/-- **OpenNode's notification is lost**: the argument of `confirmInvoice` takes
its confirmation date from the row, which has none before. -/
theorem openNode_lost :
    (Stored (pendingLedger (pendingInvoice .sats 1000)) (pendingInvoice .sats 1000) newPayer ∧
      ReportsPaid samplePlatform { sampleSettings with processor := "opennode" } sampleEnvironment
        (pendingInvoice .sats 1000) [1700000000000] (.openNode openNodeBody) noAnswer) ∧
    ¬ TakesEffect { sampleSettings with processor := "opennode" } (pendingInvoice .sats 1000) newPayer
      (deliverAll samplePlatform { sampleSettings with processor := "opennode" } sampleEnvironment
        (.openNode openNodeBody) noAnswer [1700000000000]
        (pendingLedger (pendingInvoice .sats 1000))) := by
  have hstored : Stored (pendingLedger (pendingInvoice .sats 1000)) (pendingInvoice .sats 1000)
      newPayer := stored_pendingLedger ⟨by decide, by decide, by decide⟩
  refine ⟨⟨hstored, .openNode rfl rfl rfl rfl rfl rfl⟩, not_takesEffect_of_onlyMarks hstored ?_⟩
  intro now _ L r hr hrid hnone
  exact onlyMarks_openNode rfl rfl rfl hr hrid hnone

end NostrMesh.Payments
