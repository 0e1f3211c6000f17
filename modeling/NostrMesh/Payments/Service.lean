/-
NostrMesh/Payments/Service.lean

The payments service: status updates, and `createInvoice` and `confirmInvoice`
with their guards and their transactions.

A transaction is serializable, so it acts on the tables as a whole: its
statements work on a copy that takes the place of the tables when it commits.
`TransactionFaults` says which of its steps fail.  `updateStatus_cases` and
`confirmInvoice_cases` say what a call can do.
-/
import NostrMesh.Payments.Transform

namespace NostrMesh.Payments

open Json (Value)

/-! ### Settings -/

structure FeeSchedule where
  enabled : Bool
  amount : ℤ
  /-- `whitelists?.pubkeys`, empty if it is not there. -/
  whitelistedPubkeys : List String
  deriving DecidableEq, Repr

/-- The settings that the payments code reads. -/
structure Settings where
  paymentsEnabled : Bool
  processor : String
  admission : List FeeSchedule
  zebedeeIpWhitelist : List String
  deriving DecidableEq, Repr

variable (P : Platform) (settings : Settings)

/-! ### Admission fees -/

/-- `pubkey.startsWith` of something that is not a string. -/
def startsWithError : Value → String
  | none => "Cannot read properties of undefined (reading 'startsWith')"
  | some .null => "Cannot read properties of null (reading 'startsWith')"
  | _ => "invoice.pubkey.startsWith is not a function"

/-- `isApplicableFee`. -/
def isApplicableFee (pubkey : Value) (feeSchedule : FeeSchedule) : Except String Bool :=
  if !feeSchedule.enabled then .ok false
  else if feeSchedule.whitelistedPubkeys.isEmpty then .ok true
  else
    match pubkey with
    | some (.str s) =>
        .ok (!feeSchedule.whitelistedPubkeys.any fun whitelisted => Js.startsWith s whitelisted)
    | v => .error (startsWithError v)

/-- One step of the sum. -/
def addFee (pubkey : Value) (sum : ℤ) (feeSchedule : FeeSchedule) : Except String ℤ :=
  match isApplicableFee pubkey feeSchedule with
  | .error e => .error e
  | .ok applicable => .ok (sum + if applicable then feeSchedule.amount else 0)

/-- `admissionFeeAmount`. -/
def admissionFeeAmount (pubkey : Value) : Except String ℤ :=
  settings.admission.foldlM (addFee pubkey) 0

/-- The fee applies to a public key. -/
def FeeSchedule.appliesTo (pubkey : String) (fee : FeeSchedule) : Bool :=
  fee.enabled && !fee.whitelistedPubkeys.any fun whitelisted => Js.startsWith pubkey whitelisted

/-- The sum of the admission fees that apply to a public key. -/
def applicableFee (pubkey : String) : ℤ :=
  ((settings.admission.filter (FeeSchedule.appliesTo pubkey)).map FeeSchedule.amount).sum

theorem isApplicableFee_str (pubkey : String) (fee : FeeSchedule) :
    isApplicableFee (some (.str pubkey)) fee = .ok (fee.appliesTo pubkey) := by
  rcases fee with ⟨- | -, amount, - | ⟨p, ps⟩⟩ <;> simp [isApplicableFee, FeeSchedule.appliesTo]

/-- On a public key that is a string the sum is that of the fees that
apply. -/
theorem admissionFeeAmount_str (pubkey : String) :
    admissionFeeAmount settings (some (.str pubkey)) = .ok (applicableFee settings pubkey) := by
  have hfold : ∀ (fees : List FeeSchedule) (sum : ℤ), fees.foldlM (addFee (some (.str pubkey))) sum
      = .ok (sum + ((fees.filter (FeeSchedule.appliesTo pubkey)).map FeeSchedule.amount).sum) := by
    intro fees
    induction fees with
    | nil => intro sum; simp [pure, Except.pure]
    | cons fee fees ih =>
        intro sum
        simp only [List.foldlM_cons, addFee, isApplicableFee_str, bind, Except.bind]
        rw [ih, List.filter_cons]
        rcases fee.appliesTo pubkey with - | - <;> simp [add_assoc]
  simpa [admissionFeeAmount, applicableFee] using hfold settings.admission 0

/-! ### `InvoiceRepository` and `UserRepository` -/

/-- The text of a parameter that is neither null nor undefined. -/
def parameterText : Json → String
  | .str s => s
  | v => P.parameterText v

/-- `updateStatus`. -/
def updateStatus (id status : Value) (L : Ledger) : Except String (Option InvoiceRow) × Ledger :=
  match id with
  | none => (.error "Undefined binding(s) detected when compiling UPDATE.", L)
  | some .null => (.ok none, L)
  | some id =>
      let update := match status with
        | none => StatusUpdate.keep
        | some .null => .null
        | some status => .set (parameterText P status)
      updateStatusStatement (parameterText P id) update L

/-- `InvoiceRepository.confirmInvoice`: no invoice has the id null. -/
def confirmStatement (id : Value) (amountPaid : ℤ) (confirmedAt : JsDate) (L : Ledger) :
    Except String Ledger :=
  match confirmedAt with
  | .invalid => .error "Invalid time value"
  | .time ms =>
      match id with
      | none => .error "Undefined binding(s) detected when compiling RAW."
      | some .null => .ok L
      | some id => confirmInvoiceFunction (parameterText P id) amountPaid ms L

/-- `UserRepository.upsert`. -/
def upsertStatement (pubkey : Value) (isAdmitted : Option Bool) (L : Ledger) : Except String Ledger :=
  match toBuffer P pubkey with
  | .error e => .error e
  | .ok pubkey => .ok (upsertUser pubkey isAdmitted L)

/-- The text of a value that is bound to a statement: null and undefined have
none. -/
def boundText : Value → Option String
  | none | some .null => none
  | some v => some (parameterText P v)

/-- The update of the column `status` for a value that is bound to it. -/
def statusUpdate : Value → StatusUpdate
  | none => .keep
  | some .null => .null
  | some status => .set (parameterText P status)

/-- The column `unit` for a value that is bound to it. -/
def unitColumn (unit : Value) : Except String (Option InvoiceUnit) :=
  match boundText P unit with
  | none => .ok none
  | some text =>
      match InvoiceUnit.ofText text with
      | some unit => .ok (some unit)
      | none => .error
          "new row for relation \"invoices\" violates check constraint \"invoices_unit_check\""

/-- What `createInvoice` of a payment processor answers. -/
structure CreateInvoiceResponse where
  id : Value
  amountRequested : ℤ
  unit : Value
  status : Value

/-- The id of the new row; `uuid` is a random one. -/
def invoiceId (uuid : String) (id : Value) : String := (Json.asString id).getD uuid

/-- `InvoiceRepository.upsert`: an invoice that is there gets a new status
only. -/
def upsertInvoice (uuid : String) (pubkey : Value) (response : CreateInvoiceResponse) (L : Ledger) :
    Except String Ledger :=
  match toBuffer P pubkey with
  | .error e => .error e
  | .ok pubkey =>
      if !inBigint response.amountRequested then
        .error ("value \"" ++ toString response.amountRequested ++ "\" is out of range for type bigint")
      else
        match unitColumn P response.unit with
        | .error e => .error e
        | .ok unit =>
            let id := invoiceId uuid response.id
            match L.invoice id with
            | none =>
                match (statusUpdate P response.status).apply none with
                | .error e => .error e
                | .ok status => .ok { L with invoices := L.invoices ++
                    [⟨id, pubkey, response.amountRequested, none, unit, status, none⟩] }
            | some row =>
                match (statusUpdate P response.status).apply row.status with
                | .error e => .error e
                | .ok status => .ok (L.modifyInvoice id (InvoiceRow.setStatus status))

/-! ### Transactions -/

/-- The steps of a transaction that fail, and with which error; a commit may
also take effect without its answer arriving. -/
structure TransactionFaults where
  begin : Option String
  first : Option String
  second : Option String
  commit : Option String
  rollback : Option String
  committed : Bool
  deriving DecidableEq, Repr

/-- No step fails. -/
def TransactionFaults.none : TransactionFaults :=
  ⟨.none, .none, .none, .none, .none, false⟩

/-- The error that leaves a `catch` block that calls `rollback`. -/
def rethrown (F : TransactionFaults) (begun : Bool) (error : String) : String :=
  if begun then F.rollback.getD error
  else "Unable to get transaction: transaction not started."

/-- A statement of a transaction, unless it fails. -/
def guardedBy (fault : Option String) (statement : Except String Ledger) : Except String Ledger :=
  match fault with
  | some e => .error e
  | none => statement

/-- A transaction: its two statements, one after the other, and the commit. -/
def transact (F : TransactionFaults) (first second : Ledger → Except String Ledger) (L : Ledger) :
    Except String Unit × Ledger :=
  match F.begin with
  | some e => (.error (rethrown F false e), L)
  | none =>
      match guardedBy F.first (first L) with
      | .error e => (.error (rethrown F true e), L)
      | .ok L₁ =>
          match second L₁ with
          | .error e => (.error (rethrown F true e), L)
          | .ok L₂ =>
              match F.commit with
              | some e => (.error (rethrown F true e), if F.committed then L₂ else L)
              | none => (.ok (), L₂)

/-! ### `createInvoice` -/

/-- The invoice that `createInvoice` returns. -/
def createdInvoice (pubkey : Value) (response : CreateInvoiceResponse) : Invoice where
  id := response.id
  pubkey := pubkey
  amountRequested := some response.amountRequested
  amountPaid := none
  unit := response.unit
  status := response.status
  confirmedAt := none

/-- What follows the upsert of the user in the transaction: the answer of the
payment processor is stored. -/
def storeInvoice (fault : Option String) (uuid : String) (pubkey : Value)
    (response : Except String CreateInvoiceResponse) (L : Ledger) : Except String Ledger :=
  match response with
  | .error e => .error e
  | .ok response => guardedBy fault (upsertInvoice P uuid pubkey response L)

/-- `createInvoice`, for an answer of the payment processor. -/
def createInvoice (F : TransactionFaults) (uuid : String) (pubkey : Value)
    (response : Except String CreateInvoiceResponse) (L : Ledger) : Except String Invoice × Ledger :=
  let result := transact F (upsertStatement P pubkey none) (storeInvoice P F.second uuid pubkey response) L
  (result.1.bind fun () => response.map (createdInvoice pubkey), result.2)

/-! ### `confirmInvoice` -/

/-- The checks before the transaction. -/
def confirmGuards (invoice : Invoice) : Except String (JsDate × ℤ) :=
  match invoice.confirmedAt with
  | none => .error "Invoice confirmation date is not set"
  | some confirmedAt =>
      if Json.asString invoice.status ≠ some InvoiceStatus.completed.text then
        .error ("Invoice is not complete: " ++ (invoice.status.map P.textOf).getD "undefined")
      else
        match invoice.amountPaid with
        | none => .error "Invoice paid amount is not set: undefined"
        | some amountPaid => .ok (confirmedAt, amountPaid)

/-- A completed invoice with its date and amount passes. -/
theorem confirmGuards_of_completed {invoice : Invoice} {confirmedAt : JsDate} {amount : ℤ}
    (hconfirmedAt : invoice.confirmedAt = some confirmedAt)
    (hstatus : Json.asString invoice.status = some InvoiceStatus.completed.text)
    (hamount : invoice.amountPaid = some amount) :
    confirmGuards P invoice = .ok (confirmedAt, amount) := by
  simp [confirmGuards, hconfirmedAt, hstatus, hamount]

/-- `amountPaidMsat`. -/
def amountPaidMsat (unit : Value) (amountPaid : ℤ) : ℤ :=
  if Json.asString unit = some InvoiceUnit.sats.text then amountPaid * 1000
  else if Json.asString unit = some InvoiceUnit.btc.text then amountPaid * (1000 * 100000000)
  else amountPaid

/-- What follows the confirmation in the transaction: the payee is admitted
if the amount reaches the fee. -/
def admitPayee (fault : Option String) (invoice : Invoice) (amountPaid : ℤ) (L : Ledger) :
    Except String Ledger :=
  match admissionFeeAmount settings invoice.pubkey with
  | .error e => .error e
  | .ok fee =>
      if 0 < fee ∧ fee ≤ amountPaidMsat invoice.unit amountPaid then
        guardedBy fault (upsertStatement P invoice.pubkey (some true) L)
      else .ok L

/-- `confirmInvoice`. -/
def confirmInvoice (F : TransactionFaults) (invoice : Invoice) (L : Ledger) :
    Except String Unit × Ledger :=
  match confirmGuards P invoice with
  | .error e => (.error (rethrown F false e), L)
  | .ok (confirmedAt, amountPaid) =>
      transact F (confirmStatement P invoice.id amountPaid confirmedAt)
        (admitPayee P settings F.second invoice amountPaid) L

/-! ### What calls do -/

variable {P settings}
variable {F : TransactionFaults} {invoice : Invoice} {L : Ledger}

/-- Status updates change no users. -/
theorem updateStatus_users (id status : Value) : (updateStatus P id status L).2.users = L.users := by
  have hstatement : ∀ id update, (updateStatusStatement id update L).2.users = L.users := by
    intro id update
    rw [updateStatusStatement]
    rcases L.invoice id with - | row
    · rfl
    · rcases hupdate : update.apply row.status with e | status
      · simp only [hupdate]
      · simp only [hupdate, Ledger.modifyInvoice_users]
  rcases id with - | - | - | - | - | - | - <;> first | rfl | exact hstatement _ _

theorem boundText_some {v : Json} (h : v ≠ .null) : boundText P (some v) = some (parameterText P v) := by
  cases v <;> first | rfl | exact absurd rfl h

theorem updateStatus_bound {id status : Value} {name : String} (h : boundText P id = some name) :
    updateStatus P id status L = updateStatusStatement name (statusUpdate P status) L := by
  rcases id with - | v
  · cases h
  · cases v <;> cases h <;> (rcases status with - | status <;> [rfl; (cases status <;> rfl)])

theorem updateStatus_unbound {id status : Value} (h : boundText P id = none) :
    (updateStatus P id status L).2 = L := by
  rcases id with - | v
  · rfl
  · cases v <;> cases h
    rfl

/-- **A status update** changes nothing, or gives one row its new status. -/
theorem updateStatus_cases (P : Platform) (id status : Value) (L : Ledger) :
    (updateStatus P id status L).2 = L ∨
    ∃ name row new, boundText P id = some name ∧ L.invoice name = some row ∧
      (statusUpdate P status).apply row.status = .ok new ∧
      updateStatus P id status L = (.ok (some (row.setStatus new)),
        L.modifyInvoice name (InvoiceRow.setStatus new)) := by
  rcases hname : boundText P id with - | name
  · exact Or.inl (updateStatus_unbound hname)
  rw [updateStatus_bound hname, updateStatusStatement]
  rcases hrow : L.invoice name with - | row
  · exact Or.inl rfl
  rcases hnew : (statusUpdate P status).apply row.status with e | new
  · exact Or.inl (by simp only [hnew])
  · exact Or.inr ⟨name, row, new, rfl, hrow, hnew, by simp only [hnew]⟩

/-- The statement of a confirmation leaves the tables alone, or runs the
function on an invoice that its id names. -/
theorem confirmStatement_cases {id : Value} {amountPaid : ℤ} {confirmedAt : JsDate} {L' : Ledger}
    (h : confirmStatement P id amountPaid confirmedAt L = .ok L') :
    (L' = L ∧ id = some .null) ∨ ∃ v ms, id = some v ∧ v ≠ .null ∧ confirmedAt = .time ms ∧
      confirmInvoiceFunction (parameterText P v) amountPaid ms L = .ok L' := by
  rcases confirmedAt with - | ms
  · simp [confirmStatement] at h
  · rcases id with - | v
    · simp [confirmStatement] at h
    · by_cases hv : v = .null
      · simp only [hv, confirmStatement, Except.ok.injEq] at h
        exact Or.inl ⟨h.symm, by rw [hv]⟩
      · refine Or.inr ⟨v, ms, rfl, hv, rfl, ?_⟩
        cases v <;> first | exact absurd rfl hv | exact h

theorem admitted_confirmStatement {id : Value} {amountPaid : ℤ} {confirmedAt : JsDate} {L' : Ledger}
    (h : confirmStatement P id amountPaid confirmedAt L = .ok L') (pubkey : Bytes) :
    L'.Admitted pubkey ↔ L.Admitted pubkey := by
  obtain ⟨rfl, -⟩ | ⟨v, ms, -, -, -, hfunction⟩ := confirmStatement_cases h
  · rfl
  · exact admitted_confirmInvoiceFunction hfunction pubkey

/-- **A transaction** leaves the tables alone, or both of its statements have
taken effect. -/
theorem transact_cases (first second : Ledger → Except String Ledger) :
    (transact F first second L).2 = L ∨
    ∃ L₁ L₂, first L = .ok L₁ ∧ second L₁ = .ok L₂ ∧ (transact F first second L).2 = L₂ := by
  rw [transact]
  rcases F.begin with - | e
  · rcases hF : F.first with - | e
    · rcases h₁ : first L with e | L₁
      · exact Or.inl rfl
      · rcases h₂ : second L₁ with e | L₂
        · simp [guardedBy, h₂]
        · simp only [guardedBy, h₂]
          rcases F.commit with - | e
          · exact Or.inr ⟨L₁, L₂, rfl, h₂, rfl⟩
          · rcases F.committed with - | -
            · exact Or.inl rfl
            · exact Or.inr ⟨L₁, L₂, rfl, h₂, rfl⟩
    · exact Or.inl rfl
  · exact Or.inl rfl

/-- Without faults a transaction does what its statements do. -/
theorem transact_none {first second : Ledger → Except String Ledger} {L₁ : Ledger}
    (h₁ : first L = .ok L₁) : transact .none first second L =
      match second L₁ with
      | .error e => (.error e, L)
      | .ok L₂ => (.ok (), L₂) := by
  simp only [transact, TransactionFaults.none, guardedBy, h₁]
  rcases second L₁ with e | L₂
  · rfl
  · rfl

/-- The calls that reach the upsert of the payee: they pass the guards, and
the amount reaches a fee that is not zero. -/
def Admits (P : Platform) (settings : Settings) (invoice : Invoice) : Prop :=
  ∃ confirmedAt amountPaid fee, confirmGuards P invoice = .ok (confirmedAt, amountPaid) ∧
    admissionFeeAmount settings invoice.pubkey = .ok fee ∧ 0 < fee ∧
    fee ≤ amountPaidMsat invoice.unit amountPaid

theorem admitPayee_cases {fault : Option String} {amountPaid : ℤ} {L' : Ledger}
    (h : admitPayee P settings fault invoice amountPaid L = .ok L') :
    L' = L ∨ ∃ fee pubkey, admissionFeeAmount settings invoice.pubkey = .ok fee ∧ 0 < fee ∧
      fee ≤ amountPaidMsat invoice.unit amountPaid ∧ toBuffer P invoice.pubkey = .ok pubkey ∧
      L' = upsertUser pubkey (some true) L := by
  rw [admitPayee] at h
  rcases hfee : admissionFeeAmount settings invoice.pubkey with e | fee
  · simp [hfee] at h
  · simp only [hfee] at h
    split at h
    · next hreach =>
      rcases fault with - | e
      · simp only [guardedBy, upsertStatement] at h
        rcases hp : toBuffer P invoice.pubkey with e | pubkey
        · simp [hp] at h
        · simp only [hp, Except.ok.injEq] at h
          exact Or.inr ⟨fee, pubkey, rfl, hreach.1, hreach.2, rfl, h.symm⟩
      · simp [guardedBy] at h
    · exact Or.inl (Except.ok.inj h).symm

/-- **`confirmInvoice`** changes nothing, or confirms its invoice, or
confirms it and admits its payee. -/
theorem confirmInvoice_cases :
    (confirmInvoice P settings F invoice L).2 = L ∨
    ∃ confirmedAt amountPaid L₁, confirmGuards P invoice = .ok (confirmedAt, amountPaid) ∧
      confirmStatement P invoice.id amountPaid confirmedAt L = .ok L₁ ∧
      ((confirmInvoice P settings F invoice L).2 = L₁ ∨
        ∃ fee pubkey, admissionFeeAmount settings invoice.pubkey = .ok fee ∧ 0 < fee ∧
          fee ≤ amountPaidMsat invoice.unit amountPaid ∧ toBuffer P invoice.pubkey = .ok pubkey ∧
          (confirmInvoice P settings F invoice L).2 = upsertUser pubkey (some true) L₁) := by
  rw [confirmInvoice]
  rcases hguards : confirmGuards P invoice with e | ⟨confirmedAt, amountPaid⟩
  · exact Or.inl rfl
  · dsimp only
    rcases transact_cases (F := F) (L := L) (confirmStatement P invoice.id amountPaid confirmedAt)
      (admitPayee P settings F.second invoice amountPaid) with hsame | ⟨L₁, L₂, h₁, h₂, heq⟩
    · exact Or.inl hsame
    · refine Or.inr ⟨confirmedAt, amountPaid, L₁, rfl, h₁, ?_⟩
      rw [heq]
      exact admitPayee_cases h₂

end NostrMesh.Payments
