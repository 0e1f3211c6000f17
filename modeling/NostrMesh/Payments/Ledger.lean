/-
NostrMesh/Payments/Ledger.lean

The tables `invoices` and `users`, and the statements on them: the status
update and the lookups of the invoice repository, the function
`confirm_invoice` and `charge_user` of the migrations, and the upsert of the
user repository.

Rows keep the columns that the statements and the callers read.  A statement
that raises an error leaves the tables as they are; errors are their texts.
-/
import NostrMesh.Lib.Bytes
import NostrMesh.Lib.Keyed

namespace NostrMesh.Payments

/-! ### Tables -/

inductive InvoiceUnit
  | msats
  | sats
  | btc
  deriving DecidableEq, Repr

inductive InvoiceStatus
  | pending
  | completed
  | expired
  deriving DecidableEq, Repr

def InvoiceUnit.text : InvoiceUnit → String
  | .msats => "msats"
  | .sats => "sats"
  | .btc => "btc"

def InvoiceStatus.text : InvoiceStatus → String
  | .pending => "pending"
  | .completed => "completed"
  | .expired => "expired"

/-- The status that a text stands for. -/
def InvoiceStatus.ofText (text : String) : Option InvoiceStatus :=
  [.pending, .completed, .expired].find? fun status => status.text = text

theorem InvoiceStatus.ofText_text (status : InvoiceStatus) : ofText status.text = some status := by
  cases status <;> decide

/-- The unit that a text stands for. -/
def InvoiceUnit.ofText (text : String) : Option InvoiceUnit :=
  [.msats, .sats, .btc].find? fun unit => unit.text = text

theorem InvoiceUnit.ofText_text (unit : InvoiceUnit) : ofText unit.text = some unit := by
  cases unit <;> decide

/-- A row of `invoices`; times are in milliseconds. -/
structure InvoiceRow where
  id : String
  pubkey : Bytes
  amountRequested : ℤ
  amountPaid : Option ℤ
  unit : Option InvoiceUnit
  status : Option InvoiceStatus
  confirmedAt : Option ℤ
  deriving DecidableEq, Repr

/-- A row of `users`. -/
structure UserRow where
  pubkey : Bytes
  isAdmitted : Bool
  balance : ℤ
  deriving DecidableEq, Repr

structure Ledger where
  invoices : List InvoiceRow
  users : List UserRow
  deriving DecidableEq, Repr

namespace Ledger

variable (L : Ledger)

def invoice (id : String) : Option InvoiceRow := Keyed.lookup InvoiceRow.id id L.invoices

def user (pubkey : Bytes) : Option UserRow := Keyed.lookup UserRow.pubkey pubkey L.users

def Admitted (pubkey : Bytes) : Prop := ∃ user, L.user pubkey = some user ∧ user.isAdmitted = true

instance (pubkey : Bytes) : Decidable (L.Admitted pubkey) :=
  decidable_of_iff ((L.user pubkey).any UserRow.isAdmitted = true) (by
    rcases h : L.user pubkey with - | user <;> simp [Admitted, h])

def modifyInvoice (id : String) (f : InvoiceRow → InvoiceRow) : Ledger :=
  { L with invoices := Keyed.modify InvoiceRow.id id f L.invoices }

def modifyUser (pubkey : Bytes) (f : UserRow → UserRow) : Ledger :=
  { L with users := Keyed.modify UserRow.pubkey pubkey f L.users }

@[simp] theorem modifyInvoice_users (id : String) (f : InvoiceRow → InvoiceRow) :
    (L.modifyInvoice id f).users = L.users := rfl

@[simp] theorem modifyUser_invoices (pubkey : Bytes) (f : UserRow → UserRow) :
    (L.modifyUser pubkey f).invoices = L.invoices := rfl

@[simp] theorem user_modifyInvoice (id : String) (f : InvoiceRow → InvoiceRow) (pubkey : Bytes) :
    (L.modifyInvoice id f).user pubkey = L.user pubkey := rfl

@[simp] theorem invoice_modifyUser (pubkey : Bytes) (f : UserRow → UserRow) (id : String) :
    (L.modifyUser pubkey f).invoice id = L.invoice id := rfl

variable {L}

theorem invoice_modifyInvoice (id : String) (f : InvoiceRow → InvoiceRow)
    (hf : ∀ row, (f row).id = row.id) (id' : String) : (L.modifyInvoice id f).invoice id' =
      if id' = id then (L.invoice id).map f else L.invoice id' :=
  Keyed.lookup_modify (fun row hrow => (hf row).trans hrow) id'

theorem user_modifyUser (pubkey : Bytes) (f : UserRow → UserRow)
    (hf : ∀ row, (f row).pubkey = row.pubkey) (pubkey' : Bytes) :
    (L.modifyUser pubkey f).user pubkey' =
      if pubkey' = pubkey then (L.user pubkey).map f else L.user pubkey' :=
  Keyed.lookup_modify (fun row hrow => (hf row).trans hrow) pubkey'

end Ledger

/-! ### Amounts -/

/-- What one unit is in millisatoshis; an amount without unit counts as it
is. -/
def InvoiceUnit.scale : Option InvoiceUnit → ℤ
  | some .sats => 1000
  | some .btc => 1000 * 100000000
  | _ => 1

def toMsats (unit : Option InvoiceUnit) (amount : ℤ) : ℤ := amount * InvoiceUnit.scale unit

theorem InvoiceUnit.one_le_scale (unit : Option InvoiceUnit) : 1 ≤ InvoiceUnit.scale unit := by
  rcases unit with - | - | - | - <;> decide

/-- A value of type `bigint`. -/
def inBigint (n : ℤ) : Bool := -9223372036854775808 ≤ n && n ≤ 9223372036854775807

/-! ### `InvoiceRepository.updateStatus` -/

/-- The new value of the column `status`: as it was, null, or a text that the
column's check has to accept. -/
inductive StatusUpdate
  | keep
  | null
  | set (value : String)
  deriving DecidableEq, Repr

/-- The status after the update. -/
def StatusUpdate.apply (update : StatusUpdate) (old : Option InvoiceStatus) :
    Except String (Option InvoiceStatus) :=
  match update with
  | .keep => .ok old
  | .null => .ok none
  | .set value =>
      match InvoiceStatus.ofText value with
      | some status => .ok (some status)
      | none => .error
          "new row for relation \"invoices\" violates check constraint \"invoices_status_check\""

def InvoiceRow.setStatus (status : Option InvoiceStatus) (row : InvoiceRow) : InvoiceRow :=
  { row with status }

/-- `UPDATE invoices SET status = …, updated_at = … WHERE id = … RETURNING *`. -/
def updateStatusStatement (id : String) (update : StatusUpdate) (L : Ledger) :
    Except String (Option InvoiceRow) × Ledger :=
  match L.invoice id with
  | none => (.ok none, L)
  | some row =>
      match update.apply row.status with
      | .error e => (.error e, L)
      | .ok status =>
          (.ok (some (row.setStatus status)), L.modifyInvoice id (InvoiceRow.setStatus status))

/-! ### `confirm_invoice` -/

/-- What the function adds to the balance: null for a unit that is not
there. -/
def credit (unit : Option InvoiceUnit) (amountReceived : ℤ) : Option ℤ :=
  unit.map fun unit => toMsats (some unit) amountReceived

def UserRow.addBalance (amount : ℤ) (user : UserRow) : UserRow :=
  { user with balance := user.balance + amount }

/-- `UPDATE users SET balance = balance + … WHERE pubkey = payee`. -/
def addBalance (payee : Bytes) (amount : ℤ) (L : Ledger) : Except String Ledger :=
  match L.user payee with
  | none => .ok L
  | some user =>
      if !inBigint amount || !inBigint (user.balance + amount) then .error "bigint out of range"
      else .ok (L.modifyUser payee (UserRow.addBalance amount))

/-- The row of an invoice that has just been confirmed. -/
def InvoiceRow.confirm (amountReceived confirmationDate : ℤ) (row : InvoiceRow) : InvoiceRow :=
  { row with confirmedAt := some confirmationDate, amountPaid := some amountReceived }

/-- `confirm_invoice(invoice_id, amount_received, confirmation_date)`. -/
def confirmInvoiceFunction (invoiceId : String) (amountReceived confirmationDate : ℤ) (L : Ledger) :
    Except String Ledger :=
  if !inBigint amountReceived then
    .error ("value \"" ++ toString amountReceived ++ "\" is out of range for type bigint")
  else
    match L.invoice invoiceId with
    | none => .ok L
    | some row =>
        if row.confirmedAt.isSome then .ok L
        else
          let L := L.modifyInvoice invoiceId (InvoiceRow.confirm amountReceived confirmationDate)
          match credit row.unit amountReceived with
          | none => .ok L
          | some amount => addBalance row.pubkey amount L

/-! ### `charge_user` -/

def UserRow.charge (amount : ℤ) (user : UserRow) : UserRow :=
  { user with balance := user.balance - amount }

/-- `charge_user(charged_user, amount)`: 1 if the balance covers the amount,
and 0 if it does not or there is no such user. -/
def chargeUserFunction (chargedUser : Bytes) (amount : ℤ) (L : Ledger) : Except String (ℤ × Ledger) :=
  if !inBigint amount then
    .error ("value \"" ++ toString amount ++ "\" is out of range for type bigint")
  else
    match L.user chargedUser with
    | none => .ok (0, L)
    | some user =>
        if !inBigint (user.balance - amount) then .error "bigint out of range"
        else if 0 ≤ user.balance - amount then
          .ok (1, L.modifyUser chargedUser (UserRow.charge amount))
        else .ok (0, L)

/-! ### `UserRepository.upsert` -/

/-- The row of a user that is new. -/
def newUser (pubkey : Bytes) (isAdmitted : Option Bool) : UserRow := ⟨pubkey, isAdmitted.getD false, 0⟩

def UserRow.merge (isAdmitted : Option Bool) (user : UserRow) : UserRow :=
  { user with isAdmitted := isAdmitted.getD user.isAdmitted }

/-- `INSERT INTO users … ON CONFLICT (pubkey) DO UPDATE SET …`; an
`isAdmitted` that is undefined is not sent. -/
def upsertUser (pubkey : Bytes) (isAdmitted : Option Bool) (L : Ledger) : Ledger :=
  ⟨L.invoices, Keyed.upsert UserRow.pubkey (newUser pubkey isAdmitted) (UserRow.merge isAdmitted)
    L.users⟩

/-! ### What the statements do -/

section

variable {L L' : Ledger}

@[simp] theorem invoice_upsertUser (pubkey : Bytes) (isAdmitted : Option Bool) (id : String) :
    (upsertUser pubkey isAdmitted L).invoice id = L.invoice id := rfl

/-- An upsert of a user, seen from each public key. -/
theorem user_upsertUser (pubkey : Bytes) (isAdmitted : Option Bool) (pubkey' : Bytes) :
    (upsertUser pubkey isAdmitted L).user pubkey' =
      if pubkey' = pubkey then
        some ((L.user pubkey).elim (newUser pubkey isAdmitted) (UserRow.merge isAdmitted))
      else L.user pubkey' :=
  Keyed.lookup_upsert (UserRow.merge isAdmitted)
    (fun (user : UserRow) (h : user.pubkey = pubkey) => h) pubkey'

/-- The upsert of an admitted user admits that user and nobody else. -/
theorem admitted_upsertUser (pubkey pubkey' : Bytes) :
    (upsertUser pubkey (some true) L).Admitted pubkey' ↔ pubkey' = pubkey ∨ L.Admitted pubkey' := by
  simp only [Ledger.Admitted, user_upsertUser]
  by_cases h : pubkey' = pubkey
  · rcases L.user pubkey with - | user
    · simp [h, newUser]
    · simp [h, UserRow.merge]
  · simp [h]

/-- A user that is not there gets nothing. -/
theorem addBalance_eq {payee : Bytes} {amount : ℤ} (h : addBalance payee amount L = .ok L') :
    L' = L.modifyUser payee (UserRow.addBalance amount) := by
  rw [addBalance] at h
  rcases hu : L.user payee with - | user
  · rw [hu] at h
    rw [← Except.ok.inj h, Ledger.modifyUser,
      Keyed.modify_of_not_mem (Keyed.not_mem_of_lookup_eq_none hu)]
  · rw [hu] at h
    dsimp only at h
    split at h
    · cases h
    · exact (Except.ok.inj h).symm

/-- **`confirm_invoice`**: an invoice that is not there or is confirmed
already stays as it is; otherwise the row is confirmed with the amount that
was received, and the payee is credited. -/
theorem confirmInvoiceFunction_eq {invoiceId : String} {amountReceived confirmationDate : ℤ}
    (h : confirmInvoiceFunction invoiceId amountReceived confirmationDate L = .ok L') :
    (L' = L ∧ ∀ row, L.invoice invoiceId = some row → row.confirmedAt ≠ none) ∨
    ∃ row, L.invoice invoiceId = some row ∧ row.confirmedAt = none ∧
      L' = (L.modifyInvoice invoiceId (InvoiceRow.confirm amountReceived confirmationDate)).modifyUser
        row.pubkey (UserRow.addBalance ((credit row.unit amountReceived).getD 0)) := by
  rw [confirmInvoiceFunction] at h
  split at h
  · cases h
  rcases hrow : L.invoice invoiceId with - | row
  · simp only [hrow, Except.ok.injEq] at h
    exact Or.inl ⟨h.symm, fun _ h => by cases h⟩
  rcases hconfirmed : row.confirmedAt with - | date
  · refine Or.inr ⟨row, rfl, hconfirmed, ?_⟩
    simp only [hrow, hconfirmed, Option.isSome_none, Bool.false_eq_true, if_false] at h
    rcases hcredit : credit row.unit amountReceived with - | amount
    · -- a credit of null is written as one of nothing
      simp only [hcredit, Except.ok.injEq] at h
      have hid : ∀ user : UserRow, user.addBalance 0 = user := fun user => by simp [UserRow.addBalance]
      simp only [← h, Option.getD_none, Ledger.modifyUser, Keyed.modify, hid, ite_self, List.map_id']
    · simp only [hcredit] at h
      exact addBalance_eq h
  · simp only [hrow, hconfirmed, Option.isSome_some, if_true, Except.ok.injEq] at h
    refine Or.inl ⟨h.symm, fun row' hrow' => ?_⟩
    obtain rfl := Option.some.inj hrow'
    simp [hconfirmed]

/-- The same, seen from each invoice and each user. -/
theorem confirmInvoiceFunction_spec {invoiceId : String} {amountReceived confirmationDate : ℤ}
    (h : confirmInvoiceFunction invoiceId amountReceived confirmationDate L = .ok L') :
    (L' = L ∧ ∀ row, L.invoice invoiceId = some row → row.confirmedAt ≠ none) ∨
    ∃ row, L.invoice invoiceId = some row ∧ row.confirmedAt = none ∧
      (∀ id, L'.invoice id = if id = invoiceId then
          some (row.confirm amountReceived confirmationDate) else L.invoice id) ∧
      ∀ pubkey, L'.user pubkey = if pubkey = row.pubkey then
          (L.user pubkey).map (UserRow.addBalance ((credit row.unit amountReceived).getD 0))
        else L.user pubkey := by
  refine (confirmInvoiceFunction_eq h).imp_right ?_
  rintro ⟨row, hrow, hconfirmed, rfl⟩
  refine ⟨row, hrow, hconfirmed, fun id => ?_, fun pubkey => ?_⟩
  · rw [Ledger.invoice_modifyUser,
      Ledger.invoice_modifyInvoice invoiceId (InvoiceRow.confirm _ _) fun _ => rfl, hrow]
    rfl
  · rw [Ledger.user_modifyUser row.pubkey (UserRow.addBalance _) fun _ => rfl,
      Ledger.user_modifyInvoice, Ledger.user_modifyInvoice]
    split
    · next heq => rw [heq]
    · rfl

/-- **`charge_user`** does nothing, or charges a user whose balance covers the
amount. -/
theorem chargeUserFunction_cases {chargedUser : Bytes} {amount charged : ℤ}
    (h : chargeUserFunction chargedUser amount L = .ok (charged, L')) :
    (charged = 0 ∧ L' = L) ∨ ∃ user, charged = 1 ∧ L.user chargedUser = some user ∧
      0 ≤ user.balance - amount ∧ L' = L.modifyUser chargedUser (UserRow.charge amount) := by
  rw [chargeUserFunction] at h
  split at h
  · cases h
  rcases huser : L.user chargedUser with - | user
  · rw [huser] at h
    cases h
    exact Or.inl ⟨rfl, rfl⟩
  · simp only [huser] at h
    split at h
    · cases h
    split at h
    · next hcovers =>
      cases h
      exact Or.inr ⟨user, rfl, rfl, hcovers, rfl⟩
    · cases h
      exact Or.inl ⟨rfl, rfl⟩

/-- A confirmation admits nobody. -/
theorem admitted_confirmInvoiceFunction {invoiceId : String} {amountReceived confirmationDate : ℤ}
    (h : confirmInvoiceFunction invoiceId amountReceived confirmationDate L = .ok L')
    (pubkey : Bytes) : L'.Admitted pubkey ↔ L.Admitted pubkey := by
  obtain ⟨rfl, -⟩ | ⟨row, -, -, -, husers⟩ := confirmInvoiceFunction_spec h
  · rfl
  · simp only [Ledger.Admitted, husers]
    split
    · rcases L.user pubkey with - | user
      · rfl
      · simp [UserRow.addBalance]
    · rfl

end

end NostrMesh.Payments
