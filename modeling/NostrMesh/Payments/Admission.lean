/-
NostrMesh/Payments/Admission.lean

Who gets admitted, in runs of callbacks and maintenance passes.

Of all operations only a call of `confirmInvoice` that reaches the admission
fee admits anybody (`admits_of_eff`).  The public key, the amount and the unit
that it goes by are those of its argument, which a controller may have taken
from a request body; `Op.Agreeing` is the condition that they agree with the
stored invoice that the argument names.  In the runs that meet it, whoever
gets admitted has a confirmed invoice that pays the fee
(`admissionsBacked_of_agreeing`), and has it from then on
(`AdmissionsBacked.backed`).  Otherwise a callback about somebody else's confirmed
invoice is enough (`not_admissionsBacked_replay`).
-/
import NostrMesh.Payments.Callbacks

namespace NostrMesh.Payments

open Interleaving

variable {P : Platform} {settings : Settings} {environment : Environment}
variable {L L' : Ledger} {pubkey : Bytes}

/-! ### The property -/

/-- The table holds a confirmed invoice of the user whose amount paid reaches
the fee. -/
def Backed (settings : Settings) (L : Ledger) (pubkey : Bytes) : Prop :=
  ∃ id row paid, L.invoice id = some row ∧ row.pubkey = pubkey ∧ row.confirmedAt ≠ none ∧
    row.amountPaid = some paid ∧ applicableFee settings (Bytes.toHex pubkey) ≤ toMsats row.unit paid

/-- The amount paid of a row after a confirmation with this amount: a
confirmed row stays as it is. -/
def InvoiceRow.amountAfter (amountPaid : ℤ) (row : InvoiceRow) : Option ℤ :=
  if row.confirmedAt.isSome then row.amountPaid else some amountPaid

/-- An argument of `confirmInvoice` agrees with the invoice that it names: it
has the public key of the row, and its amount in its own unit is not more than
the row's amount in the row's unit. -/
def Agrees (P : Platform) (L : Ledger) (invoice : Invoice) : Prop :=
  ∃ id row amountPaid stored, invoice.id = some id ∧ id ≠ .null ∧
    L.invoice (parameterText P id) = some row ∧
    invoice.pubkey = some (.str (Bytes.toHex row.pubkey)) ∧ invoice.amountPaid = some amountPaid ∧
    row.amountAfter amountPaid = some stored ∧
    amountPaidMsat invoice.unit amountPaid ≤ toMsats row.unit stored

/-- A call that reaches the fee agrees with the invoice that it names, unless
its payee is admitted already. -/
def Op.Agreeing (P : Platform) (settings : Settings) (L : Ledger) : Op → Prop
  | .confirmInvoice invoice => Admits P settings invoice →
      (∀ pubkey, toBuffer P invoice.pubkey = .ok pubkey → L.Admitted pubkey) ∨ Agrees P L invoice
  | _ => True

/-- What an operation does; in runs that are `agreeing`, calls agree with the
invoices that they name. -/
def stepOf (P : Platform) (settings : Settings) (agreeing : Prop) (o : Op) (L : Ledger) (r : Res o)
    (L' : Ledger) : Prop :=
  eff P settings o L r L' ∧ (agreeing → o.Agreeing P settings L)

section

variable {ι : Type*} [DecidableEq ι]

/-- All requests have arrived, and no handler has done anything yet. -/
def begun (P : Platform) (settings : Settings) (environment : Environment) (requests : ι → Request)
    (L : Ledger) : Pool Op Res Ledger Answer ι :=
  (L, fun i => handle P settings environment (requests i))

/-- Whenever a user becomes admitted, the table holds an invoice that the user
has paid. -/
def AdmissionsBacked (P : Platform) (settings : Settings) (environment : Environment)
    (agreeing : Prop) (requests : ι → Request) (L : Ledger) : Prop :=
  ∀ c c', PoolReaches (fun _ => stepOf P settings agreeing)
      (begun P settings environment requests L) c →
    PoolStep (fun _ => stepOf P settings agreeing) c c' →
    ∀ pubkey, ¬ c.1.Admitted pubkey → c'.1.Admitted pubkey → Backed settings c'.1 pubkey

end

/-! ### Operations that admit -/

theorem admitted_congr (h : L'.users = L.users) : L'.Admitted pubkey ↔ L.Admitted pubkey := by
  rw [Ledger.Admitted, Ledger.Admitted, Ledger.user, Ledger.user, h]

/-- **Only `confirmInvoice` admits**: the guards passed, the amount of the
argument reached the fee of its public key, and the upsert took effect. -/
theorem admits_of_eff {o : Op} {r : Res o} (h : eff P settings o L r L')
    (hbefore : ¬ L.Admitted pubkey) (hafter : L'.Admitted pubkey) :
    ∃ invoice confirmedAt amountPaid fee L₁, o = .confirmInvoice invoice ∧
      confirmGuards P invoice = .ok (confirmedAt, amountPaid) ∧
      confirmStatement P invoice.id amountPaid confirmedAt L = .ok L₁ ∧
      admissionFeeAmount settings invoice.pubkey = .ok fee ∧ 0 < fee ∧
      fee ≤ amountPaidMsat invoice.unit amountPaid ∧ toBuffer P invoice.pubkey = .ok pubkey ∧
      L' = upsertUser pubkey (some true) L₁ := by
  cases o with
  | now => exact absurd (h ▸ hafter) hbefore
  | getInvoice id => exact absurd (h ▸ hafter) hbefore
  | findById id => exact absurd (h.1 ▸ hafter) hbefore
  | findPendingInvoices offset limit => exact absurd (h.1 ▸ hafter) hbefore
  | sendInvoiceUpdateNotification invoice => exact absurd (h ▸ hafter) hbefore
  | updateStatus id status =>
      obtain ⟨rfl, -⟩ | ⟨rfl, -⟩ := h
      · exact absurd hafter hbefore
      · exact absurd ((admitted_congr (updateStatus_users id status)).mp hafter) hbefore
  | confirmInvoice invoice =>
      obtain ⟨F, heq⟩ := h
      obtain rfl : L' = (confirmInvoice P settings F invoice L).2 := by rw [← heq]
      obtain hsame | ⟨confirmedAt, amountPaid, L₁, hguards, hstatement, hrest⟩ :=
        confirmInvoice_cases (P := P) (F := F) (L := L)
      · exact absurd (hsame ▸ hafter) hbefore
      · have hadmitted := admitted_confirmStatement hstatement pubkey
        obtain hL₁ | ⟨fee, pubkey', hfee, hpos, hreach, hbuffer, hupsert⟩ := hrest
        · exact absurd (hadmitted.mp (hL₁ ▸ hafter)) hbefore
        · -- the user that becomes admitted is the one of the upsert
          rw [hupsert, admitted_upsertUser] at hafter
          obtain rfl | hother := hafter
          · exact ⟨invoice, confirmedAt, amountPaid, fee, L₁, rfl, hguards, hstatement, hfee, hpos,
              hreach, hbuffer, hupsert⟩
          · exact absurd (hadmitted.mp hother) hbefore

theorem confirmGuards_ok {invoice : Invoice} {confirmedAt : JsDate} {amountPaid : ℤ}
    (h : confirmGuards P invoice = .ok (confirmedAt, amountPaid)) :
    invoice.confirmedAt = some confirmedAt ∧ invoice.IsCompleted ∧
      invoice.amountPaid = some amountPaid := by
  rw [confirmGuards] at h
  rcases hdate : invoice.confirmedAt with - | date
  · simp [hdate] at h
  · simp only [hdate] at h
    split at h
    · cases h
    · next hstatus =>
      rcases hpaid : invoice.amountPaid with - | paid
      · simp [hpaid] at h
      · simp only [hpaid, Except.ok.injEq, Prod.mk.injEq] at h
        obtain ⟨rfl, rfl⟩ := h
        exact ⟨rfl, not_not.mp hstatus, rfl⟩

/-- A confirmation whose argument agrees with the invoice leaves that invoice
confirmed, with at least the amount of the argument. -/
theorem backed_of_agrees {invoice : Invoice} {confirmedAt : JsDate} {amountPaid fee : ℤ}
    {L₁ : Ledger} (hagrees : Agrees P L invoice)
    (hguards : confirmGuards P invoice = .ok (confirmedAt, amountPaid))
    (hstatement : confirmStatement P invoice.id amountPaid confirmedAt L = .ok L₁)
    (hfee : admissionFeeAmount settings invoice.pubkey = .ok fee)
    (hreach : fee ≤ amountPaidMsat invoice.unit amountPaid)
    (hbuffer : toBuffer P invoice.pubkey = .ok pubkey) : Backed settings L₁ pubkey := by
  obtain ⟨id, row, amount, stored, hid, hnull, hrow, hpubkey, hamount, hstored, hle⟩ := hagrees
  obtain rfl : amountPaid = amount := by
    simpa [hamount] using (confirmGuards_ok hguards).2.2.symm
  rw [hpubkey, admissionFeeAmount_str, Except.ok.injEq] at hfee
  obtain rfl : row.pubkey = pubkey := by simpa [hpubkey, toBuffer] using hbuffer
  rw [← hfee] at hreach
  obtain ⟨-, heq⟩ | ⟨v, ms, hv, -, -, hfunction⟩ := confirmStatement_cases hstatement
  · exact absurd (Option.some.inj (hid.symm.trans heq)) hnull
  obtain rfl := Option.some.inj (hid.symm.trans hv)
  obtain ⟨rfl, hconfirmed⟩ | ⟨row', hrow', hconfirmed, hinvoices, -⟩ :=
    confirmInvoiceFunction_spec hfunction
  · -- the invoice was confirmed already
    have hsome := hconfirmed row hrow
    rw [InvoiceRow.amountAfter, if_pos (Option.isSome_iff_ne_none.mpr hsome)] at hstored
    exact ⟨_, row, stored, hrow, rfl, hsome, hstored, hreach.trans hle⟩
  · obtain rfl := Option.some.inj (hrow.symm.trans hrow')
    rw [InvoiceRow.amountAfter, hconfirmed, Option.isSome_none, if_neg Bool.false_ne_true,
      Option.some.injEq] at hstored
    subst hstored
    exact ⟨_, row.confirm amountPaid ms, amountPaid, (hinvoices _).trans (if_pos rfl), rfl,
      Option.some_ne_none _, rfl, hreach.trans hle⟩

@[simp] theorem backed_upsertUser {pubkey' : Bytes} {isAdmitted : Option Bool} :
    Backed settings (upsertUser pubkey' isAdmitted L) pubkey ↔ Backed settings L pubkey :=
  Iff.rfl

/-- Who gets admitted by an agreeing operation has paid. -/
theorem backed_of_step {o : Op} {r : Res o} (h : stepOf P settings True o L r L')
    (hbefore : ¬ L.Admitted pubkey) (hafter : L'.Admitted pubkey) : Backed settings L' pubkey := by
  obtain ⟨invoice, confirmedAt, amountPaid, fee, L₁, rfl, hguards, hstatement, hfee, hpos, hreach,
    hbuffer, rfl⟩ := admits_of_eff h.1 hbefore hafter
  obtain hadmitted | hagrees := h.2 trivial ⟨confirmedAt, amountPaid, fee, hguards, hfee, hpos, hreach⟩
  · exact absurd (hadmitted pubkey hbuffer) hbefore
  · exact backed_upsertUser.mpr (backed_of_agrees hagrees hguards hstatement hfee hreach hbuffer)

/-! ### What a user has paid stays -/

/-- A row of the table is there after a statement, with what matters of it. -/
theorem Backed.of_invoices (hbacked : Backed settings L pubkey)
    (h : ∀ id row, L.invoice id = some row → row.confirmedAt ≠ none →
      ∃ row', L'.invoice id = some row' ∧ row'.pubkey = row.pubkey ∧ row'.unit = row.unit ∧
        row'.amountPaid = row.amountPaid ∧ row'.confirmedAt = row.confirmedAt) :
    Backed settings L' pubkey := by
  obtain ⟨id, row, paid, hrow, hpubkey, hconfirmed, hpaid, hle⟩ := hbacked
  obtain ⟨row', hrow', hpubkey', hunit, hpaid', hconfirmed'⟩ := h id row hrow hconfirmed
  exact ⟨id, row', paid, hrow', hpubkey'.trans hpubkey, hconfirmed' ▸ hconfirmed,
    hpaid'.trans hpaid, hunit ▸ hle⟩

theorem Backed.updateStatus (hbacked : Backed settings L pubkey) (id status : Json.Value) :
    Backed settings (updateStatus P id status L).2 pubkey := by
  have hstatement : ∀ id update, Backed settings (updateStatusStatement id update L).2 pubkey := by
    intro id update
    rw [updateStatusStatement]
    rcases hrow : L.invoice id with - | row
    · exact hbacked
    · rcases hupdate : update.apply row.status with e | status
      · simpa only [hupdate] using hbacked
      · simp only [hupdate]
        refine hbacked.of_invoices fun id' row' hrow' _ => ?_
        rw [Ledger.invoice_modifyInvoice id (InvoiceRow.setStatus status) fun _ => rfl]
        split
        · next heq =>
          rw [← heq, hrow']
          exact ⟨_, rfl, rfl, rfl, rfl, rfl⟩
        · exact ⟨row', hrow', rfl, rfl, rfl, rfl⟩
  rcases id with - | - | - | - | - | - | - <;> first | exact hbacked | exact hstatement _ _

theorem Backed.confirmStatement (hbacked : Backed settings L pubkey) {id : Json.Value}
    {amountPaid : ℤ} {confirmedAt : JsDate}
    (h : confirmStatement P id amountPaid confirmedAt L = .ok L') : Backed settings L' pubkey := by
  obtain ⟨rfl, -⟩ | ⟨v, ms, -, -, -, hfunction⟩ := confirmStatement_cases h
  · exact hbacked
  obtain ⟨rfl, -⟩ | ⟨row, hrow, hnone, hinvoices, -⟩ := confirmInvoiceFunction_spec hfunction
  · exact hbacked
  · refine hbacked.of_invoices fun id' row' hrow' hconfirmed => ⟨row', ?_, rfl, rfl, rfl, rfl⟩
    rw [hinvoices, if_neg, hrow']
    rintro rfl
    exact hconfirmed (Option.some.inj (hrow'.symm.trans hrow) ▸ hnone)

/-- No operation takes back what a user has paid. -/
theorem Backed.of_eff (hbacked : Backed settings L pubkey) {o : Op} {r : Res o}
    (h : eff P settings o L r L') : Backed settings L' pubkey := by
  cases o with
  | now => exact h ▸ hbacked
  | getInvoice id => exact h ▸ hbacked
  | findById id => exact h.1 ▸ hbacked
  | findPendingInvoices offset limit => exact h.1 ▸ hbacked
  | sendInvoiceUpdateNotification invoice => exact h ▸ hbacked
  | updateStatus id status =>
      obtain ⟨rfl, -⟩ | ⟨rfl, -⟩ := h
      · exact hbacked
      · exact hbacked.updateStatus id status
  | confirmInvoice invoice =>
      obtain ⟨F, heq⟩ := h
      obtain rfl : L' = (confirmInvoice P settings F invoice L).2 := by rw [← heq]
      obtain hsame | ⟨confirmedAt, amountPaid, L₁, -, hstatement, hrest⟩ :=
        confirmInvoice_cases (P := P) (F := F) (L := L)
      · rwa [hsame]
      · have hbacked₁ := hbacked.confirmStatement hstatement
        obtain hL₁ | ⟨fee, pubkey', -, -, -, -, hupsert⟩ := hrest
        · rwa [hL₁]
        · rwa [hupsert, backed_upsertUser]

/-! ### Runs -/

section

variable {ι : Type*} [DecidableEq ι]

/-- **Admissions are paid for** in every run whose calls agree with the
invoices that they name. -/
theorem admissionsBacked_of_agreeing (P : Platform) (settings : Settings) (environment : Environment)
    (requests : ι → Request) (L : Ledger) :
    AdmissionsBacked P settings environment True requests L := by
  rintro c c' - hstep pubkey hbefore hafter
  cases hstep with
  | step i _ heff => exact backed_of_step heff hbefore hafter

/-- A handler that runs alone and without failures, as a run of the pool. -/
theorem reaches_run (requests : ι → Request) (L : Ledger) (i : ι) (now : ℤ) (answer : PartialInvoice) :
    PoolReaches (fun _ => stepOf P settings False) (begun P settings environment requests L)
      (((handle P settings environment (requests i)).run (respond P settings now answer) L).2,
        Function.update (begun P settings environment requests L).2 i (.ret
          ((handle P settings environment (requests i)).run (respond P settings now answer) L).1)) :=
  .of_runs (.of_run (fun o L => ⟨eff_respond P settings now answer o L, False.elim⟩) _ L)

/-- If whoever gets admitted has paid, then in every state of a run the users
that were not admitted at its start have paid. -/
theorem AdmissionsBacked.backed {agreeing : Prop} {requests : ι → Request}
    {c : Pool Op Res Ledger Answer ι}
    (h : AdmissionsBacked P settings environment agreeing requests L)
    (hr : PoolReaches (fun _ => stepOf P settings agreeing)
      (begun P settings environment requests L) c)
    (hbefore : ¬ L.Admitted pubkey) (hafter : c.1.Admitted pubkey) : Backed settings c.1 pubkey := by
  induction hr with
  | refl => exact absurd hafter hbefore
  | @tail c₁ c₂ hr₁ hstep ih =>
      by_cases hadmitted : c₁.1.Admitted pubkey
      · have hbacked := ih hadmitted
        cases hstep with
        | step i _ heff => exact hbacked.of_eff heff.1
      · exact h c₁ c₂ hr₁ hstep pubkey hadmitted hafter

end

/-! ### Somebody else's invoice -/

def samplePlatform : Platform where
  textOf _ := ""
  bufferFrom _ := .error "The first argument must be of type string or an instance of Buffer."
  parameterText _ := ""
  parseDate text := if text = "2023-11-14T22:13:20.000Z" then .time 1700000000000 else .invalid
  toISOString _ := "2023-11-14T22:13:20.000Z"
  hmacSha256 _ _ := []

/-- The admission costs 1000 sats. -/
def sampleSettings : Settings where
  paymentsEnabled := true
  processor := "zebedee"
  admission := [⟨true, 1000000, []⟩]
  zebedeeIpWhitelist := []

def sampleEnvironment : Environment := ⟨"", none⟩

def noAnswer : PartialInvoice := ⟨none, none, none, none, none, none, none⟩

def payer : Bytes := List.replicate 32 1

def stranger : Bytes := List.replicate 32 2

/-- The invoice of the payer, confirmed. -/
def payerLedger : Ledger where
  invoices := [⟨"8f2c1a", payer, 1000000, some 1000000, some .msats, some .completed,
    some 1700000000000⟩]
  users := [⟨payer, true, 1000000⟩]

/-- A callback about the payer's invoice, with the public key of a
stranger. -/
def replayBody : Json :=
  .obj [("id", .str "8f2c1a"), ("order_id", .str (Bytes.toHex stranger)), ("amount", .num (1000 : ℤ)),
    ("status", .str "paid")]

/-- **A stranger gets admitted** through somebody else's confirmed invoice:
the callback of OpenNode asks for no authentication, `confirm_invoice` does
nothing, and the upsert takes the public key of the body. -/
theorem not_admissionsBacked_replay :
    ¬ AdmissionsBacked samplePlatform sampleSettings sampleEnvironment False
      (fun _ : Unit => .openNode replayBody) payerLedger := by
  intro h
  have hlast : ((handle samplePlatform sampleSettings sampleEnvironment (.openNode replayBody)).run
      (respond samplePlatform sampleSettings 1700000060000 noAnswer) payerLedger).2 =
      { payerLedger with users := [⟨payer, true, 1000000⟩, ⟨stranger, true, 0⟩] } := by
    decide +kernel
  have hbacked : Backed sampleSettings _ stranger :=
    h.backed (reaches_run _ payerLedger () 1700000060000 noAnswer) (by decide) (by
      rw [hlast]
      decide)
  obtain ⟨id, row, paid, hrow, hpubkey, -⟩ := hbacked
  rw [hlast] at hrow
  -- the only invoice is the payer's
  have hmem := Keyed.mem_of_lookup hrow
  rw [List.mem_singleton.mp hmem] at hpubkey
  exact absurd hpubkey (by decide)

end NostrMesh.Payments
