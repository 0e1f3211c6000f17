/-
NostrMesh/Payments/Completion.lean

Invoices that are stuck: their status says `completed`, so no maintenance pass
looks at them any more, and they have no confirmation date.

A handler marks an invoice and confirms it with its next operation.  In
between it owes the confirmation (`Owes`).  `Careful` says of a program that it
owes a confirmation whenever it has marked an invoice that needs one; all
handlers are careful (`careful_handle`) as long as the payment processor
answers what it was asked for.  Handlers that are not busy owe nothing, so in
runs in which confirmations go through (`Sound`) no invoice gets stuck
(`neverStuck_of_sound`).  One transaction that fails is enough otherwise
(`not_neverStuck_zebedee`).
-/
import NostrMesh.Payments.Settlement

namespace NostrMesh.Payments

open Interleaving
open Json (Value)

variable {P : Platform} {settings : Settings} {environment : Environment}
variable {L L' : Ledger} {id : String} {invoice : Invoice}

/-! ### The property -/

/-- The invoice is completed and has no confirmation date. -/
def Stuck (L : Ledger) (id : String) : Prop :=
  ∃ row, L.invoice id = some row ∧ row.status = some .completed ∧ row.confirmedAt = none

def Unconfirmed (L : Ledger) (id : String) : Prop :=
  ∃ row, L.invoice id = some row ∧ row.confirmedAt = none

/-- Every completed invoice has a confirmation date. -/
def NoneStuck (L : Ledger) : Prop :=
  ∀ id row, L.invoice id = some row → row.status = some .completed → row.confirmedAt ≠ none

/-- A status that an update writes as `completed`. -/
def SaysCompleted (P : Platform) (status : Value) : Prop :=
  boundText P status = some InvoiceStatus.completed.text

/-- A call of `confirmInvoice` that takes effect on an invoice that is not
confirmed yet: it passes the guards, the amounts fit their columns, the fee
can be computed, and no fault undoes the transaction. -/
structure GoesThrough (P : Platform) (settings : Settings) (F : TransactionFaults) (invoice : Invoice)
    (L : Ledger) (ms amount fee : ℤ) : Prop where
  confirmedAt : invoice.confirmedAt = some (.time ms)
  status : invoice.IsCompleted
  amountPaid : invoice.amountPaid = some amount
  fits : inBigint amount = true
  credited : ∀ id row, boundText P invoice.id = some id → L.invoice id = some row →
    ∀ msats ∈ credit row.unit amount, ∀ user ∈ L.user row.pubkey,
      inBigint msats = true ∧ inBigint (user.balance + msats) = true
  schedules : admissionFeeAmount settings invoice.pubkey = .ok fee
  payee : 0 < fee → fee ≤ amountPaidMsat invoice.unit amount →
    F.second = none ∧ ∃ pubkey, toBuffer P invoice.pubkey = .ok pubkey
  begin : F.begin = none
  first : F.first = none
  commit : F.commit = none ∨ F.committed = true

/-- An answer of the payment processor that says completed is about the
invoice that it was asked for and has a confirmation date; a statement that
completes an invoice without a confirmation date answers if it takes effect;
a confirmation of such an invoice goes through. -/
def Sound (P : Platform) (settings : Settings) (L L' : Ledger) : (o : Op) → Res o → Prop
  | .getInvoice id, r => ∀ answer, r = .ok answer → SaysCompleted P answer.status →
      answer.toInvoice.IsCompleted ∧ answer.confirmedAt ≠ none ∧ answer.id = id
  | .updateStatus id status, r => ∀ name, boundText P id = some name → Unconfirmed L name →
      SaysCompleted P status → (∃ e, r = .error e) → L' = L
  | .confirmInvoice invoice, r => ∀ name, boundText P invoice.id = some name → Unconfirmed L name →
      invoice.IsCompleted → ∃ F ms amount fee, (r, L') = confirmInvoice P settings F invoice L ∧
        GoesThrough P settings F invoice L ms amount fee
  | _, _ => True

/-- What an operation does; in runs that are `sound`, operations are. -/
def soundStep (P : Platform) (settings : Settings) (sound : Prop) (o : Op) (L : Ledger) (r : Res o)
    (L' : Ledger) : Prop :=
  eff P settings o L r L' ∧ (sound → Sound P settings L L' o r)

section

variable {ι : Type*} [DecidableEq ι]

/-- No handler is busy: each has not begun, or has ended. -/
def Idle (P : Platform) (settings : Settings) (environment : Environment) (requests : ι → Request)
    (c : Pool Op Res Ledger Answer ι) : Prop :=
  ∀ i, c.2 i = handle P settings environment (requests i) ∨ ∃ answer, c.2 i = .ret answer

/-- Whenever no handler is busy, no invoice is stuck. -/
def NeverStuck (P : Platform) (settings : Settings) (environment : Environment) (sound : Prop)
    (requests : ι → Request) (L : Ledger) : Prop :=
  ∀ c, PoolReaches (fun _ => soundStep P settings sound)
      (begun P settings environment requests L) c →
    Idle P settings environment requests c → NoneStuck c.1

end

/-! ### What statements do to other invoices -/

/-- Only `completed` completes. -/
theorem apply_completed {status : Value} {old : Option InvoiceStatus}
    (h : (statusUpdate P status).apply old = .ok (some .completed)) :
    old = some .completed ∨ SaysCompleted P status := by
  rcases status with - | v
  · exact Or.inl (Except.ok.inj h)
  by_cases hv : v = .null
  · subst hv
    cases h
  right
  have hset : statusUpdate P (some v) = .set (parameterText P v) := by
    cases v <;> first | rfl | exact absurd rfl hv
  rw [SaysCompleted, boundText_some hv]
  rw [hset, StatusUpdate.apply] at h
  rcases htext : InvoiceStatus.ofText (parameterText P v) with - | status
  · simp [htext] at h
  · simp only [htext, Except.ok.injEq, Option.some.injEq] at h
    subst h
    have heq : InvoiceStatus.completed.text = parameterText P v := by
      simpa using List.find?_some htext
    rw [heq]

/-- **A confirmation** changes nothing, or confirms one row that is not
confirmed; users do not matter. -/
theorem confirmInvoice_invoices (P : Platform) (settings : Settings) (F : TransactionFaults)
    (invoice : Invoice) (L : Ledger) :
    (∀ id, (confirmInvoice P settings F invoice L).2.invoice id = L.invoice id) ∨
    ∃ name row amount ms, boundText P invoice.id = some name ∧ L.invoice name = some row ∧
      row.confirmedAt = none ∧ ∀ id, (confirmInvoice P settings F invoice L).2.invoice id =
        if id = name then some (row.confirm amount ms) else L.invoice id := by
  have hcases : (confirmInvoice P settings F invoice L).2 = L ∨ _ := confirmInvoice_cases
  obtain hsame | ⟨date, amount, L₁, -, hstatement, hrest⟩ := hcases
  · exact Or.inl fun id => by rw [hsame]
  have hinvoices : ∀ id, (confirmInvoice P settings F invoice L).2.invoice id = L₁.invoice id := by
    intro id
    obtain hL₁ | ⟨fee, pubkey, -, -, -, -, hupsert⟩ := hrest
    · rw [hL₁]
    · rw [hupsert, invoice_upsertUser]
  obtain ⟨rfl, -⟩ | ⟨v, ms, hid, hv, -, hfunction⟩ := confirmStatement_cases hstatement
  · exact Or.inl hinvoices
  obtain ⟨rfl, -⟩ | ⟨row, hrow, hnone, hconfirmed, -⟩ := confirmInvoiceFunction_spec hfunction
  · exact Or.inl hinvoices
  · exact Or.inr ⟨_, row, amount, ms, hid ▸ boundText_some hv, hrow, hnone,
      fun id => (hinvoices id).trans (hconfirmed id)⟩

/-- No operation takes a confirmation date back. -/
theorem unconfirmed_of_eff {o : Op} {r : Res o} (h : eff P settings o L r L') :
    Unconfirmed L' id → Unconfirmed L id := by
  rintro ⟨row', hrow', hnone⟩
  cases o with
  | now => exact ⟨row', h ▸ hrow', hnone⟩
  | getInvoice id => exact ⟨row', h ▸ hrow', hnone⟩
  | findById id => exact ⟨row', h.1 ▸ hrow', hnone⟩
  | findPendingInvoices offset limit => exact ⟨row', h.1 ▸ hrow', hnone⟩
  | sendInvoiceUpdateNotification invoice => exact ⟨row', h ▸ hrow', hnone⟩
  | updateStatus id' status =>
      obtain ⟨rfl, -⟩ | ⟨rfl, -⟩ := h
      · exact ⟨row', hrow', hnone⟩
      obtain hsame | ⟨name, row, new, -, hrow, -, heq⟩ := updateStatus_cases P id' status L
      · exact ⟨row', hsame ▸ hrow', hnone⟩
      rw [heq, Ledger.invoice_modifyInvoice name (InvoiceRow.setStatus new) fun _ => rfl] at hrow'
      split at hrow'
      · next hid =>
        rw [hrow] at hrow'
        obtain rfl := Option.some.inj hrow'
        exact ⟨row, hid ▸ hrow, hnone⟩
      · exact ⟨row', hrow', hnone⟩
  | confirmInvoice invoice =>
      obtain ⟨F, heq⟩ := h
      obtain rfl : L' = (confirmInvoice P settings F invoice L).2 := by rw [← heq]
      obtain hsame | ⟨name, row, amount, ms, -, hrow, -, hconfirmed⟩ :=
        confirmInvoice_invoices P settings F invoice L
      · exact ⟨row', hsame id ▸ hrow', hnone⟩
      rw [hconfirmed] at hrow'
      split at hrow'
      · obtain rfl := Option.some.inj hrow'
        cases hnone
      · exact ⟨row', hrow', hnone⟩

/-- The function confirms its invoice if the amounts fit. -/
theorem confirmInvoiceFunction_ok {name : String} {amount : ℤ} (ms : ℤ) (hfits : inBigint amount = true)
    (hcredited : ∀ row, L.invoice name = some row → ∀ msats ∈ credit row.unit amount,
      ∀ user ∈ L.user row.pubkey, inBigint msats = true ∧ inBigint (user.balance + msats) = true) :
    ∃ L', confirmInvoiceFunction name amount ms L = .ok L' ∧ ¬ Unconfirmed L' name := by
  have hok : ∃ L', confirmInvoiceFunction name amount ms L = .ok L' := by
    rw [confirmInvoiceFunction, hfits]
    rcases hrow : L.invoice name with - | row
    · exact ⟨L, rfl⟩
    rcases hdate : row.confirmedAt with - | date
    · rcases hcredit : credit row.unit amount with - | msats
      · simp [hdate, hcredit]
      · rcases huser : L.user row.pubkey with - | user
        · simp [hdate, hcredit, addBalance, huser]
        · obtain ⟨hmsats, hbalance⟩ := hcredited row hrow msats hcredit user huser
          simp [hdate, hcredit, addBalance, huser, hmsats, hbalance]
    · simp [hdate]
  obtain ⟨L', hL'⟩ := hok
  refine ⟨L', hL', ?_⟩
  rintro ⟨row', hrow', hnone⟩
  obtain ⟨rfl, hconfirmed⟩ | ⟨row, -, -, hinvoices, -⟩ := confirmInvoiceFunction_spec hL'
  · exact hconfirmed row' hrow' hnone
  · rw [hinvoices, if_pos rfl] at hrow'
    obtain rfl := Option.some.inj hrow'
    cases hnone

/-- **A confirmation that goes through** leaves its invoice confirmed. -/
theorem not_unconfirmed_of_goesThrough {F : TransactionFaults} {ms amount fee : ℤ} {name : String}
    (h : GoesThrough P settings F invoice L ms amount fee) (hname : boundText P invoice.id = some name) :
    ¬ Unconfirmed (confirmInvoice P settings F invoice L).2 name := by
  -- guards, SQL function, admission and commit go through one after the other
  have hguards : confirmGuards P invoice = .ok (.time ms, amount) :=
    confirmGuards_of_completed P h.confirmedAt h.status h.amountPaid
  obtain ⟨L₁, hfunction, hconfirmed⟩ :=
    confirmInvoiceFunction_ok ms h.fits fun row hrow => h.credited name row hname hrow
  have hstatement : confirmStatement P invoice.id amount (.time ms) L = .ok L₁ := by
    rcases hid : invoice.id with - | v
    · simp [hid, boundText] at hname
    · rw [hid] at hname
      cases v <;> cases hname <;> exact hfunction
  obtain ⟨L₂, hsecond⟩ : ∃ L₂, admitPayee P settings F.second invoice amount L₁ = .ok L₂ := by
    rw [admitPayee, h.schedules]
    dsimp only
    split
    · next hreach =>
      obtain ⟨hfault, pubkey, hpubkey⟩ := h.payee hreach.1 hreach.2
      simp [hfault, guardedBy, upsertStatement, hpubkey]
    · exact ⟨L₁, rfl⟩
  have hinvoices : L₂.invoice name = L₁.invoice name := by
    obtain rfl | ⟨fee, pubkey, -, -, -, -, rfl⟩ := admitPayee_cases hsecond
    · rfl
    · rfl
  have hafter : (confirmInvoice P settings F invoice L).2 = L₂ := by
    rw [confirmInvoice, hguards]
    simp only [transact, h.begin, h.first, guardedBy, hstatement, hsecond]
    rcases hcommit : F.commit with - | e
    · rfl
    · obtain hnone | hcommitted := h.commit
      · rw [hnone] at hcommit
        cases hcommit
      · simp [hcommitted]
  rwa [hafter, Unconfirmed, hinvoices]

/-! ### Careful programs -/

/-- The next operation confirms the invoice. -/
def Owes {α : Type} (P : Platform) : Handler α → String → Prop
  | .op (.confirmInvoice invoice) _, id => boundText P invoice.id = some id ∧ invoice.IsCompleted
  | _, _ => False

/-- A status update that has left an invoice completed. -/
def Marked (P : Platform) : (o : Op) → Res o → String → Prop
  | .updateStatus id status, r, name => boundText P id = some name ∧ SaysCompleted P status ∧
      ∃ row : InvoiceRow, r = .ok (some row) ∧ row.status = some .completed
  | _, _, _ => False

/-- A lookup that has found an invoice completed. -/
def FoundCompleted : (o : Op) → Res o → String → Prop
  | .findById id, r, name => name = id ∧
      ∃ row : InvoiceRow, r = .ok (some row) ∧ row.status = some .completed
  | _, _, _ => False

/-- What a handler can rely on in an answer. -/
def Answered (P : Platform) : (o : Op) → Res o → Prop
  | .getInvoice id, r => ∀ answer, r = .ok answer → SaysCompleted P answer.status →
      answer.toInvoice.IsCompleted ∧ answer.confirmedAt ≠ none ∧ answer.id = id
  | .findPendingInvoices _ _, r => ∀ rows : List InvoiceRow, r = .ok rows →
      ∀ row ∈ rows, row.status = some .pending
  | _, _ => True

/-- The program confirms next what it has marked, unless it knows that this is
done, or will be, by somebody else: of the invoices in `done`, and of those
that it finds completed. -/
def Careful {α : Type} (P : Platform) : (String → Prop) → Handler α → Prop
  | _, .ret _ => True
  | done, .op o k => ∀ r, Answered P o r →
      (∀ id, Marked P o r id → done id ∨ Owes P (k r) id) ∧
        Careful P (fun id => done id ∨ FoundCompleted o r id) (k r)

section

variable {α β : Type} {done done' : String → Prop} {p : Handler α} {f : α → Handler β}

theorem Owes.bind (h : Owes P p id) : Owes P (p.bind f) id := by
  rcases p with a | ⟨o, k⟩
  · cases h
  · cases o with
    | confirmInvoice invoice => exact h
    | _ => cases h

theorem Careful.mono (h : Careful P done p) (hle : ∀ id, done id → done' id) : Careful P done' p := by
  induction p generalizing done done' with
  | ret a => trivial
  | op o k ih =>
      intro r hr
      obtain ⟨hmarked, hrest⟩ := h r hr
      exact ⟨fun id hid => (hmarked id hid).imp_left (hle id),
        ih r hrest fun id => Or.imp_left (hle id)⟩

theorem Careful.bind (h : Careful P done p) (hf : ∀ a, Careful P done (f a)) :
    Careful P done (p.bind f) := by
  induction p generalizing done with
  | ret a => exact hf a
  | op o k ih =>
      intro r hr
      obtain ⟨hmarked, hrest⟩ := h r hr
      exact ⟨fun id hid => (hmarked id hid).imp_right Owes.bind,
        ih r hrest fun a => (hf a).mono fun id => Or.inl⟩

/-- An operation that marks nothing. -/
theorem Careful.op {o : Op} {k : Res o → Handler α} (hmarked : ∀ r id, ¬ Marked P o r id)
    (h : ∀ r, Answered P o r → Careful P done (k r)) : Careful P done (.op o k) :=
  fun r hr => ⟨fun id hid => absurd hid (hmarked r id), (h r hr).mono fun _ => Or.inl⟩

end

/-! ### The handlers are careful -/

section

variable {α : Type} {done : String → Prop}

theorem careful_confirmAndNotify (confirmed notified : Invoice) (body : String) :
    Careful P done (confirmAndNotify confirmed notified body) := by
  simp only [confirmAndNotify, perform, Prog.bind_eq, Prog.perform_bind, Prog.pure_eq]
  refine .op (fun _ _ => False.elim) fun r _ => ?_
  rcases r with e | -
  · trivial
  · refine .op (fun _ _ => False.elim) fun r _ => ?_
    rcases r with e | -
    · trivial
    · trivial

/-- The common end of three controllers: what it marks it confirms. -/
theorem careful_updateAndConfirm {argument : Invoice → Invoice → Invoice} {body : String}
    (hid : ∀ updatedInvoice, (argument invoice updatedInvoice).id = invoice.id)
    (hstatus : ∀ updatedInvoice, updatedInvoice.IsCompleted → SaysCompleted P invoice.status →
      (argument invoice updatedInvoice).IsCompleted) :
    Careful P done (updateAndConfirm invoice argument body) := by
  simp only [updateAndConfirm, perform, Prog.bind_eq, Prog.perform_bind, Prog.pure_eq]
  intro r _
  rcases r with e | - | row
  · refine ⟨?_, trivial⟩
    rintro id ⟨-, -, row, hrow, -⟩
    cases hrow
  · refine ⟨?_, trivial⟩
    rintro id ⟨-, -, row, hrow, -⟩
    cases hrow
  · dsimp only
    split
    · -- the controller stops here at an invoice that is not completed
      next hpending =>
      refine ⟨?_, trivial⟩
      rintro id ⟨-, -, row', hrow', hcompleted⟩
      obtain rfl := Option.some.inj (Except.ok.inj hrow')
      refine absurd ?_ hpending.1
      rw [Invoice.IsCompleted, fromDBInvoice, hcompleted]
      rfl
    · refine ⟨?_, careful_confirmAndNotify _ _ _⟩
      rintro id ⟨hname, hreport, row', hrow', hcompleted⟩
      obtain rfl := Option.some.inj (Except.ok.inj hrow')
      refine Or.inr ⟨(hid _).symm ▸ hname, hstatus _ ?_ hreport⟩
      rw [Invoice.IsCompleted, fromDBInvoice, hcompleted]
      rfl

theorem careful_openNode (body : Json) : Careful P done (openNodeCallback P body) := by
  simp only [openNodeCallback, perform, Prog.bind_eq, Prog.perform_bind, Prog.pure_eq]
  refine .op (fun _ _ => False.elim) fun now _ => ?_
  rcases fromOpenNodeInvoice P now body with e | invoice
  · trivial
  · exact careful_updateAndConfirm (fun _ => rfl) fun _ hcompleted _ => hcompleted

theorem careful_zebedee (remoteAddress : String) (body : Json) :
    Careful P done (zebedeeCallback P settings remoteAddress body) := by
  rw [zebedeeCallback]
  split
  · trivial
  split
  · trivial
  rcases fromZebedeeInvoice P body with e | invoice
  · trivial
  · exact careful_updateAndConfirm (fun _ => rfl) fun _ hcompleted _ => hcompleted

/-- A status of the Nodeless table is a string. -/
theorem isCompleted_of_statusOf {table : List (String × InvoiceStatus)} {v : Value}
    (hstatus : invoice.status = statusOf table v) (h : SaysCompleted P invoice.status) :
    invoice.IsCompleted := by
  rw [SaysCompleted, hstatus, statusOf] at h
  rw [Invoice.IsCompleted, hstatus, statusOf]
  rcases hfind : (Json.asString v).bind fun s =>
    (table.find? fun entry => entry.1 = s).map Prod.snd with - | status
  · rw [hfind] at h
    cases h
  · rw [hfind] at h ⊢
    exact h

theorem careful_nodeless (signature : Option String) (rawBody : Option Bytes) (body : Json) :
    Careful P done (nodelessCallback P settings environment signature rawBody body) := by
  unfold nodelessCallback
  rcases environment.nodelessWebhookSecret with - | secret
  · trivial
  rcases rawBody with - | rawBody
  · trivial
  simp only [perform, Prog.bind_eq, Prog.perform_bind, Prog.pure_eq]
  split
  · trivial
  split
  · trivial
  refine .op (fun _ _ => False.elim) fun now _ => ?_
  rcases hinvoice : fromNodelessInvoice P (nodelessInvoice P now body) with e | invoice
  · trivial
  · refine careful_updateAndConfirm (fun _ => rfl) fun _ _ hreport => ?_
    have hstatus : invoice.status = statusOf nodelessStatuses ((nodelessInvoice P now body).prop "status") := by
      rw [fromNodelessInvoice] at hinvoice
      split at hinvoice
      · cases hinvoice
      · rw [← Except.ok.inj hinvoice]
    have hcompleted : invoice.IsCompleted := isCompleted_of_statusOf hstatus hreport
    exact hcompleted

/-- The end of the LNbits controller: if it stops at an invoice that is
completed already, somebody else has confirmed that invoice or will. -/
theorem careful_lnbitsUpdate (paymentHash : String) :
    Careful P done (lnbitsUpdate paymentHash) := by
  simp only [lnbitsUpdate, perform, Prog.bind_eq, Prog.perform_bind, Prog.pure_eq]
  refine .op (fun _ _ => False.elim) fun r hanswered => ?_
  rcases r with e | answer
  · trivial
  intro r _
  refine ⟨fun _ => False.elim, ?_⟩
  rcases r with e | - | storedInvoice
  · trivial
  · trivial
  intro r _
  rcases r with e | updated
  · refine ⟨?_, trivial⟩
    rintro id ⟨-, -, row, hrow, -⟩
    cases hrow
  have hreport := hanswered answer rfl
  dsimp only
  split
  · next hpending =>
    refine ⟨?_, trivial⟩
    rintro id ⟨-, hcompleted, -⟩
    exact absurd (hreport hcompleted).1 hpending.1
  split
  · -- completed before this handler looked: not its own mark, but in `done`
    next hstored =>
    refine ⟨?_, trivial⟩
    rintro id ⟨hname, hcompleted, -⟩
    have hid : answer.toInvoice.id = some (.str paymentHash) := (hreport hcompleted).2.2
    rw [hid] at hname
    exact Or.inl (Or.inr ⟨(Option.some.inj hname).symm, storedInvoice, rfl, hstored⟩)
  · refine ⟨?_, careful_confirmAndNotify _ _ _⟩
    rintro id ⟨hname, hcompleted, -⟩
    exact Or.inr ⟨hname, (hreport hcompleted).1⟩

theorem careful_lnbits (hmac : Value) (body : Json) :
    Careful P done (lnbitsCallback P settings environment hmac body) := by
  rw [lnbitsCallback]
  split
  · trivial
  rcases hmacExpiry P environment hmac with e | - | expiry
  · trivial
  · trivial
  simp only [perform, Prog.bind_eq, Prog.perform_bind, Prog.pure_eq]
  refine .op (fun _ _ => False.elim) fun now _ => ?_
  split
  · trivial
  rcases Json.asString (body.prop "payment_hash") with - | paymentHash
  · trivial
  dsimp only
  split
  · trivial
  · exact careful_lnbitsUpdate paymentHash

/-- The body of the loop of the maintenance worker, on a pending invoice. -/
theorem careful_settleInvoice {row : InvoiceRow} (hpending : row.status = some .pending) :
    Careful P done (settleInvoice row) := by
  simp only [settleInvoice, perform, Prog.bind_eq, Prog.perform_bind, Prog.pure_eq]
  refine .op (fun _ _ => False.elim) fun r hanswered => ?_
  rcases r with e | updatedInvoice
  · trivial
  have hreport := hanswered updatedInvoice rfl
  dsimp only
  split
  · next id status hid hstatus =>
    intro r _
    rcases r with e | updated
    · refine ⟨?_, trivial⟩
      rintro name ⟨-, -, row', hrow', -⟩
      cases hrow'
    dsimp only
    split
    · refine ⟨?_, ?_⟩
      · rintro name ⟨hname, hcompleted, -⟩
        exact Or.inr ⟨hname, (hreport hcompleted).1⟩
      · refine .op (fun _ _ => False.elim) fun r _ => ?_
        exact .op (fun _ _ => False.elim) fun r _ => trivial
    · next hskip =>
      -- a pending invoice whose answer says completed is not skipped
      refine ⟨?_, trivial⟩
      rintro name ⟨-, hcompleted, -⟩
      obtain ⟨hanswer, hdate, -⟩ := hreport hcompleted
      have hstatus' : status = InvoiceStatus.completed.text :=
        Option.some.inj (hstatus.symm.trans hanswer)
      refine absurd ⟨?_, hstatus', hdate⟩ hskip
      rw [hpending, hstatus']
      decide
  · trivial

theorem careful_settleInvoices {rows : List InvoiceRow} (h : ∀ row ∈ rows, row.status = some .pending) :
    Careful P done (settleInvoices rows) := by
  induction rows with
  | nil => trivial
  | cons row rows ih =>
      exact (careful_settleInvoice (h row (List.mem_cons_self))).bind fun _ =>
        ih fun row' hrow' => h row' (List.mem_cons_of_mem row hrow')

theorem careful_onSchedule : Careful P done (onSchedule settings) := by
  rw [onSchedule]
  split
  · trivial
  simp only [perform, Prog.bind_eq, Prog.perform_bind, Prog.pure_eq]
  refine .op (fun _ _ => False.elim) fun r hanswered => ?_
  rcases r with e | rows
  · trivial
  · exact (careful_settleInvoices (hanswered rows rfl)).bind fun _ => trivial

/-- **All handlers are careful.** -/
theorem careful_handle (P : Platform) (settings : Settings) (environment : Environment)
    (request : Request) : Careful P done (handle P settings environment request) := by
  cases request with
  | openNode body => exact careful_openNode body
  | zebedee remoteAddress body => exact careful_zebedee remoteAddress body
  | nodeless signature rawBody body => exact careful_nodeless signature rawBody body
  | lnbits hmac body => exact careful_lnbits hmac body
  | maintenance => exact careful_onSchedule

end

/-- A handler that has not begun owes nothing. -/
theorem not_owes_handle (request : Request) : ¬ Owes P (handle P settings environment request) id := by
  -- none of them begins with a confirmation
  have hmatch : ∀ invoice : Invoice, ∀ argument body,
      ¬ Owes P (updateAndConfirm invoice argument body) id := fun _ _ _ => False.elim
  cases request with
  | openNode body => exact False.elim
  | zebedee remoteAddress body =>
      simp only [handle, zebedeeCallback]
      split
      · exact False.elim
      split
      · exact False.elim
      rcases fromZebedeeInvoice P body with e | invoice
      · exact False.elim
      · exact hmatch invoice _ _
  | nodeless signature rawBody body =>
      simp only [handle]
      unfold nodelessCallback
      rcases environment.nodelessWebhookSecret with - | secret
      · exact False.elim
      rcases rawBody with - | rawBody
      · exact False.elim
      dsimp only
      split
      · exact False.elim
      split
      · exact False.elim
      · exact False.elim
  | lnbits hmac body =>
      simp only [handle, lnbitsCallback]
      split
      · exact False.elim
      rcases hmacExpiry P environment hmac with e | - | expiry
      · exact False.elim
      · exact False.elim
      · exact False.elim
  | maintenance =>
      simp only [handle, onSchedule]
      split
      · exact False.elim
      · exact False.elim

/-! ### Runs -/

/-- An operation completes an invoice that has no confirmation date only by a
status update that answers with that invoice. -/
theorem stuck_of_soundStep {o : Op} {r : Res o} (h : soundStep P settings True o L r L')
    (hstuck : Stuck L' id) : Stuck L id ∨ Marked P o r id := by
  obtain ⟨row', hrow', hcompleted, hnone⟩ := hstuck
  have hun : Unconfirmed L id := unconfirmed_of_eff h.1 ⟨row', hrow', hnone⟩
  obtain ⟨heff, hsound⟩ := h
  cases o with
  | now => exact Or.inl ⟨row', heff ▸ hrow', hcompleted, hnone⟩
  | getInvoice id => exact Or.inl ⟨row', heff ▸ hrow', hcompleted, hnone⟩
  | findById id => exact Or.inl ⟨row', heff.1 ▸ hrow', hcompleted, hnone⟩
  | findPendingInvoices offset limit => exact Or.inl ⟨row', heff.1 ▸ hrow', hcompleted, hnone⟩
  | sendInvoiceUpdateNotification invoice => exact Or.inl ⟨row', heff ▸ hrow', hcompleted, hnone⟩
  | updateStatus id' status =>
      obtain ⟨rfl, -⟩ | ⟨hL', hanswer⟩ := heff
      · exact Or.inl ⟨row', hrow', hcompleted, hnone⟩
      obtain hsame | ⟨name, row, new, hname, hrow, hnew, heq⟩ := updateStatus_cases P id' status L
      · rw [hL', hsame] at hrow'
        exact Or.inl ⟨row', hrow', hcompleted, hnone⟩
      rw [heq] at hL' hanswer
      have hrow₁ := hrow'
      rw [hL', Ledger.invoice_modifyInvoice name (InvoiceRow.setStatus new) fun _ => rfl] at hrow₁
      split at hrow₁
      · next hid =>
        subst hid
        rw [hrow] at hrow₁
        obtain rfl := Option.some.inj hrow₁
        by_cases hbefore : row.status = some .completed
        · exact Or.inl ⟨row, hrow, hbefore, hnone⟩
        have hstatus : SaysCompleted P status := by
          have hcompleted' : new = some .completed := hcompleted
          rw [hcompleted'] at hnew
          exact (apply_completed hnew).resolve_left hbefore
        obtain hr | herror := hanswer
        · exact Or.inr ⟨hname, hstatus, _, hr, hcompleted⟩
        · -- the update has taken effect, so its answer has arrived
          have hsame := hsound trivial id hname hun hstatus herror
          rw [hsame, hrow] at hrow'
          rw [Option.some.inj hrow'] at hbefore
          exact absurd hcompleted hbefore
      · exact Or.inl ⟨row', hrow₁, hcompleted, hnone⟩
  | confirmInvoice invoice =>
      obtain ⟨F, heq⟩ := heff
      obtain rfl : L' = (confirmInvoice P settings F invoice L).2 := by rw [← heq]
      obtain hsame | ⟨name, row, amount, ms, -, hrow, -, hconfirmed⟩ :=
        confirmInvoice_invoices P settings F invoice L
      · exact Or.inl ⟨row', hsame id ▸ hrow', hcompleted, hnone⟩
      rw [hconfirmed] at hrow'
      split at hrow'
      · obtain rfl := Option.some.inj hrow'
        cases hnone
      · exact Or.inl ⟨row', hrow', hcompleted, hnone⟩

/-- What a handler may rely on follows from the answer. -/
theorem answered_of_soundStep {o : Op} {r : Res o} (h : soundStep P settings True o L r L') :
    Answered P o r := by
  obtain ⟨heff, hsound⟩ := h
  cases o with
  | getInvoice id => exact hsound trivial
  | findPendingInvoices offset limit =>
      intro rows hrows row hrow
      obtain ⟨-, ⟨table, htable, hr⟩ | ⟨e, he⟩⟩ := heff
      · obtain rfl := Except.ok.inj (hrows.symm.trans hr)
        have hmem := htable.subset (List.mem_of_mem_drop (List.mem_of_mem_take hrow))
        simpa using (List.mem_filter.mp hmem).2
      · rw [hrows] at he
        cases he
  | _ => trivial

section

variable {ι : Type*} [DecidableEq ι] {c c' : Pool Op Res Ledger Answer ι}

/-- The invoice is confirmed, or a handler is about to do it. -/
def TakenCareOf (P : Platform) (c : Pool Op Res Ledger Answer ι) (id : String) : Prop :=
  ¬ Unconfirmed c.1 id ∨ ∃ i, Owes P (c.2 i) id

/-- **The invariant**: what is stuck is about to be confirmed, and every
handler is careful, with good reason. -/
structure Cared (P : Platform) (c : Pool Op Res Ledger Answer ι) : Prop where
  stuck : ∀ id, Stuck c.1 id → ∃ i, Owes P (c.2 i) id
  careful : ∀ i, ∃ done, (∀ id, done id → TakenCareOf P c id) ∧ Careful P done (c.2 i)

/-- Once an invoice is taken care of, it stays so: who is about to confirm it
does so. -/
theorem TakenCareOf.step (hstep : PoolStep (fun _ => soundStep P settings True) c c')
    (h : TakenCareOf P c id) : TakenCareOf P c' id := by
  cases hstep with
  | @step L L' p o k r j hj hsound =>
      obtain hconfirmed | ⟨i, howes⟩ := h
      · exact Or.inl fun hun => hconfirmed (unconfirmed_of_eff hsound.1 hun)
      -- who owes the confirmation carries it out, or goes on owing it
      by_cases hij : i = j
      · left
        intro hun
        dsimp only at howes
        rw [hij, hj] at howes
        cases o with
        | confirmInvoice invoice =>
            obtain ⟨F, ms, amount, fee, heq, hthrough⟩ := hsound.2 trivial id howes.1
              (unconfirmed_of_eff hsound.1 hun) howes.2
            obtain rfl : L' = (confirmInvoice P settings F invoice L).2 := by rw [← heq]
            exact not_unconfirmed_of_goesThrough hthrough howes.1 hun
        | _ => exact howes
      · refine Or.inr ⟨i, ?_⟩
        dsimp only
        rwa [Function.update_of_ne hij]

/-- **Every step keeps the invariant.** -/
theorem Cared.step (h : Cared P c) (hstep : PoolStep (fun _ => soundStep P settings True) c c') :
    Cared P c' := by
  have htaken : ∀ id, TakenCareOf P c id → TakenCareOf P c' id := fun _ => TakenCareOf.step hstep
  have htaken' : ∀ id, Stuck c'.1 id → TakenCareOf P c' id → ∃ i, Owes P (c'.2 i) id := by
    rintro id ⟨row, hrow, -, hnone⟩ hcare
    exact hcare.resolve_left (not_not.mpr ⟨row, hrow, hnone⟩)
  cases hstep with
  | @step L L' p o k r j hj hsound =>
      obtain ⟨done, hdone, hcareful⟩ := h.careful j
      dsimp only at hcareful
      rw [hj] at hcareful
      obtain ⟨hmarked, hrest⟩ := hcareful r (answered_of_soundStep hsound)
      refine ⟨fun id hstuck => ?_, fun i => ?_⟩
      · obtain hbefore | hmark := stuck_of_soundStep hsound hstuck
        · exact htaken' id hstuck (htaken id (Or.inr (h.stuck id hbefore)))
        · obtain hid | howes := hmarked id hmark
          · exact htaken' id hstuck (htaken id (hdone id hid))
          · refine ⟨j, ?_⟩
            dsimp only
            rwa [Function.update_self]
      · by_cases hij : i = j
        · subst hij
          refine ⟨_, ?_, by simpa only [Function.update_self] using hrest⟩
          rintro id (hid | hfound)
          · exact htaken id (hdone id hid)
          · -- what a lookup finds completed is confirmed, or somebody owes it
            cases o with
            | findById name =>
                obtain ⟨rfl, row, hr, hcompleted⟩ := hfound
                obtain ⟨-, hanswer | ⟨e, he⟩⟩ := hsound.1
                · have hrow : L.invoice id = some row := Except.ok.inj (hanswer.symm.trans hr)
                  apply htaken id
                  rcases hdate : row.confirmedAt with - | date
                  · exact Or.inr (h.stuck id ⟨row, hrow, hcompleted, hdate⟩)
                  · left
                    rintro ⟨row', hrow', hnone⟩
                    obtain rfl := Option.some.inj (hrow.symm.trans hrow')
                    rw [hdate] at hnone
                    cases hnone
                · rw [hr] at he
                  cases he
            | _ => exact False.elim hfound
        · obtain ⟨done, hdone, hcareful⟩ := h.careful i
          exact ⟨done, fun id hid => htaken id (hdone id hid),
            by simpa only [Function.update_of_ne hij] using hcareful⟩

/-- **No paid invoice gets stuck** in the runs whose operations are sound:
whenever no handler is busy, every completed invoice has a confirmation
date. -/
theorem neverStuck_of_sound (P : Platform) (settings : Settings) (environment : Environment)
    (requests : ι → Request) {L : Ledger} (h : NoneStuck L) :
    NeverStuck P settings environment True requests L := by
  intro c hr
  have hcared : Cared P c := by
    induction hr with
    | refl =>
        refine ⟨?_, fun i => ⟨fun _ => False, fun _ => False.elim, careful_handle _ _ _ _⟩⟩
        rintro id ⟨row, hrow, hcompleted, hnone⟩
        exact absurd hnone (h id row hrow hcompleted)
    | tail _ hstep ih => exact ih.step hstep
  -- a handler that is idle owes nothing
  intro hidle id row hrow hcompleted hnone
  obtain ⟨i, howes⟩ := hcared.stuck id ⟨row, hrow, hcompleted, hnone⟩
  obtain hbegun | ⟨answer, hended⟩ := hidle i
  · rw [hbegun] at howes
    exact not_owes_handle _ howes
  · rw [hended] at howes
    exact howes

end

/-! ### A transaction that does not begin -/

/-- A table of which every row passes holds no stuck invoice. -/
theorem noneStuck_of_forall
    (h : ∀ row ∈ L.invoices, row.status = some .completed → row.confirmedAt ≠ none) : NoneStuck L :=
  fun _ row hrow => h row (Keyed.mem_of_lookup hrow)

/-- Zebedee reports a pending invoice paid, and nothing fails. -/
theorem neverStuck_zebedee : NeverStuck samplePlatform sampleSettings sampleEnvironment True
    (fun _ : Unit => .zebedee "::1" zebedeeBody) (pendingLedger (pendingInvoice .msats 1000000)) :=
  neverStuck_of_sound samplePlatform sampleSettings sampleEnvironment _
    (noneStuck_of_forall (by decide))

/-- The database is there for single statements, but begins no
transactions. -/
def withoutTransactions (o : Op) (L : Ledger) : Res o × Ledger :=
  match o with
  | .confirmInvoice invoice => confirmInvoice samplePlatform sampleSettings
      { TransactionFaults.none with begin := some "remaining connection slots are reserved" } invoice L
  | o => respond samplePlatform sampleSettings 1700000000000 noAnswer o L

/-- **A paid invoice gets stuck**: its status says completed when the
transaction that confirms it does not begin. -/
theorem not_neverStuck_zebedee :
    NoneStuck (pendingLedger (pendingInvoice .msats 1000000)) ∧
    ¬ NeverStuck samplePlatform sampleSettings sampleEnvironment False
      (fun _ : Unit => .zebedee "::1" zebedeeBody)
      (pendingLedger (pendingInvoice .msats 1000000)) := by
  refine ⟨noneStuck_of_forall (by decide), fun h => ?_⟩
  have hlast : ((handle samplePlatform sampleSettings sampleEnvironment
      (.zebedee "::1" zebedeeBody)).run withoutTransactions
      (pendingLedger (pendingInvoice .msats 1000000))).2 =
      pendingLedger (pendingInvoice .msats 1000000).complete := by
    decide +kernel
  have hworld : ∀ o L, soundStep samplePlatform sampleSettings False o L
      (withoutTransactions o L).1 (withoutTransactions o L).2 := by
    refine fun o L => ⟨?_, False.elim⟩
    cases o with
    | confirmInvoice invoice => exact ⟨_, rfl⟩
    | _ => exact eff_respond samplePlatform sampleSettings 1700000000000 noAnswer _ L
  have hnone := h _ (.of_runs (i := ()) (.of_run hworld _ _)) fun _ => Or.inr ⟨_, rfl⟩
  simp only [hlast] at hnone
  exact hnone "8f2c1a" (pendingInvoice .msats 1000000).complete rfl rfl rfl

end NostrMesh.Payments
