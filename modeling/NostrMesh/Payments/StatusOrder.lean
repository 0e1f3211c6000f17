/-
NostrMesh/Payments/StatusOrder.lean

Whether the status of an invoice only moves forward, from `pending` to
`completed`, while callback handlers and maintenance passes interleave.

A handler gets a status from a request body or from the payment processor,
and writes it later; `updateStatus` does not look at the row that it
overwrites.  In between the handler holds the status (`Holds`).  The status of an
invoice moves forward in the runs in which it is not completed while a handler
holds another status for it (`onlyForward_of_orderly`).  In all runs it does not:
a maintenance pass that asked before the payment overtakes the callback that
reports it (`not_onlyForward_stale`).
-/
import NostrMesh.Payments.Completion

namespace NostrMesh.Payments

open Interleaving
open Json (Value)

variable {P : Platform} {settings : Settings} {environment : Environment}
variable {L L' : Ledger} {id : String}

/-! ### The property -/

/-- The stored status is `completed`. -/
def Completed (L : Ledger) (id : String) : Prop :=
  ∃ row, L.invoice id = some row ∧ row.status = some .completed

/-- The values that take the place of the status `completed`. -/
def backwardUpdates : List StatusUpdate :=
  [.null, .set InvoiceStatus.pending.text, .set InvoiceStatus.expired.text]

/-- A status update is executed, the row that it finds is completed, and its
status is another one. -/
def Reverts (P : Platform) (L L' : Ledger) : Op → Prop
  | .updateStatus id status => L' = (updateStatus P id status L).2 ∧
      ∃ name, boundText P id = some name ∧ Completed L name ∧ statusUpdate P status ∈ backwardUpdates
  | _ => False

/-- The operation writes a status that takes the place of `completed`. -/
def Op.IsBackward (P : Platform) (name : String) : Op → Prop
  | .updateStatus id status => boundText P id = some name ∧ statusUpdate P status ∈ backwardUpdates
  | _ => False

/-- The operation asks the payment processor for a status. -/
def Op.Asks : Op → Prop
  | .getInvoice _ => True
  | _ => False

/-- A handler has got a status other than `completed` for an invoice, and has not
written it yet: it may do so before it asks for another one. -/
def Holds (P : Platform) (name : String) {α : Type} : Handler α → Prop
  | .ret _ => False
  | .op o k => o.IsBackward P name ∨ ¬ o.Asks ∧ ∃ r, Holds P name (k r)

section

variable {ι : Type*} [DecidableEq ι]

/-- A step of the callback handlers and the maintenance passes. -/
abbrev AnyStep (P : Platform) (settings : Settings) :
    Pool Op Res Ledger Answer ι → Pool Op Res Ledger Answer ι → Prop :=
  PoolStep fun _ => eff P settings

/-- A step in which nobody gets a status other than `completed` for an invoice
that is completed, and no invoice is completed for which somebody holds one. -/
structure OrderlyStep (P : Platform) (settings : Settings) (c c' : Pool Op Res Ledger Answer ι) :
    Prop where
  step : AnyStep P settings c c'
  obtained : ∀ i name, Holds P name (c'.2 i) → ¬ Holds P name (c.2 i) → ¬ Completed c.1 name
  completed : ∀ name, ¬ Completed c.1 name → Completed c'.1 name → ∀ i, ¬ Holds P name (c'.2 i)

/-- In runs of these steps, once the status of an invoice is `completed`, it is
never again `pending` or `expired`. -/
def OnlyForward (P : Platform) (settings : Settings) (environment : Environment)
    (step : Pool Op Res Ledger Answer ι → Pool Op Res Ledger Answer ι → Prop)
    (requests : ι → Request) (L : Ledger) : Prop :=
  ∀ c c', Relation.ReflTransGen step (begun P settings environment requests L) c →
    Relation.ReflTransGen step c c' →
    ∀ id, Completed c.1 id → ∀ row, c'.1.invoice id = some row →
      row.status ≠ some .pending ∧ row.status ≠ some .expired

end

/-! ### One operation -/

/-- Every update of a completed row that succeeds leaves it completed, or is a
backward one. -/
theorem apply_of_completed {update : StatusUpdate} {new : Option InvoiceStatus}
    (h : update.apply (some .completed) = .ok new) :
    new = some .completed ∨ update ∈ backwardUpdates := by
  cases update with
  | keep => exact Or.inl (Except.ok.inj h).symm
  | null => exact Or.inr List.mem_cons_self
  | set value =>
      rw [StatusUpdate.apply] at h
      rcases htext : InvoiceStatus.ofText value with - | status
      · simp [htext] at h
      · have hvalue : status.text = value := by simpa using List.find?_some htext
        simp only [htext, Except.ok.injEq] at h
        subst h hvalue
        cases status with
        | completed => exact Or.inl rfl
        | pending => exact Or.inr (by simp [backwardUpdates])
        | expired => exact Or.inr (by simp [backwardUpdates])

/-- **Only a status update that reverts** takes the status `completed` away. -/
theorem completed_of_eff {o : Op} {r : Res o} (h : eff P settings o L r L')
    (hforward : ¬ Reverts P L L' o) (hcompleted : Completed L id) : Completed L' id := by
  obtain ⟨row, hrow, hstatus⟩ := hcompleted
  cases o with
  | now => exact ⟨row, h ▸ hrow, hstatus⟩
  | getInvoice id => exact ⟨row, h ▸ hrow, hstatus⟩
  | findById id => exact ⟨row, h.1 ▸ hrow, hstatus⟩
  | findPendingInvoices offset limit => exact ⟨row, h.1 ▸ hrow, hstatus⟩
  | sendInvoiceUpdateNotification invoice => exact ⟨row, h ▸ hrow, hstatus⟩
  | updateStatus id' status =>
      obtain ⟨rfl, -⟩ | ⟨hL', -⟩ := h
      · exact ⟨row, hrow, hstatus⟩
      obtain hsame | ⟨name, row', new, hname, hrow', hnew, heq⟩ := updateStatus_cases P id' status L
      · exact ⟨row, by rw [hL', hsame, hrow], hstatus⟩
      have hinvoice := Ledger.invoice_modifyInvoice (L := L) name (InvoiceRow.setStatus new)
        (fun _ => rfl) id
      have hledger : L' = L.modifyInvoice name (InvoiceRow.setStatus new) := by rw [hL', heq]
      rw [← hledger] at hinvoice
      -- the update is of this invoice, or of another one
      by_cases hid : id = name
      · subst hid
        obtain rfl := Option.some.inj (hrow.symm.trans hrow')
        rw [hstatus] at hnew
        refine ⟨_, by rw [hinvoice, if_pos rfl, hrow]; rfl, ?_⟩
        exact (apply_of_completed hnew).resolve_right fun hback =>
          hforward ⟨hL', id, hname, ⟨row, hrow, hstatus⟩, hback⟩
      · exact ⟨row, by rw [hinvoice, if_neg hid, hrow], hstatus⟩
  | confirmInvoice invoice =>
      obtain ⟨F, heq⟩ := h
      obtain rfl : L' = (confirmInvoice P settings F invoice L).2 := by rw [← heq]
      obtain hsame | ⟨name, row', amount, ms, -, hrow', -, hconfirmed⟩ :=
        confirmInvoice_invoices P settings F invoice L
      · exact ⟨row, by rw [hsame, hrow], hstatus⟩
      by_cases hid : id = name
      · subst hid
        obtain rfl := Option.some.inj (hrow.symm.trans hrow')
        exact ⟨row.confirm amount ms, by rw [hconfirmed, if_pos rfl], hstatus⟩
      · exact ⟨row, by rw [hconfirmed, if_neg hid, hrow], hstatus⟩

/-! ### What handlers hold -/

theorem not_holds_confirmAndNotify (confirmed notified : Invoice) (body : String) :
    ¬ Holds P id (confirmAndNotify confirmed notified body) := by
  rintro (hback | ⟨-, r, hholds⟩)
  · exact hback
  · rcases r with e | _
    · exact hholds
    · rcases hholds with hback | ⟨-, r, hholds⟩
      · exact hback
      · rcases r with e | _
        · exact hholds
        · exact hholds

/-- A callback writes the status of its body first, and holds nothing after
that. -/
theorem updateAndConfirm_eq (P : Platform) (invoice : Invoice) (argument : Invoice → Invoice → Invoice)
    (body : String) : ∃ k, updateAndConfirm invoice argument body =
      .op (.updateStatus invoice.id invoice.status) k ∧ ∀ r id, ¬ Holds P id (k r) := by
  refine ⟨_, rfl, fun r id hholds => ?_⟩
  rcases r with e | - | row
  · exact hholds
  · exact hholds
  · simp only [Prog.ret_bind] at hholds
    split at hholds
    · exact hholds
    · exact not_holds_confirmAndNotify _ _ _ hholds

/-- So what it holds is what its body says. -/
theorem holds_updateAndConfirm_iff {invoice : Invoice} {argument : Invoice → Invoice → Invoice}
    {body : String} : Holds P id (updateAndConfirm invoice argument body) ↔
      boundText P invoice.id = some id ∧ statusUpdate P invoice.status ∈ backwardUpdates := by
  obtain ⟨k, heq, hnone⟩ := updateAndConfirm_eq P invoice argument body
  rw [heq]
  refine ⟨?_, Or.inl⟩
  rintro (hback | ⟨-, r, hholds⟩)
  · exact hback
  · exact absurd hholds (hnone r id)

/-- A maintenance pass that has not asked holds nothing. -/
theorem not_holds_onSchedule (settings : Settings) : ¬ Holds P id (onSchedule settings) := by
  rw [onSchedule]
  split
  · exact fun hholds => hholds
  · rintro (hback | ⟨-, r, hholds⟩)
    · exact hback
    · rcases r with e | - | ⟨row, rows⟩
      · exact hholds
      · exact hholds
      · rcases hholds with hback | ⟨hasks, -⟩
        · exact hback
        · exact hasks trivial

/-! ### Runs -/

section

variable {ι : Type*} [DecidableEq ι] {c c' : Pool Op Res Ledger Answer ι}

/-- What is held is for invoices that are not completed. -/
def Timely (P : Platform) (c : Pool Op Res Ledger Answer ι) : Prop :=
  ∀ i name, Holds P name (c.2 i) → ¬ Completed c.1 name

theorem Timely.step (h : Timely P c) (hstep : OrderlyStep P settings c c') : Timely P c' := by
  intro i name hholds hcompleted
  -- the invoice was completed when the status was got, or has been since
  by_cases hbefore : Completed c.1 name
  · by_cases hheld : Holds P name (c.2 i)
    · exact h i name hheld hbefore
    · exact hstep.obtained i name hholds hheld hbefore
  · exact hstep.completed name hbefore hcompleted i hholds

/-- A step of a pool in which nothing is held for a completed invoice leaves it
completed. -/
theorem Timely.completed (h : Timely P c) (hstep : AnyStep P settings c c')
    (hcompleted : Completed c.1 id) : Completed c'.1 id := by
  cases hstep with
  | @step L L' p o k r i hi heff =>
      refine completed_of_eff heff (fun hreverts => ?_) hcompleted
      cases o with
      | updateStatus id' status =>
          obtain ⟨-, name, hname, hrow, hback⟩ := hreverts
          refine h i name ?_ hrow
          simp only [hi]
          exact Or.inl ⟨hname, hback⟩
      | now => exact hreverts
      | getInvoice id' => exact hreverts
      | findById id' => exact hreverts
      | findPendingInvoices offset limit => exact hreverts
      | confirmInvoice invoice => exact hreverts
      | sendInvoiceUpdateNotification invoice => exact hreverts

theorem Timely.of_reaches (h : Timely P c) (hr : Relation.ReflTransGen (OrderlyStep P settings) c c') :
    Timely P c' := by
  induction hr with
  | refl => exact h
  | tail _ hstep ih => exact ih.step hstep

theorem Timely.completed_of_reaches (h : Timely P c)
    (hr : Relation.ReflTransGen (OrderlyStep P settings) c c') (hcompleted : Completed c.1 id) :
    Completed c'.1 id := by
  induction hr with
  | refl => exact hcompleted
  | tail hr hstep ih => exact (h.of_reaches hr).completed hstep.step ih

/-- **The status only moves forward** if no request brings a status other than
`completed` for an invoice that is completed already, and no invoice is completed
between the time when somebody gets another status for it and the time when that
is written. -/
theorem onlyForward_of_orderly (P : Platform) (settings : Settings) (environment : Environment)
    {requests : ι → Request} {L : Ledger}
    (hrequests : ∀ i name, Holds P name (handle P settings environment (requests i)) →
      ¬ Completed L name) :
    OnlyForward P settings environment (OrderlyStep P settings) requests L := by
  intro c c' hc hr id hcompleted row hrow
  have hbegun : Timely P (begun P settings environment requests L) := hrequests
  obtain ⟨row', hrow', hstatus⟩ := (hbegun.of_reaches hc).completed_of_reaches hr hcompleted
  obtain rfl := Option.some.inj (hrow'.symm.trans hrow)
  rw [hstatus]
  exact ⟨by decide, by decide⟩

end

/-! ### An answer that is too old -/

/-- The payment processor, asked before the invoice is paid. -/
def pendingAnswer : PartialInvoice where
  id := some (.str "8f2c1a")
  status := some (.str "pending")
  confirmedAt := none
  pubkey := some (some (.str (Bytes.toHex payer)))
  amountRequested := some (some 1000000)
  amountPaid := some none
  unit := some (some (.str "msats"))

/-- A maintenance pass and Zebedee's notification. -/
def staleRequests : Bool → Request
  | false => .maintenance
  | true => .zebedee "::1" zebedeeBody

/-- If the notification comes before the pass begins, the invoice stays
completed. -/
theorem onlyForward_prompt :
    OnlyForward samplePlatform sampleSettings sampleEnvironment
      (OrderlyStep samplePlatform sampleSettings) staleRequests
      (pendingLedger (pendingInvoice .msats 1000000)) ∧
    ∃ c, Relation.ReflTransGen (OrderlyStep samplePlatform sampleSettings)
      (begun samplePlatform sampleSettings sampleEnvironment staleRequests
        (pendingLedger (pendingInvoice .msats 1000000))) c ∧ Completed c.1 "8f2c1a" := by
  have hpending : ∀ name, ¬ Completed (pendingLedger (pendingInvoice .msats 1000000)) name := by
    rintro name ⟨row, hrow, hstatus⟩
    rw [List.mem_singleton.mp (Keyed.mem_of_lookup hrow)] at hstatus
    cases hstatus
  refine ⟨onlyForward_of_orderly _ _ _ fun _ name _ => hpending name, ?_⟩
  obtain ⟨invoice, hinvoice, hid, hstatus⟩ : ∃ invoice,
      fromZebedeeInvoice samplePlatform zebedeeBody = .ok invoice ∧
        invoice.id = some (.str "8f2c1a") ∧ invoice.status = some (.str "completed") := by
    have hamount : Json.toBigInt samplePlatform.textOf (zebedeeBody.prop "amount") = .ok 1000000 := by
      rfl
    exact ⟨_, by rw [fromZebedeeInvoice, hamount], rfl, rfl⟩
  obtain ⟨k, hupdate, hnone⟩ := updateAndConfirm_eq samplePlatform invoice zebedeeArgument "OK"
  rw [hid, hstatus] at hupdate
  have hhandle : handle samplePlatform sampleSettings sampleEnvironment (staleRequests true) =
      .op (.updateStatus (some (.str "8f2c1a")) (some (.str "completed"))) k := by
    rw [← hupdate, staleRequests, handle, zebedeeCallback, hinvoice]
    rfl
  have hcomplete : (updateStatus samplePlatform (some (.str "8f2c1a")) (some (.str "completed"))
      (pendingLedger (pendingInvoice .msats 1000000))).2 =
      pendingLedger (pendingInvoice .msats 1000000).complete := by
    decide +kernel
  have hnobody : ∀ r i name, ¬ Holds samplePlatform name (Function.update (fun i => handle
      samplePlatform sampleSettings sampleEnvironment (staleRequests i)) true (k r) i) := by
    intro r i name
    cases i with
    | false =>
        rw [Function.update_of_ne Bool.false_ne_true]
        exact not_holds_onSchedule sampleSettings
    | true =>
        rw [Function.update_self]
        exact hnone r name
  refine ⟨(pendingLedger (pendingInvoice .msats 1000000).complete, _), .single
    ⟨.step true hhandle (Or.inr ⟨hcomplete.symm, Or.inl rfl⟩), fun i name hholds => ?_,
      fun name _ _ i => hnobody _ i name⟩, _, rfl, rfl⟩
  exact absurd hholds (hnobody _ i name)

/-- Nothing fails, and the payment processor gives that answer. -/
def staleWorld (o : Op) (L : Ledger) : Res o × Ledger :=
  respond samplePlatform sampleSettings 1700000000000 pendingAnswer o L

/-- The pass has asked about the invoice, and then the callback has been
handled. -/
def afterCallback : Pool Op Res Ledger Answer Bool :=
  (((begun samplePlatform sampleSettings sampleEnvironment staleRequests
    (pendingLedger (pendingInvoice .msats 1000000))).stepMember staleWorld false).stepMember
      staleWorld false).runMember staleWorld true

/-- **The maintenance pass overtakes the callback**: it has asked for the
status before the invoice is paid, and writes the answer after it has been
completed. -/
theorem not_onlyForward_stale : ¬ OnlyForward samplePlatform sampleSettings sampleEnvironment
    (AnyStep samplePlatform sampleSettings) staleRequests
    (pendingLedger (pendingInvoice .msats 1000000)) := by
  intro h
  let effs : Bool → (o : Op) → Ledger → Res o → Ledger → Prop :=
    fun _ => eff samplePlatform sampleSettings
  have hworld : ∀ i o L, effs i o L (staleWorld o L).1 (staleWorld o L).2 := fun _ o L =>
    eff_respond samplePlatform sampleSettings 1700000000000 pendingAnswer o L
  have hbefore : PoolReaches effs (begun samplePlatform sampleSettings sampleEnvironment
      staleRequests (pendingLedger (pendingInvoice .msats 1000000))) afterCallback :=
    ((PoolReaches.stepMember (hworld false) _).trans (PoolReaches.stepMember (hworld false) _)).trans
      (PoolReaches.runMember (hworld true) _)
  have hafter : PoolReaches effs afterCallback (afterCallback.runMember staleWorld false) :=
    PoolReaches.runMember (hworld false) afterCallback
  have hcompleted : afterCallback.1.invoice "8f2c1a" =
      some ((pendingInvoice .msats 1000000).complete.confirm 1000000 1700000000000) := by
    decide +kernel
  have hpending : (afterCallback.runMember staleWorld false).1.invoice "8f2c1a" =
      some ((pendingInvoice .msats 1000000).confirm 1000000 1700000000000) := by
    decide +kernel
  exact (h afterCallback _ hbefore hafter "8f2c1a" ⟨_, hcompleted, rfl⟩ _ hpending).1 rfl

end NostrMesh.Payments
