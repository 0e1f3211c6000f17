/-
NostrMesh/Payments/Atomicity.lean

What is left of a payment transaction that fails, and which error its caller
gets.

`createInvoice` and `confirmInvoice` call `rollback` in every `catch`, also
for errors that come before `begin`; `rollback` then throws an error of its
own.  `run_of_failure` says what each point of failure leads to: the tables
are always as before, the error is not always the one that caused it.

Main result: `keepsTablesAndError_iff`.
-/
import NostrMesh.Payments.OwnInvoice

namespace NostrMesh.Payments

open Json (Value)

/-! ### Points of failure -/

/-- The calls that open a transaction. -/
inductive ServiceCall
  | createInvoice (uuid : String) (pubkey : Value) (response : Except String CreateInvoiceResponse)
  | confirmInvoice (invoice : Invoice)

/-- Before the transaction, at its opening, or in a call inside it. -/
inductive FailurePoint
  | guard
  | begin
  | inside
  deriving DecidableEq, Repr

namespace ServiceCall

variable (P : Platform) (settings : Settings) (F : TransactionFaults) (L : Ledger)

/-- The call: its result or error, and the tables after it. -/
def run : ServiceCall → Except String Unit × Ledger
  | createInvoice uuid pubkey response =>
      let result := Payments.createInvoice P F uuid pubkey response L
      (result.1.map fun _ => (), result.2)
  | confirmInvoice invoice => Payments.confirmInvoice P settings F invoice L

/-- The guards before the transaction. -/
def guards : ServiceCall → Except String Unit
  | createInvoice .. => .ok ()
  | confirmInvoice invoice => (confirmGuards P invoice).map fun _ => ()

/-- The calls inside the transaction, one after the other, on its copy of the
tables. -/
def inside : ServiceCall → Except String Ledger
  | createInvoice uuid pubkey response =>
      (guardedBy F.first (upsertStatement P pubkey none L)).bind
        (storeInvoice P F.second uuid pubkey response)
  | confirmInvoice invoice =>
      (confirmGuards P invoice).bind fun (confirmedAt, amountPaid) =>
        (guardedBy F.first (confirmStatement P invoice.id amountPaid confirmedAt L)).bind
          (admitPayee P settings F.second invoice amountPaid)

/-- Where the call fails first, and with which error. -/
def failure (call : ServiceCall) : Option (FailurePoint × String) :=
  match call.guards P with
  | .error e => some (.guard, e)
  | .ok () =>
      match F.begin with
      | some e => some (.begin, e)
      | none =>
          match call.inside P settings F L with
          | .error e => some (.inside, e)
          | .ok _ => none

end ServiceCall

/-! ### The property -/

section

variable (P : Platform) (settings : Settings) (F : TransactionFaults) (L : Ledger)

/-- Wherever the call fails, the tables are as before it, and its caller gets
the error that caused the failure. -/
def KeepsTablesAndError (call : ServiceCall) : Prop :=
  ∀ point e, call.failure P settings F L = some (point, e) →
    call.run P settings F L = (.error e, L)

/-- `Transaction.rollback` before `begin`. -/
def notStarted : String := "Unable to get transaction: transaction not started."

/-- The guards pass, the transaction is opened (or fails to be with the very
text of `rollback`), and if a call inside it fails, `rollback` does not. -/
structure NotMasked (call : ServiceCall) : Prop where
  guards : call.guards P = .ok ()
  begin : ∀ e, F.begin = some e → e = notStarted
  rollback : F.begin = none → ∀ e, call.inside P settings F L = .error e →
    F.rollback = none ∨ F.rollback = some e

/-- The error that the caller gets. -/
def masked (F : TransactionFaults) (point : FailurePoint) (e : String) : String :=
  rethrown F (point = .inside) e

end

variable {P : Platform} {settings : Settings} {F : TransactionFaults} {L : Ledger}
  {call : ServiceCall} {point : FailurePoint} {e : String}

/-! ### Transactions -/

theorem transact_of_begin {first second : Ledger → Except String Ledger} (h : F.begin = some e) :
    transact F first second L = (.error (rethrown F false e), L) := by
  rw [transact, h]

theorem transact_of_inside {first second : Ledger → Except String Ledger} (hbegin : F.begin = none)
    (h : (guardedBy F.first (first L)).bind second = .error e) :
    transact F first second L = (.error (rethrown F true e), L) := by
  rw [transact, hbegin]
  dsimp only
  rcases hfirst : guardedBy F.first (first L) with e₁ | L₁
  · rw [hfirst] at h
    obtain rfl := Except.error.inj h
    rfl
  · rw [hfirst] at h
    have hsecond : second L₁ = .error e := h
    simp only [hsecond]

/-- A transaction whose calls succeed ends with its commit. -/
theorem transact_of_commit {first second : Ledger → Except String Ledger} {L₂ : Ledger}
    (hbegin : F.begin = none) (h : (guardedBy F.first (first L)).bind second = .ok L₂) :
    transact F first second L =
      match F.commit with
      | some e => (.error (rethrown F true e), if F.committed then L₂ else L)
      | none => (.ok (), L₂) := by
  rw [transact, hbegin]
  dsimp only
  rcases hfirst : guardedBy F.first (first L) with e₁ | L₁
  · rw [hfirst] at h
    cases h
  · rw [hfirst] at h
    have hsecond : second L₁ = .ok L₂ := h
    cases F.commit with
    | none => simp only [hsecond]
    | some e => simp only [hsecond]

/-! ### Failing calls -/

theorem failure_eq_guard {call : ServiceCall} (h : call.guards P = .error e) :
    call.failure P settings F L = some (.guard, e) := by
  rw [ServiceCall.failure, h]

theorem failure_eq_begin (hguards : call.guards P = .ok ()) (h : F.begin = some e) :
    call.failure P settings F L = some (.begin, e) := by
  rw [ServiceCall.failure, hguards, h]

theorem failure_eq_inside (hguards : call.guards P = .ok ()) (hbegin : F.begin = none)
    (h : call.inside P settings F L = .error e) :
    call.failure P settings F L = some (.inside, e) := by
  rw [ServiceCall.failure, hguards, hbegin, h]

/-- The points of failure, one by one. -/
theorem failure_cases (h : call.failure P settings F L = some (point, e)) :
    (point = .guard ∧ call.guards P = .error e) ∨
    (point = .begin ∧ call.guards P = .ok () ∧ F.begin = some e) ∨
    (point = .inside ∧ call.guards P = .ok () ∧ F.begin = none ∧
      call.inside P settings F L = .error e) := by
  rw [ServiceCall.failure] at h
  rcases hguards : call.guards P with e₁ | ⟨⟩
  · rw [hguards] at h
    cases h
    exact .inl ⟨rfl, rfl⟩
  rw [hguards] at h
  rcases hbegin : F.begin with - | e₁
  · rw [hbegin] at h
    rcases hinside : call.inside P settings F L with e₁ | L₂
    · rw [hinside] at h
      cases h
      exact .inr (.inr ⟨rfl, rfl, rfl, rfl⟩)
    · rw [hinside] at h
      cases h
  · rw [hbegin] at h
    cases h
    exact .inr (.inl ⟨rfl, rfl, rfl⟩)

theorem run_of_guard (h : call.guards P = .error e) :
    call.run P settings F L = (.error (rethrown F false e), L) := by
  cases call with
  | createInvoice uuid pubkey response => cases h
  | confirmInvoice invoice =>
      rw [ServiceCall.run, confirmInvoice]
      rw [ServiceCall.guards] at h
      rcases hguards : confirmGuards P invoice with e₁ | r
      · rw [hguards] at h
        obtain rfl := Except.error.inj h
        rfl
      · rw [hguards] at h
        cases h

/-- Behind the guards, a call is a transaction of its two inner calls. -/
theorem exists_transact (settings : Settings) (F : TransactionFaults) (L : Ledger)
    (h : call.guards P = .ok ()) :
    ∃ first second, call.run P settings F L = transact F first second L ∧
      call.inside P settings F L = (guardedBy F.first (first L)).bind second := by
  cases call with
  | createInvoice uuid pubkey response =>
      refine ⟨upsertStatement P pubkey none, storeInvoice P F.second uuid pubkey response, ?_, rfl⟩
      -- a transaction that succeeds has got the answer of the processor
      have hresponse : ∀ r : Except String Unit × Ledger,
          (∀ done, r.1 = .ok done → ∃ answer, response = .ok answer) →
          (((r.1.bind fun () => response.map (createdInvoice pubkey)).map fun _ => ()), r.2) = r := by
        rintro ⟨e₁ | ⟨⟩, L₁⟩ hr
        · rfl
        · obtain ⟨answer, rfl⟩ := hr () rfl
          rfl
      refine hresponse _ fun done hdone => ?_
      obtain ⟨L₁, -, hstore⟩ := transact_eq_ok (Prod.ext hdone rfl)
      rcases response with e₁ | answer
      · cases hstore
      · exact ⟨answer, rfl⟩
  | confirmInvoice invoice =>
      rw [ServiceCall.guards] at h
      rcases hguards : confirmGuards P invoice with e₁ | ⟨confirmedAt, amountPaid⟩
      · rw [hguards] at h
        cases h
      · refine ⟨confirmStatement P invoice.id amountPaid confirmedAt,
          admitPayee P settings F.second invoice amountPaid, ?_, ?_⟩
        · rw [ServiceCall.run, confirmInvoice, hguards]
        · rw [ServiceCall.inside, hguards]
          rfl

/-- **A call that fails** leaves the tables alone, and its caller gets the
error, or that of `rollback`. -/
theorem run_of_failure (h : call.failure P settings F L = some (point, e)) :
    call.run P settings F L = (.error (masked F point e), L) := by
  obtain ⟨rfl, hguards⟩ | ⟨rfl, hguards, hbegin⟩ | ⟨rfl, hguards, hbegin, hinside⟩ :=
    failure_cases h
  · exact run_of_guard hguards
  · obtain ⟨first, second, hrun, -⟩ := exists_transact settings F L hguards
    rw [hrun, transact_of_begin hbegin]
    rfl
  · obtain ⟨first, second, hrun, heq⟩ := exists_transact settings F L hguards
    rw [hrun, transact_of_inside hbegin (heq ▸ hinside)]
    rfl

/-- A call that gets to its commit has its effect, unless the commit fails
without one. -/
theorem run_of_no_failure (h : call.failure P settings F L = none) :
    ∃ L₂, call.inside P settings F L = .ok L₂ ∧ call.run P settings F L =
      match F.commit with
      | some e => (.error (rethrown F true e), if F.committed then L₂ else L)
      | none => (.ok (), L₂) := by
  rcases hguards : call.guards P with e | ⟨⟩
  · rw [failure_eq_guard hguards] at h
    cases h
  rcases hbegin : F.begin with - | e
  · rcases hinside : call.inside P settings F L with e | L₂
    · rw [failure_eq_inside hguards hbegin hinside] at h
      cases h
    · obtain ⟨first, second, hrun, heq⟩ := exists_transact settings F L hguards
      exact ⟨L₂, rfl, by rw [hrun, transact_of_commit hbegin (heq ▸ hinside)]⟩
  · rw [failure_eq_begin hguards hbegin] at h
    cases h

/-- No guard throws the error of `rollback`. -/
theorem ne_notStarted_of_guards (h : call.guards P = .error e) : e ≠ notStarted := by
  -- their messages are all about the `Invoice`
  have hhead : e.toList.head? = some 'I' := by
    cases call with
    | createInvoice uuid pubkey response => cases h
    | confirmInvoice invoice =>
        rw [ServiceCall.guards, confirmGuards] at h
        rcases hconfirmed : invoice.confirmedAt with - | confirmedAt
        · rw [hconfirmed] at h
          obtain rfl := Except.error.inj h
          rfl
        rw [hconfirmed] at h
        dsimp only at h
        split at h
        · obtain rfl := Except.error.inj h
          rw [String.toList_append]
          rfl
        · rcases hpaid : invoice.amountPaid with - | amountPaid
          · rw [hpaid] at h
            obtain rfl := Except.error.inj h
            rfl
          · rw [hpaid] at h
            cases h
  rintro rfl
  exact absurd hhead (by decide)

theorem keepsTablesAndError_iff_masked :
    KeepsTablesAndError P settings F L call ↔
      ∀ point e, call.failure P settings F L = some (point, e) → masked F point e = e := by
  refine forall₃_congr fun point e h => ?_
  rw [run_of_failure h, Prod.mk.injEq, Except.error.injEq]
  exact and_iff_left rfl

/-- **Failing payment transactions** keep the tables and the error exactly if
the guards pass, the transaction is opened, and its rollback does not fail. -/
theorem keepsTablesAndError_iff (P : Platform) (settings : Settings) (F : TransactionFaults)
    (L : Ledger) (call : ServiceCall) :
    KeepsTablesAndError P settings F L call ↔ NotMasked P settings F L call := by
  rw [keepsTablesAndError_iff_masked]
  constructor
  · intro h
    -- before `begin`, the caller gets the error of `rollback`
    have hguards : call.guards P = .ok () := by
      rcases hguards : call.guards P with e | ⟨⟩
      · exact absurd (h .guard e (failure_eq_guard hguards)).symm (ne_notStarted_of_guards hguards)
      · rfl
    refine ⟨hguards, fun e hbegin => ?_, fun hbegin e hinside => ?_⟩
    · exact (h .begin e (failure_eq_begin hguards hbegin)).symm
    · have hkept : F.rollback.getD e = e := h .inside e (failure_eq_inside hguards hbegin hinside)
      rcases hrollback : F.rollback with - | e₁
      · exact .inl rfl
      · rw [hrollback] at hkept
        exact .inr (congrArg some hkept)
  · rintro ⟨hguards, hbegin, hrollback⟩ point e h
    obtain ⟨rfl, hguards'⟩ | ⟨rfl, -, hbegin'⟩ | ⟨rfl, -, hbegin', hinside⟩ := failure_cases h
    · rw [hguards] at hguards'
      cases hguards'
    · exact (hbegin e hbegin').symm
    · show F.rollback.getD e = e
      rcases hrollback hbegin' e hinside with hnone | hsome
      · rw [hnone]
        rfl
      · rw [hsome]
        rfl

/-- An invoice without a confirmation date: the caller of `confirmInvoice`
is told that no transaction was started. -/
theorem not_keepsTablesAndError_unconfirmed :
    ¬ KeepsTablesAndError samplePlatform sampleSettings .none payerLedger
      (.confirmInvoice ⟨some (.str "8f2c1a"), some (.str (Bytes.toHex payer)), some 1000000,
        some 1000000, some (.str "msats"), some (.str "completed"), none⟩) := by
  intro h
  have hrun := h .guard "Invoice confirmation date is not set" rfl
  rw [run_of_failure rfl] at hrun
  exact absurd (Except.error.inj (Prod.mk.inj hrun).1) (by decide)

end NostrMesh.Payments
