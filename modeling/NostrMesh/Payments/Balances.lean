/-
NostrMesh/Payments/Balances.lean

Balances are conserved, in runs of the calls that write the tables of the
payments code: whatever their order, a balance is what the user's confirmed
invoices have brought in, less what has been charged.

The books hold the tables and the charges that have succeeded.  The invariant
(`Balanced`) adds to the equation what it rests on (`Grounded`): keys are
unique, every invoice has a unit, and whoever an invoice or a charge names is
a user.  Each call keeps it (`Balanced.step`), so every run does
(`balances_conserved`).
-/
import NostrMesh.Payments.Admission

namespace NostrMesh.Payments

open Json (Value)

variable {P : Platform} {L L' : Ledger} {pubkey : Bytes}

/-! ### Calls -/

inductive Call
  | createInvoice (F : TransactionFaults) (uuid : String) (pubkey : Value)
      (response : Except String CreateInvoiceResponse)
  | confirmInvoice (invoiceId : String) (amountReceived confirmationDate : ℤ)
  | updateStatus (id status : Value)
  | upsertUser (pubkey : Value) (isAdmitted : Option Bool)
  | chargeUser (chargedUser : Bytes) (amount : ℤ)

/-- A statement that raises an error leaves the tables as they are. -/
def settled (L : Ledger) : Except String Ledger → Ledger
  | .ok L' => L'
  | .error _ => L

/-- A charge of an amount to a user. -/
abbrev Charge := Bytes × ℤ

/-- What a call does to the tables, with the charge that has succeeded, if it
is one. -/
def runCall (P : Platform) (L : Ledger) : Call → Ledger × List Charge
  | .createInvoice F uuid pubkey response => ((createInvoice P F uuid pubkey response L).2, [])
  | .confirmInvoice invoiceId amountReceived confirmationDate =>
      (settled L (confirmInvoiceFunction invoiceId amountReceived confirmationDate L), [])
  | .updateStatus id status => ((updateStatus P id status L).2, [])
  | .upsertUser pubkey isAdmitted => (settled L (upsertStatement P pubkey isAdmitted L), [])
  | .chargeUser chargedUser amount =>
      match chargeUserFunction chargedUser amount L with
      | .error _ => (L, [])
      | .ok (charged, L') => (L', if charged = 1 then [(chargedUser, amount)] else [])

/-- The tables, and the charges that have succeeded so far. -/
structure Books where
  ledger : Ledger
  charges : List Charge

def Books.empty : Books := ⟨⟨[], []⟩, []⟩

def Books.step (P : Platform) (books : Books) (call : Call) : Books :=
  ⟨(runCall P books.ledger call).1, books.charges ++ (runCall P books.ledger call).2⟩

/-- The books after a run, from empty tables. -/
def booksAfter (P : Platform) (calls : List Call) : Books := calls.foldl (Books.step P) .empty

/-- New invoices have a unit, and nobody confirms less than nothing. -/
def Call.Regular : Call → Prop
  | .createInvoice _ _ _ response => ∀ created, response = .ok created →
      ∃ unit : InvoiceUnit, created.unit = some (.str unit.text)
  | .confirmInvoice _ amountReceived _ => 0 ≤ amountReceived
  | _ => True

/-! ### Sums -/

/-- What the confirmed invoices of a user have brought in, in
millisatoshis. -/
def Ledger.received (L : Ledger) (pubkey : Bytes) : ℤ :=
  ((L.invoices.filter fun row => row.pubkey = pubkey ∧ row.confirmedAt ≠ none).map fun row =>
    toMsats row.unit (row.amountPaid.getD 0)).sum

/-- What has been charged to a user. -/
def charged (charges : List Charge) (pubkey : Bytes) : ℤ :=
  ((charges.filter fun charge => charge.1 = pubkey).map Prod.snd).sum

/-- What one row adds to a user's sum. -/
def InvoiceRow.brings (pubkey : Bytes) (row : InvoiceRow) : ℤ :=
  if row.pubkey = pubkey ∧ row.confirmedAt ≠ none then toMsats row.unit (row.amountPaid.getD 0) else 0

theorem received_eq_sum (L : Ledger) (pubkey : Bytes) :
    L.received pubkey = (L.invoices.map (InvoiceRow.brings pubkey)).sum := by
  have hite := List.sum_map_ite (fun row : InvoiceRow => row.pubkey = pubkey ∧ row.confirmedAt ≠ none)
    (fun row => toMsats row.unit (row.amountPaid.getD 0)) (fun _ => 0) L.invoices
  rw [List.map_const', List.sum_replicate, nsmul_zero, add_zero] at hite
  exact hite.symm

/-- A row that has not been confirmed brings nothing. -/
theorem brings_of_unconfirmed {row : InvoiceRow} (h : row.confirmedAt = none) : row.brings pubkey = 0 := by
  simp [InvoiceRow.brings, h]

theorem brings_setStatus (status : Option InvoiceStatus) (row : InvoiceRow) :
    (row.setStatus status).brings pubkey = row.brings pubkey := rfl

@[simp] theorem charged_nil : charged [] pubkey = 0 := rfl

theorem charged_append (charges charges' : List Charge) :
    charged (charges ++ charges') pubkey = charged charges pubkey + charged charges' pubkey := by
  simp [charged]

theorem charged_singleton (chargedUser : Bytes) (amount : ℤ) :
    charged [(chargedUser, amount)] pubkey = if chargedUser = pubkey then amount else 0 := by
  by_cases h : chargedUser = pubkey
  · simp [charged, h]
  · simp [charged, h]

theorem toMsats_nonneg (unit : Option InvoiceUnit) {amount : ℤ} (h : 0 ≤ amount) :
    0 ≤ toMsats unit amount :=
  Int.mul_nonneg h (Int.le_of_lt (InvoiceUnit.one_le_scale unit))

/-! ### The invariant -/

section

variable {charges : List Charge}

/-- Keys are unique, every invoice has a unit, and whoever an invoice or a
charge names is a user. -/
structure Grounded (L : Ledger) (charges : List Charge) : Prop where
  ids : (L.invoices.map InvoiceRow.id).Nodup
  pubkeys : (L.users.map UserRow.pubkey).Nodup
  unit : ∀ row ∈ L.invoices, row.unit ≠ none
  payee : ∀ row ∈ L.invoices, L.user row.pubkey ≠ none
  charge : ∀ charge ∈ charges, L.user charge.1 ≠ none

/-- **The invariant of the books.** -/
structure Balanced (L : Ledger) (charges : List Charge) : Prop extends Grounded L charges where
  balance : ∀ pubkey user, L.user pubkey = some user →
    user.balance = L.received pubkey - charged charges pubkey ∧ 0 ≤ user.balance

theorem balanced_empty : Balanced ⟨[], []⟩ [] where
  ids := List.nodup_nil
  pubkeys := List.nodup_nil
  unit _ h := absurd h List.not_mem_nil
  payee _ h := absurd h List.not_mem_nil
  charge _ h := absurd h List.not_mem_nil
  balance _ _ h := absurd h (by simp [Ledger.user])

/-- Who is not a user has received nothing and been charged nothing. -/
theorem Grounded.of_stranger (h : Grounded L charges) (hnone : L.user pubkey = none) :
    L.received pubkey = 0 ∧ charged charges pubkey = 0 := by
  constructor
  · rw [Ledger.received, List.filter_eq_nil_iff.mpr, List.map_nil, List.sum_nil]
    intro row hrow
    simp only [decide_eq_true_eq, not_and]
    rintro rfl
    exact absurd hnone (h.payee row hrow)
  · rw [charged, List.filter_eq_nil_iff.mpr, List.map_nil, List.sum_nil]
    intro charge hcharge
    simp only [decide_eq_true_eq]
    rintro rfl
    exact absurd hnone (h.charge charge hcharge)

/-- An update of one invoice that keeps what the invariant rests on. -/
theorem Grounded.modifyInvoice (h : Grounded L charges) (id : String) (f : InvoiceRow → InvoiceRow)
    (hid : ∀ row, (f row).id = row.id) (hpubkey : ∀ row, (f row).pubkey = row.pubkey)
    (hunit : ∀ row, (f row).unit = row.unit) : Grounded (L.modifyInvoice id f) charges := by
  have hmem : ∀ row ∈ (L.modifyInvoice id f).invoices, ∃ row' ∈ L.invoices,
      row.unit = row'.unit ∧ row.pubkey = row'.pubkey := by
    intro row hrow
    obtain ⟨row', hrow', rfl⟩ := List.mem_map.mp hrow
    refine ⟨row', hrow', ?_⟩
    split
    · exact ⟨hunit row', hpubkey row'⟩
    · exact ⟨rfl, rfl⟩
  refine ⟨Keyed.nodup_modify (fun row hrow => (hid row).trans hrow) h.ids, h.pubkeys, ?_, ?_, h.charge⟩
  · intro row hrow
    obtain ⟨row', hrow', hunit', -⟩ := hmem row hrow
    exact hunit' ▸ h.unit row' hrow'
  · intro row hrow
    obtain ⟨row', hrow', -, hpubkey'⟩ := hmem row hrow
    exact hpubkey' ▸ h.payee row' hrow'

/-- New rows of users, if nobody who was a user goes. -/
theorem Grounded.of_users {L' : Ledger} (h : Grounded L charges) (hinvoices : L'.invoices = L.invoices)
    (hpubkeys : (L'.users.map UserRow.pubkey).Nodup)
    (hkeeps : ∀ pubkey, L.user pubkey ≠ none → L'.user pubkey ≠ none) : Grounded L' charges where
  ids := hinvoices ▸ h.ids
  pubkeys := hpubkeys
  unit := hinvoices ▸ h.unit
  payee row hrow := hkeeps _ (h.payee row (hinvoices ▸ hrow))
  charge charge hcharge := hkeeps _ (h.charge charge hcharge)

/-- An update of one user. -/
theorem Grounded.modifyUser (h : Grounded L charges) (pubkey : Bytes) (f : UserRow → UserRow)
    (hf : ∀ user, (f user).pubkey = user.pubkey) : Grounded (L.modifyUser pubkey f) charges := by
  refine h.of_users rfl (Keyed.nodup_modify (fun user huser => (hf user).trans huser) h.pubkeys) ?_
  intro pubkey' hne
  rw [Ledger.user_modifyUser pubkey f hf]
  split
  · next heq => simpa [← heq] using hne
  · exact hne

/-! ### What calls do to the books -/

theorem Balanced.upsertUser (h : Balanced L charges) (pubkey : Bytes) (isAdmitted : Option Bool) :
    Balanced (upsertUser pubkey isAdmitted L) charges := by
  refine ⟨h.toGrounded.of_users rfl ?_ ?_, ?_⟩
  · exact Keyed.nodup_upsert (UserRow.merge isAdmitted) (fun _ huser => huser) h.pubkeys
  · intro pubkey' hne
    rw [user_upsertUser]
    split
    · exact Option.some_ne_none _
    · exact hne
  · intro pubkey' user huser
    rw [user_upsertUser] at huser
    split at huser
    · next heq =>
      obtain rfl := Option.some.inj huser
      subst heq
      rcases hold : L.user pubkey' with - | old
      · -- a user who is new
        obtain ⟨hreceived, hcharged⟩ := h.of_stranger hold
        exact ⟨((congrArg₂ (· - ·) hreceived hcharged).trans (sub_zero 0)).symm, le_refl 0⟩
      · exact h.balance pubkey' old hold
    · exact h.balance pubkey' user huser

/-- A new status of one invoice. -/
theorem Balanced.setStatus (h : Balanced L charges) (id : String) (status : Option InvoiceStatus) :
    Balanced (L.modifyInvoice id (InvoiceRow.setStatus status)) charges := by
  refine ⟨h.toGrounded.modifyInvoice id (InvoiceRow.setStatus status) (fun _ => rfl) (fun _ => rfl)
    fun _ => rfl, ?_⟩
  intro pubkey user huser
  have hreceived : (L.modifyInvoice id (InvoiceRow.setStatus status)).received pubkey =
      L.received pubkey := by
    rw [received_eq_sum, received_eq_sum, Ledger.modifyInvoice,
      Keyed.map_modify_of_eq fun row _ => brings_setStatus status row]
  rw [hreceived]
  exact h.balance pubkey user huser

theorem Balanced.updateStatus (h : Balanced L charges) (id status : Value) :
    Balanced (updateStatus P id status L).2 charges := by
  obtain hsame | ⟨name, row, new, -, -, -, heq⟩ := updateStatus_cases P id status L
  · rwa [hsame]
  · rw [heq]
    exact h.setStatus name new

/-- An invoice that is new: its payee is a user, and it has not been
confirmed. -/
theorem Balanced.insertInvoice (h : Balanced L charges) {row : InvoiceRow}
    (hid : L.invoice row.id = none) (hunit : row.unit ≠ none) (hpayee : L.user row.pubkey ≠ none)
    (hnone : row.confirmedAt = none) :
    Balanced { L with invoices := L.invoices ++ [row] } charges := by
  refine ⟨⟨Keyed.nodup_append_singleton h.ids hid, h.pubkeys, ?_, ?_, h.charge⟩, ?_⟩
  · intro row' hrow'
    obtain hrow' | hrow' := List.mem_append.mp hrow'
    · exact h.unit row' hrow'
    · rwa [List.mem_singleton.mp hrow']
  · intro row' hrow'
    obtain hrow' | hrow' := List.mem_append.mp hrow'
    · exact h.payee row' hrow'
    · rwa [List.mem_singleton.mp hrow']
  · intro pubkey user huser
    have hreceived : Ledger.received { L with invoices := L.invoices ++ [row] } pubkey =
        L.received pubkey := by
      rw [received_eq_sum, received_eq_sum]
      simp [brings_of_unconfirmed hnone]
    rw [hreceived]
    exact h.balance pubkey user huser

/-- **A confirmation** of what is not confirmed yet brings the payee the
amount. -/
theorem Balanced.confirmInvoice (h : Balanced L charges) {id : String} {amount date : ℤ}
    (hamount : 0 ≤ amount) (hL : confirmInvoiceFunction id amount date L = .ok L') :
    Balanced L' charges := by
  obtain ⟨rfl, -⟩ | ⟨row, hrow, hnone, rfl⟩ := confirmInvoiceFunction_eq hL
  · exact h
  obtain ⟨unit, hunit⟩ := Option.ne_none_iff_exists'.mp (h.unit row (Keyed.mem_of_lookup hrow))
  have hcredit : (credit row.unit amount).getD 0 = toMsats row.unit amount := by
    rw [hunit]
    rfl
  -- the row has brought nothing so far, and brings the amount now
  have hreceived : ∀ pubkey', (L.modifyInvoice id (InvoiceRow.confirm amount date)).received pubkey' =
      L.received pubkey' + if row.pubkey = pubkey' then toMsats row.unit amount else 0 := by
    intro pubkey'
    rw [received_eq_sum, received_eq_sum, Ledger.modifyInvoice, Keyed.sum_modify _ h.ids hrow,
      brings_of_unconfirmed hnone, sub_zero]
    simp [InvoiceRow.brings, InvoiceRow.confirm]
  rw [hcredit]
  have hground := (h.toGrounded.modifyInvoice id (InvoiceRow.confirm amount date) (fun _ => rfl)
    (fun _ => rfl) fun _ => rfl).modifyUser row.pubkey
      (UserRow.addBalance (toMsats row.unit amount)) fun _ => rfl
  refine ⟨hground, ?_⟩
  intro pubkey' user huser
  rw [Ledger.user_modifyUser row.pubkey (UserRow.addBalance _) fun _ => rfl] at huser
  have hsum : ((L.modifyInvoice id (InvoiceRow.confirm amount date)).modifyUser row.pubkey
      (UserRow.addBalance (toMsats row.unit amount))).received pubkey' = _ := hreceived pubkey'
  rw [hsum]
  split at huser
  · next heq =>
    obtain ⟨old, hold, rfl⟩ := Option.map_eq_some_iff.mp huser
    obtain ⟨hbalance, hnonneg⟩ := h.balance pubkey' old (heq ▸ hold)
    rw [if_pos heq.symm]
    refine ⟨?_, add_nonneg hnonneg (toMsats_nonneg row.unit hamount)⟩
    show old.balance + toMsats row.unit amount = _
    rw [hbalance]
    abel
  · next hne =>
    rw [if_neg fun heq => hne heq.symm, add_zero]
    exact h.balance pubkey' user huser

/-- **A charge** that the balance covers. -/
theorem Balanced.chargeUser (h : Balanced L charges) {user : UserRow} {amount : ℤ}
    (huser : L.user pubkey = some user) (hamount : 0 ≤ user.balance - amount) :
    Balanced (L.modifyUser pubkey (UserRow.charge amount)) (charges ++ [(pubkey, amount)]) := by
  have hground := h.toGrounded.modifyUser pubkey (UserRow.charge amount) fun _ => rfl
  have hlookup := Ledger.user_modifyUser (L := L) pubkey (UserRow.charge amount) fun _ => rfl
  refine ⟨⟨hground.ids, hground.pubkeys, hground.unit, hground.payee, ?_⟩, ?_⟩
  · intro charge hcharge
    obtain hcharge | hcharge := List.mem_append.mp hcharge
    · exact hground.charge charge hcharge
    · rw [List.mem_singleton.mp hcharge, hlookup, if_pos rfl, huser]
      exact Option.some_ne_none _
  · intro pubkey' user' huser'
    have hsum : (L.modifyUser pubkey (UserRow.charge amount)).received pubkey' = L.received pubkey' :=
      rfl
    rw [hsum, charged_append, charged_singleton]
    rw [hlookup] at huser'
    split at huser'
    · next heq =>
      rw [huser] at huser'
      obtain rfl := Option.some.inj huser'
      subst heq
      obtain ⟨hbalance, -⟩ := h.balance pubkey' user huser
      refine ⟨?_, hamount⟩
      show user.balance - amount = _
      rw [if_pos rfl, hbalance]
      abel
    · next hne =>
      rw [if_neg fun heq => hne heq.symm, add_zero]
      exact h.balance pubkey' user' huser'

/-- The answer of a payment processor is stored as a new invoice, or changes
the status of the one that has its id. -/
theorem Balanced.storeInvoice (h : Balanced L charges) {fault : Option String} {uuid : String}
    {pubkey : Value} {payee : Bytes} {response : Except String CreateInvoiceResponse}
    (hunit : ∀ created, response = .ok created →
      ∃ unit : InvoiceUnit, created.unit = some (.str unit.text))
    (hpubkey : toBuffer P pubkey = .ok payee) (hpayee : L.user payee ≠ none)
    (hL : storeInvoice P fault uuid pubkey response L = .ok L') : Balanced L' charges := by
  rcases response with e | created
  · cases hL
  rcases fault with - | e
  · obtain ⟨unit, hunit⟩ := hunit created rfl
    have hcolumn : unitColumn P created.unit = .ok (some unit) := by
      simp [unitColumn, hunit, boundText, parameterText, InvoiceUnit.ofText_text]
    simp only [Payments.storeInvoice, guardedBy, upsertInvoice, hpubkey, hcolumn] at hL
    split at hL
    · cases hL
    rcases hrow : L.invoice (invoiceId uuid created.id) with - | row
    · simp only [hrow] at hL
      split at hL
      · cases hL
      · rw [← Except.ok.inj hL]
        exact h.insertInvoice hrow (Option.some_ne_none _) hpayee rfl
    · simp only [hrow] at hL
      split at hL
      · cases hL
      · rw [← Except.ok.inj hL]
        exact h.setStatus _ _
  · cases hL

theorem Balanced.createInvoice (h : Balanced L charges) {F : TransactionFaults} {uuid : String}
    {pubkey : Value} {response : Except String CreateInvoiceResponse}
    (hunit : ∀ created, response = .ok created →
      ∃ unit : InvoiceUnit, created.unit = some (.str unit.text)) :
    Balanced (createInvoice P F uuid pubkey response L).2 charges := by
  obtain hsame | ⟨L₁, L₂, hfirst, hsecond, heq⟩ := transact_cases (F := F) (L := L)
    (upsertStatement P pubkey none) (Payments.storeInvoice P F.second uuid pubkey response)
  · rwa [Payments.createInvoice, hsame]
  · rw [Payments.createInvoice, heq]
    rw [upsertStatement] at hfirst
    -- the payee is upserted first, so that the invoice belongs to a user
    rcases hpubkey : toBuffer P pubkey with e | payee
    · simp [hpubkey] at hfirst
    · rw [hpubkey] at hfirst
      obtain rfl := Except.ok.inj hfirst
      refine (h.upsertUser payee none).storeInvoice hunit hpubkey ?_ hsecond
      rw [user_upsertUser, if_pos rfl]
      exact Option.some_ne_none _

end

/-! ### Runs -/

/-- **Every call keeps the invariant.** -/
theorem Balanced.step {books : Books} (h : Balanced books.ledger books.charges) {call : Call}
    (hcall : call.Regular) :
    Balanced (books.step P call).ledger (books.step P call).charges := by
  cases call with
  | createInvoice F uuid pubkey response =>
      rw [Books.step, runCall, List.append_nil]
      exact h.createInvoice hcall
  | confirmInvoice invoiceId amountReceived confirmationDate =>
      rw [Books.step, runCall, List.append_nil]
      rcases hL : confirmInvoiceFunction invoiceId amountReceived confirmationDate books.ledger
        with e | L'
      · exact h
      · exact h.confirmInvoice hcall hL
  | updateStatus id status =>
      rw [Books.step, runCall, List.append_nil]
      exact h.updateStatus id status
  | upsertUser pubkey isAdmitted =>
      rw [Books.step, runCall, List.append_nil, upsertStatement]
      rcases toBuffer P pubkey with e | pubkey
      · exact h
      · exact h.upsertUser pubkey isAdmitted
  | chargeUser chargedUser amount =>
      rcases hL : chargeUserFunction chargedUser amount books.ledger with e | ⟨charged, L'⟩
      · simpa only [Books.step, runCall, hL, List.append_nil] using h
      · simp only [Books.step, runCall, hL]
        obtain ⟨rfl, rfl⟩ | ⟨user, rfl, huser, hcovers, rfl⟩ := chargeUserFunction_cases hL
        · simpa using h
        · exact h.chargeUser huser hcovers

/-- **Balances are conserved** in every run from empty tables: every user's
balance is what the user's confirmed invoices have brought in, less what has
been charged, and is not negative. -/
theorem balances_conserved (P : Platform) (calls : List Call) (h : ∀ call ∈ calls, call.Regular) :
    ∀ user ∈ (booksAfter P calls).ledger.users,
      user.balance = (booksAfter P calls).ledger.received user.pubkey -
          charged (booksAfter P calls).charges user.pubkey ∧
        0 ≤ user.balance := by
  have hbalanced : Balanced (booksAfter P calls).ledger (booksAfter P calls).charges :=
    List.foldlRecOn (motive := fun books : Books => Balanced books.ledger books.charges) calls
      (Books.step P) balanced_empty fun _ hbooks call hcall => hbooks.step (h call hcall)
  intro user huser
  exact hbalanced.balance user.pubkey user (Keyed.lookup_of_mem hbalanced.pubkeys huser)

/-! ### A run -/

/-- An invoice of 1000 sats is created, confirmed twice and charged for; the
second charge is too high. -/
def sampleCalls : List Call :=
  [.createInvoice .none "" (some (.str (Bytes.toHex payer)))
      (.ok ⟨some (.str "8f2c1a"), 1000, some (.str "sats"), some (.str "pending")⟩),
    .confirmInvoice "8f2c1a" 1000 1700000000000, .confirmInvoice "8f2c1a" 1000 1700000060000,
    .chargeUser payer 250000, .chargeUser payer 2000000]

theorem balances_conserved_sampleCalls :
    (booksAfter samplePlatform sampleCalls).ledger.users = [⟨payer, false, 750000⟩] ∧
    ∀ user ∈ (booksAfter samplePlatform sampleCalls).ledger.users,
      user.balance = (booksAfter samplePlatform sampleCalls).ledger.received user.pubkey -
          charged (booksAfter samplePlatform sampleCalls).charges user.pubkey ∧
        0 ≤ user.balance := by
  refine ⟨by decide +kernel, balances_conserved samplePlatform sampleCalls ?_⟩
  intro call hcall
  simp only [sampleCalls, List.mem_cons, List.not_mem_nil, or_false] at hcall
  obtain rfl | rfl | rfl | rfl | rfl := hcall
  · rintro created ⟨rfl⟩
    exact ⟨.sats, rfl⟩
  · exact Int.natCast_nonneg 1000
  · exact Int.natCast_nonneg 1000
  · trivial
  · trivial

end NostrMesh.Payments
