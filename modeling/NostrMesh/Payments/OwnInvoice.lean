/-
NostrMesh/Payments/OwnInvoice.lean

Whether the admission invoice that the relay issues admits whoever pays it.

`PostInvoiceController` sums the applicable fees in millisatoshis and asks a
payment processor for an invoice of that amount.  Zebedee and LNURL take it as
it is; the others take whole satoshis, so that the invoice may fall short of
the fee with which `confirmInvoice` compares what was paid.  The filter of the
fees is written twice, and both agree (`invoiceAmount_eq`).

Main result: `ownInvoiceAdmits_iff`.
-/
import NostrMesh.Payments.Settlement

namespace NostrMesh.Payments

open Json (Value)

/-! ### What the payment processors answer -/

/-- The amount in satoshis of a request for an invoice. -/
def amountSats (amountMsats : ℤ) : ℤ := Js.ofBigInt (amountMsats.tdiv 1000)

/-- A payment processor, with what its service answers to the request for an
invoice, or the id that it draws. -/
inductive ProcessorAnswer
  | zebedee (data : Json)
  | nodeless (data : Json)
  | openNode (now : ℤ) (data : Json)
  | lnbits (payment : LNbitsPayment)
  | lnurl (id : String)
  | null
  /-- The request fails. -/
  | failed (error : String)

/-- What `createInvoice` reads of an invoice; its amount is there. -/
def Invoice.response (invoice : Invoice) : CreateInvoiceResponse :=
  ⟨invoice.id, invoice.amountRequested.getD 0, invoice.unit, invoice.status⟩

/-- `createInvoice` of the payment processors. -/
def ProcessorAnswer.response (P : Platform) (amountMsats : ℤ) :
    ProcessorAnswer → Except String CreateInvoiceResponse
  | zebedee data => (fromZebedeeInvoice P data).map Invoice.response
  | nodeless data => (fromNodelessInvoice P data).map Invoice.response
  | openNode now data => (fromOpenNodeInvoice P now data).map Invoice.response
  | lnbits payment => .ok
      { id := some (.str payment.paymentHash)
        amountRequested := payment.amount / 1000
        unit := some (.str InvoiceUnit.sats.text)
        status := some (.str (if payment.paid then InvoiceStatus.completed else .pending).text) }
  | lnurl id => .ok
      { id := some (.str id)
        amountRequested := amountMsats
        unit := some (.str InvoiceUnit.msats.text)
        status := some (.str InvoiceStatus.pending.text) }
  | null => .ok
      { id := some (.str "")
        amountRequested := 0
        unit := some (.str InvoiceUnit.msats.text)
        status := some (.str InvoiceStatus.pending.text) }
  | failed error => .error error

/-- The service makes the invoice that it is asked for: Zebedee is asked in
millisatoshis, the others in satoshis (LNbits reports millisatoshis). -/
def ProcessorAnswer.AsAsked (P : Platform) (amountMsats : ℤ) : ProcessorAnswer → Prop
  | zebedee data => Json.toBigInt P.textOf (data.prop "amount") = .ok amountMsats ∧
      data.prop "unit" = some (.str InvoiceUnit.msats.text)
  | nodeless data =>
      Json.toBigInt P.textOf (data.prop "satsAmount") = .ok (amountSats amountMsats) ∧
        data.path ["metadata", "unit"] = some (.str InvoiceUnit.sats.text)
  | openNode _ data => data.prop "amount" = some (.num (amountSats amountMsats))
  | lnbits payment => payment.amount = 1000 * amountSats amountMsats
  | lnurl _ => True
  | null => True
  | failed _ => True

/-- The millisatoshis of an invoice for this amount. -/
def ProcessorAnswer.invoiced (amountMsats : ℤ) : ProcessorAnswer → ℤ
  | zebedee _ => amountMsats
  | nodeless _ => amountSats amountMsats * 1000
  | openNode _ _ => amountSats amountMsats * 1000
  | lnbits _ => amountSats amountMsats * 1000
  | lnurl _ => amountMsats
  | null => 0
  | failed _ => 0

/-! ### `PostInvoiceController` -/

/-- The page with the invoice, or an answer with a text. -/
inductive PostAnswer
  | page (reference : Value) (pubkey : String) (amount : ℤ)
  | sent (status : ℕ) (body : String)

/-- `/^[0-9a-f]{64}$/`. -/
def isHexPubkey (pubkey : String) : Bool :=
  pubkey.toList.length = 64 && pubkey.toList.all Bytes.isLowerHex

section

-- `bech32.decode` and `bech32.fromWords`: the prefix and the data
variable (decode : String → Except String (String × Bytes))

def fromBech32 (input : String) : Except String String :=
  match decode input with
  | .error e => .error e
  | .ok (pre, data) =>
      if !Js.startsWith input pre then .error ("Bech32 invalid prefix: " ++ pre)
      else .ok (Bytes.toHex (data.take 32))

/-- The public key of a request. -/
def requestPubkey (pubkeyRaw : Value) : Except String String :=
  match Json.asString pubkeyRaw with
  | none => .error "Invalid pubkey: missing"
  | some pubkeyRaw =>
      if isHexPubkey pubkeyRaw then .ok pubkeyRaw
      else if Js.startsWith pubkeyRaw "npub1" then
        match fromBech32 decode pubkeyRaw with
        | .error _ => .error "Invalid pubkey: invalid npub"
        | .ok pubkey => .ok pubkey
      else .error "Invalid pubkey: unknown format"

/-- `typeof body === 'object'` of a body that is there. -/
def isObject : Value → Bool
  | some (.obj _) => true
  | some (.arr _) => true
  | _ => false

/-- The amount of the invoice, of the fees that were found to apply. -/
def invoiceAmount (pubkey : String) (admissionFee : List FeeSchedule) : ℤ :=
  admissionFee.foldl
    (fun sum fee =>
      if fee.enabled && !fee.whitelistedPubkeys.contains pubkey then fee.amount + sum else sum) 0

/-- `user.isAdmitted` with a sufficient balance. -/
def isAdmittedAlready (minBalance : Option ℤ) (user : Option UserRow) : Bool :=
  user.any fun user => user.isAdmitted && (minBalance.getD 0 = 0 || minBalance.getD 0 ≤ user.balance)

variable (P : Platform) (settings : Settings) (minBalance : Option ℤ)

/-- The checks of `handleRequest`: the public key and the fees that apply. -/
def checkPostInvoice (limited : Bool) (body : Value) (L : Ledger) :
    Except (ℕ × String) (String × List FeeSchedule) :=
  if limited then .error (429, "Too many requests")
  else if !isObject body then .error (400, "Invalid request")
  else if Json.asString (body.prop "tosAccepted") ≠ some "yes" then
    .error (400, "ToS agreement: not accepted")
  else if Json.asString (body.prop "feeSchedule") ≠ some "admission" then .error (400, "Invalid fee")
  else
    match requestPubkey decode (body.prop "pubkey") with
    | .error e => .error (400, e)
    | .ok pubkey =>
        let admissionFee := settings.admission.filter (FeeSchedule.appliesTo pubkey)
        if admissionFee.isEmpty then .error (400, "No admission fee required")
        else if isAdmittedAlready minBalance (L.user (Bytes.ofHex pubkey)) then
          .error (400, "User is already admitted.")
        else .ok (pubkey, admissionFee)

/-- `handleRequest`. -/
def postInvoice (limited : Bool) (body : Value) (answer : ProcessorAnswer) (F : TransactionFaults)
    (uuid : String) (L : Ledger) : PostAnswer × Ledger :=
  match checkPostInvoice decode settings minBalance limited body L with
  | .error (status, text) => (.sent status text, L)
  | .ok (pubkey, admissionFee) =>
      let amount := invoiceAmount pubkey admissionFee
      let result := createInvoice P F uuid (some (.str pubkey)) (answer.response P amount) L
      match result.1 with
      | .error _ => (.sent 500 "Unable to create invoice", result.2)
      | .ok invoice => (.page invoice.id pubkey (amount.tdiv 1000), result.2)

/-- A request is answered with the page of a new invoice. -/
def Issues (limited : Bool) (body : Value) (answer : ProcessorAnswer) (F : TransactionFaults)
    (uuid : String) (L : Ledger) (pubkey : String) (row : InvoiceRow) (L' : Ledger) : Prop :=
  (∃ reference amount, postInvoice decode P settings minBalance limited body answer F uuid L =
    (.page reference pubkey amount, L')) ∧
  L.invoice row.id = none ∧ L'.invoice row.id = some row

end

/-! ### The property -/

/-- An argument of `confirmInvoice` that says that the invoice was paid in
full. -/
structure Pays (row : InvoiceRow) (ms : ℤ) (invoice : Invoice) : Prop where
  confirms : Confirms row.id row.pubkey row.amountRequested ms invoice
  unit : invoice.unit = row.unit.map fun unit => .str unit.text

/-- The tables at some time after the invoice was issued: it is not confirmed,
and its payee is still there. -/
structure KeepsInvoice (row : InvoiceRow) (L L' : Ledger) : Prop where
  invoice : ∃ status, L'.invoice row.id = some (row.setStatus status)
  user : L'.user row.pubkey ≠ none
  admitted : L.Admitted row.pubkey → L'.Admitted row.pubkey

/-- Whenever the invoice is confirmed as paid in full, its payee is
admitted. -/
def OwnInvoiceAdmits (P : Platform) (settings : Settings) (row : InvoiceRow) (L : Ledger) : Prop :=
  ∀ L₂ F ms invoice L₃, KeepsInvoice row L L₂ → Pays row ms invoice →
    confirmInvoice P settings F invoice L₂ = (.ok (), L₃) → L₃.Admitted row.pubkey

variable {P : Platform} {settings : Settings} {F : TransactionFaults} {L L' : Ledger}
  {row : InvoiceRow} {pubkey : String}

/-! ### The amount of an invoice -/

/-- Of the fees that apply, none names the whole public key. -/
theorem not_contains_of_appliesTo {fee : FeeSchedule} (h : fee.appliesTo pubkey = true) :
    fee.enabled = true ∧ fee.whitelistedPubkeys.contains pubkey = false := by
  simp only [FeeSchedule.appliesTo, Bool.and_eq_true, Bool.not_eq_true', List.any_eq_false] at h
  refine ⟨h.1, Bool.eq_false_iff.mpr fun hmem => ?_⟩
  refine h.2 pubkey (List.contains_iff_mem.mp hmem) ?_
  exact List.isPrefixOf_iff_prefix.mpr List.prefix_rfl

/-- **Both filters agree**: the invoice is asked for the sum of the fees that
`confirmInvoice` compares with. -/
theorem invoiceAmount_eq (settings : Settings) (pubkey : String) :
    invoiceAmount pubkey (settings.admission.filter (FeeSchedule.appliesTo pubkey)) =
      applicableFee settings pubkey := by
  have hfold : ∀ (fees : List FeeSchedule) (sum : ℤ),
      (∀ fee ∈ fees, FeeSchedule.appliesTo pubkey fee = true) →
      fees.foldl (fun sum fee =>
        if fee.enabled && !fee.whitelistedPubkeys.contains pubkey then fee.amount + sum else sum) sum
        = sum + (fees.map FeeSchedule.amount).sum := by
    intro fees
    induction fees with
    | nil => intro sum _; simp
    | cons fee fees ih =>
        intro sum happly
        obtain ⟨henabled, hwhitelist⟩ := not_contains_of_appliesTo (happly fee List.mem_cons_self)
        rw [List.foldl_cons, henabled, hwhitelist,
          ih _ fun fee hfee => happly fee (List.mem_cons_of_mem _ hfee)]
        simp only [Bool.not_false, Bool.and_self, if_true, List.map_cons, List.sum_cons]
        omega
  rw [invoiceAmount, hfold _ 0 fun fee hfee => (List.mem_filter.mp hfee).2, zero_add, applicableFee]

/-- **Whole satoshis**: below 2^53 of them, an invoice in satoshis reaches the
fee exactly if the fee is a multiple of 1000. -/
theorem reaches_sats_iff {fee : ℤ} (hfee : 0 ≤ fee) (hsmall : fee < 1000 * 2 ^ 53) :
    fee ≤ amountSats fee * 1000 ↔ 1000 ∣ fee := by
  have hdiv : fee.tdiv 1000 = fee / 1000 := Int.tdiv_eq_ediv_of_nonneg hfee
  have hexact : amountSats fee = fee / 1000 := by
    rw [amountSats, hdiv]
    exact Js.ofBigInt_of_lt (by omega)
  rw [hexact]
  omega

/-- **The invoice of a processor** has the amount that was asked for, in its
unit. -/
theorem response_spec {answer : ProcessorAnswer} {amount : ℤ} {response : CreateInvoiceResponse}
    (hasked : answer.AsAsked P amount) (h : answer.response P amount = .ok response) :
    ∃ unit : InvoiceUnit, response.unit = some (.str unit.text) ∧
      toMsats (some unit) response.amountRequested = answer.invoiced amount := by
  rcases answer with data | data | ⟨now, data⟩ | payment | id | - | e
  · obtain ⟨hamount, hunit⟩ := hasked
    simp only [ProcessorAnswer.response, fromZebedeeInvoice, hamount, Except.map,
      Except.ok.injEq] at h
    subst h
    exact ⟨.msats, hunit, by simp [toMsats, InvoiceUnit.scale, Invoice.response,
      ProcessorAnswer.invoiced]⟩
  · obtain ⟨hamount, hunit⟩ := hasked
    simp only [ProcessorAnswer.response, fromNodelessInvoice, hamount, Except.map,
      Except.ok.injEq] at h
    subst h
    exact ⟨.sats, hunit, rfl⟩
  · have hamount : data.prop "amount" = some (.num (amountSats amount)) := hasked
    simp only [ProcessorAnswer.response, fromOpenNodeInvoice, hamount, Json.asNumber,
      Option.isSome_some, if_true, Json.toBigInt_intCast, Except.map, Except.ok.injEq] at h
    subst h
    exact ⟨.sats, rfl, rfl⟩
  · have hamount : payment.amount = 1000 * amountSats amount := hasked
    simp only [ProcessorAnswer.response, Except.ok.injEq] at h
    subst h
    refine ⟨.sats, rfl, ?_⟩
    rw [hamount, Int.mul_ediv_cancel_left _ (by decide)]
    rfl
  · simp only [ProcessorAnswer.response, Except.ok.injEq] at h
    subst h
    exact ⟨.msats, rfl, by simp [toMsats, InvoiceUnit.scale, ProcessorAnswer.invoiced]⟩
  · simp only [ProcessorAnswer.response, Except.ok.injEq] at h
    subst h
    exact ⟨.msats, rfl, rfl⟩
  · cases h

/-- An invoice of a positive amount is asked for a positive fee. -/
theorem pos_of_invoiced_pos {answer : ProcessorAnswer} {amount : ℤ} (h : 0 < answer.invoiced amount) :
    0 < amount := by
  have hsats : 0 < amountSats amount * 1000 → 0 < amount := by
    intro hpos
    have hdiv : 0 < amount.tdiv 1000 := Js.pos_of_ofBigInt_pos (show 0 < amountSats amount by omega)
    by_contra hneg
    have hneg' : 0 ≤ (-amount).tdiv 1000 := Int.tdiv_nonneg (by omega) (by decide)
    rw [Int.neg_tdiv] at hneg'
    omega
  rcases answer with data | data | ⟨now, data⟩ | payment | id | - | e
  · exact h
  · exact hsats h
  · exact hsats h
  · exact hsats h
  · exact h
  · cases h
  · cases h

/-! ### The public key of an invoice -/

theorem toHex_ofHex_of_isHexPubkey (h : isHexPubkey pubkey = true) :
    Bytes.toHex (Bytes.ofHex pubkey) = pubkey := by
  simp only [isHexPubkey, Bool.and_eq_true, decide_eq_true_eq, List.all_eq_true] at h
  exact Bytes.toHex_ofHex (by omega) h.2

/-- The public key of a request is in hexadecimal. -/
theorem toHex_ofHex_of_requestPubkey {decode : String → Except String (String × Bytes)}
    {pubkeyRaw : Value} (h : requestPubkey decode pubkeyRaw = .ok pubkey) :
    Bytes.toHex (Bytes.ofHex pubkey) = pubkey := by
  simp only [requestPubkey] at h
  rcases htext : Json.asString pubkeyRaw with - | raw
  · simp [htext] at h
  simp only [htext] at h
  split at h
  · next hhex => exact Except.ok.inj h ▸ toHex_ofHex_of_isHexPubkey hhex
  split at h
  · rcases hdecode : decode raw with e | ⟨pre, data⟩
    · simp [fromBech32, hdecode] at h
    · simp only [fromBech32, hdecode] at h
      by_cases hpre : Js.startsWith raw pre = true
      · simp only [hpre, Bool.not_true, Bool.false_eq_true, if_false, Except.ok.injEq] at h
        rw [← h, Bytes.ofHex_toHex]
      · simp [hpre] at h
  · cases h

theorem checkPostInvoice_spec {decode : String → Except String (String × Bytes)}
    {minBalance : Option ℤ} {limited : Bool} {body : Value} {admissionFee : List FeeSchedule}
    (h : checkPostInvoice decode settings minBalance limited body L = .ok (pubkey, admissionFee)) :
    Bytes.toHex (Bytes.ofHex pubkey) = pubkey ∧
      admissionFee = settings.admission.filter (FeeSchedule.appliesTo pubkey) := by
  simp only [checkPostInvoice] at h
  split at h
  · cases h
  split at h
  · cases h
  split at h
  · cases h
  split at h
  · cases h
  rcases hpubkey : requestPubkey decode (body.prop "pubkey") with e | found
  · simp [hpubkey] at h
  · simp only [hpubkey] at h
    split at h
    · cases h
    split at h
    · cases h
    cases h
    exact ⟨toHex_ofHex_of_requestPubkey hpubkey, rfl⟩

/-! ### The row of an invoice -/

/-- A transaction that succeeds has executed both statements. -/
theorem transact_eq_ok {first second : Ledger → Except String Ledger} {done : Unit}
    (h : transact F first second L = (.ok done, L')) :
    ∃ L₁, first L = .ok L₁ ∧ second L₁ = .ok L' := by
  rcases hbegin : F.begin with - | e
  · rcases hfirst : guardedBy F.first (first L) with e | L₁
    · simp [transact, hbegin, hfirst] at h
    · rcases hsecond : second L₁ with e | L₂
      · simp [transact, hbegin, hfirst, hsecond] at h
      · rcases hcommit : F.commit with - | e
        · refine ⟨L₁, ?_, ?_⟩
          · rcases hfault : F.first with - | e
            · rwa [hfault] at hfirst
            · rw [hfault] at hfirst
              cases hfirst
          · simp only [transact, hbegin, hfirst, hsecond, hcommit, Prod.mk.injEq] at h
            rw [hsecond, h.2]
        · simp [transact, hbegin, hfirst, hsecond, hcommit] at h
  · simp [transact, hbegin] at h

/-- To touch a user does not change who is admitted. -/
theorem admitted_upsertUser_none (pubkey pubkey' : Bytes) :
    (upsertUser pubkey none L).Admitted pubkey' ↔ L.Admitted pubkey' := by
  simp only [Ledger.Admitted, user_upsertUser]
  by_cases h : pubkey' = pubkey
  · rcases huser : L.user pubkey with - | user
    · simp [h, huser, newUser]
    · simp [h, huser, UserRow.merge]
  · simp [h]

/-- The new row of an upsert. -/
theorem upsertInvoice_spec {uuid : String} {payee : Bytes} {response : CreateInvoiceResponse}
    {pubkey : Value} (hpubkey : toBuffer P pubkey = .ok payee)
    (h : upsertInvoice P uuid pubkey response L = .ok L') (hnew : L.invoice row.id = none)
    (hrow : L'.invoice row.id = some row) :
    row.pubkey = payee ∧ row.amountRequested = response.amountRequested ∧
      row.confirmedAt = none ∧ unitColumn P response.unit = .ok row.unit ∧
      inBigint row.amountRequested = true ∧ L'.users = L.users := by
  simp only [upsertInvoice, hpubkey] at h
  split at h
  · cases h
  next hfits =>
  rcases hunit : unitColumn P response.unit with e | unit
  · simp [hunit] at h
  simp only [hunit] at h
  rcases hid : L.invoice (invoiceId uuid response.id) with - | old
  · simp only [hid] at h
    rcases hstatus : (statusUpdate P response.status).apply none with e | status
    · simp [hstatus] at h
    simp only [hstatus, Except.ok.injEq] at h
    subst h
    let new : InvoiceRow :=
      ⟨invoiceId uuid response.id, payee, response.amountRequested, none, unit, status, none⟩
    have hid : Keyed.lookup InvoiceRow.id (InvoiceRow.id new) L.invoices = none := hid
    have hlookup : some row = if row.id = new.id then some new else L.invoice row.id :=
      hrow.symm.trans (Keyed.lookup_append_singleton hid row.id)
    split at hlookup
    · obtain rfl : row = new := Option.some.inj hlookup
      exact ⟨rfl, rfl, rfl, rfl, by simpa using hfits, rfl⟩
    · exact absurd (hlookup.trans hnew) (Option.some_ne_none _)
  · -- an invoice that was there only gets a status
    simp only [hid] at h
    rcases hstatus : (statusUpdate P response.status).apply old.status with e | status
    · simp [hstatus] at h
    simp only [hstatus, Except.ok.injEq] at h
    subst h
    rw [Ledger.invoice_modifyInvoice _ (InvoiceRow.setStatus status) fun _ => rfl] at hrow
    split at hrow
    · next heq =>
      rw [heq, hid] at hnew
      cases hnew
    · exact absurd (hrow.symm.trans hnew) (Option.some_ne_none _)

/-- What is known of an invoice that was issued for a public key. -/
structure Issued (settings : Settings) (answer : ProcessorAnswer) (L : Ledger) (pubkey : String)
    (row : InvoiceRow) (L' : Ledger) : Prop where
  toHex_pubkey : Bytes.toHex row.pubkey = pubkey
  unconfirmed : row.confirmedAt = none
  unit : row.unit ≠ none
  msats : toMsats row.unit row.amountRequested = answer.invoiced (applicableFee settings pubkey)
  fits : inBigint row.amountRequested = true
  admitted : L'.Admitted row.pubkey ↔ L.Admitted row.pubkey

/-- **The row of a new invoice.** -/
theorem issued_of_issues {decode : String → Except String (String × Bytes)} {minBalance : Option ℤ}
    {limited : Bool} {body : Value} {answer : ProcessorAnswer} {uuid : String}
    (h : Issues decode P settings minBalance limited body answer F uuid L pubkey row L')
    (hasked : answer.AsAsked P (applicableFee settings pubkey)) :
    Issued settings answer L pubkey row L' := by
  obtain ⟨⟨reference, amount, hpost⟩, hnew, hrow⟩ := h
  rw [postInvoice] at hpost
  rcases hcheck : checkPostInvoice decode settings minBalance limited body L with
    ⟨status, text⟩ | ⟨found, admissionFee⟩
  · simp [hcheck] at hpost
  obtain ⟨hhex, rfl⟩ := checkPostInvoice_spec hcheck
  simp only [hcheck, invoiceAmount_eq] at hpost
  rcases hresult : createInvoice P F uuid (some (.str found))
    (answer.response P (applicableFee settings found)) L with ⟨e | invoice, L₁⟩
  · simp [hresult] at hpost
  simp only [hresult, Prod.mk.injEq, PostAnswer.page.injEq] at hpost
  obtain ⟨⟨-, rfl, -⟩, rfl⟩ := hpost
  -- the transaction has upserted the user, and stored the answer
  rw [createInvoice] at hresult
  rcases htransact : transact F (upsertStatement P (some (.str found)) none) (storeInvoice P F.second
    uuid (some (.str found)) (answer.response P (applicableFee settings found))) L with
    ⟨e | done, L₂⟩
  · simp [htransact, Except.bind] at hresult
  rw [htransact] at hresult
  obtain rfl : L₂ = L₁ := (Prod.mk.inj hresult).2
  obtain ⟨L₀, hfirst, hsecond⟩ := transact_eq_ok htransact
  obtain rfl : upsertUser (Bytes.ofHex found) none L = L₀ := Except.ok.inj hfirst
  rcases hresponse : answer.response P (applicableFee settings found) with e | response
  · simp [hresponse, storeInvoice] at hsecond
  simp only [hresponse, storeInvoice] at hsecond
  rcases hfault : F.second with - | e
  swap
  · simp [hfault, guardedBy] at hsecond
  simp only [hfault, guardedBy] at hsecond
  have hbuffer : toBuffer P (some (.str found)) = .ok (Bytes.ofHex found) := rfl
  obtain ⟨hpubkey, hamount, hconfirmed, hunit, hfits, husers⟩ :=
    upsertInvoice_spec hbuffer hsecond hnew hrow
  obtain ⟨unit, hresponseUnit, hmsats⟩ := response_spec hasked hresponse
  have hcolumn : unitColumn P response.unit = .ok (some unit) := by
    simp [unitColumn, hresponseUnit, boundText, parameterText, InvoiceUnit.ofText_text]
  obtain hrowUnit : row.unit = some unit := Except.ok.inj (hunit.symm.trans hcolumn)
  refine ⟨by rw [hpubkey, hhex], hconfirmed, by simp [hrowUnit], ?_, hfits, ?_⟩
  · rw [hrowUnit, hamount, hmsats]
  · rw [admitted_congr husers, admitted_upsertUser_none]

/-! ### Main result -/

theorem Pays.amountPaidMsat {ms : ℤ} {invoice : Invoice} (h : Pays row ms invoice) :
    amountPaidMsat invoice.unit row.amountRequested = toMsats row.unit row.amountRequested := by
  rw [h.unit, amountPaidMsat_unit]

/-- A confirmation that succeeds has executed both statements. -/
theorem statements_of_confirmInvoice {id : String} {payee : Bytes} {amount ms : ℤ}
    {invoice : Invoice} (hinvoice : Confirms id payee amount ms invoice)
    (h : confirmInvoice P settings F invoice L = (.ok (), L')) :
    ∃ L₁, confirmInvoiceFunction id amount ms L = .ok L₁ ∧
      admitPayee P settings F.second invoice amount L₁ = .ok L' := by
  rw [confirmInvoice, hinvoice.confirmGuards] at h
  obtain ⟨L₁, hfirst, hsecond⟩ := transact_eq_ok h
  rw [hinvoice.id] at hfirst
  exact ⟨L₁, hfirst, hsecond⟩

/-- A confirmation that succeeds admits the payee if the fee is reached, and
takes no admission back. -/
theorem admitted_of_confirmInvoice {ms : ℤ} {invoice : Invoice} (hpays : Pays row ms invoice)
    (h : confirmInvoice P settings F invoice L = (.ok (), L'))
    (hcases : L.Admitted row.pubkey ∨
      reachesFee settings row.pubkey (toMsats row.unit row.amountRequested) = true) :
    L'.Admitted row.pubkey := by
  obtain ⟨L₁, hfirst, hsecond⟩ := statements_of_confirmInvoice hpays.confirms h
  have hadmitted := admitted_confirmInvoiceFunction hfirst row.pubkey
  by_cases hreach : reachesFee settings row.pubkey (toMsats row.unit row.amountRequested) = true
  · simp only [reachesFee, decide_eq_true_eq, ← hpays.amountPaidMsat] at hreach
    simp only [admitPayee, hpays.confirms.pubkey, admissionFeeAmount_str, if_pos hreach,
      upsertStatement, toBuffer, Bytes.ofHex_toHex] at hsecond
    rcases hfault : F.second with - | e
    · rw [hfault] at hsecond
      rw [← Except.ok.inj hsecond, admitted_upsertUser]
      exact Or.inl rfl
    · rw [hfault] at hsecond
      cases hsecond
  · have hbefore := hadmitted.mpr (hcases.resolve_right hreach)
    rcases admitPayee_cases hsecond with rfl | ⟨fee, pubkey', -, -, -, -, rfl⟩
    · exact hbefore
    · rw [admitted_upsertUser]
      exact Or.inr hbefore

/-- The smallest tables with an invoice and its payee. -/
def freshLedger (row : InvoiceRow) : Ledger := ⟨[row], [newUser row.pubkey none]⟩

theorem freshLedger_holds (row : InvoiceRow) :
    (freshLedger row).Holds row (newUser row.pubkey none) := by
  simp [Ledger.Holds, freshLedger, Ledger.invoice, Ledger.user, Keyed.lookup_cons, newUser]

/-- With tables that the amounts fit, a confirmation without faults
succeeds. -/
theorem confirmInvoice_succeeds {user : UserRow} {ms : ℤ} {invoice : Invoice} (hL : L.Holds row user)
    (hfits : Fits row user) (hnone : row.confirmedAt = none)
    (hinvoice : Confirms row.id row.pubkey row.amountRequested ms invoice) :
    (confirmInvoice P settings .none invoice L).1 = .ok () := by
  obtain ⟨L₁, hfunction⟩ : ∃ L₁, confirmInvoiceFunction row.id row.amountRequested ms L = .ok L₁ := by
    rcases hunit : row.unit with - | unit
    · simp [confirmInvoiceFunction, hfits.amount, hL.1, hnone, credit, hunit]
    · have hcredit : credit row.unit row.amountRequested =
          some (toMsats row.unit row.amountRequested) := by rw [hunit]; rfl
      simp [confirmInvoiceFunction, hfits.amount, hL.1, hnone, hcredit, addBalance, hL.2,
        hfits.credit, hfits.balance]
  have hstatement : confirmStatement P invoice.id row.amountRequested (.time ms) L = .ok L₁ := by
    rw [hinvoice.id]
    exact hfunction
  obtain ⟨user₁, huser₁⟩ : ∃ user₁, L₁.user row.pubkey = some user₁ := by
    obtain ⟨rfl, -⟩ | ⟨row', hrow', -, -, husers⟩ := confirmInvoiceFunction_spec hfunction
    · exact ⟨user, hL.2⟩
    · obtain rfl := Option.some.inj (hL.1.symm.trans hrow')
      exact ⟨_, by rw [husers, if_pos rfl, hL.2]; rfl⟩
  obtain ⟨L₂, hpayee, -, -⟩ :=
    admitPayee_spec P settings row.amountRequested hinvoice.pubkey huser₁
  have hsecond : admitPayee P settings TransactionFaults.none.second invoice row.amountRequested L₁ =
    .ok L₂ := hpayee
  rw [confirmInvoice, hinvoice.confirmGuards]
  simp only [transact_none hstatement, hsecond]

/-- A credit that does not fit its column is never executed. -/
theorem not_confirmed_of_overflow {L₂ : Ledger} {ms : ℤ} {invoice : Invoice}
    (hunit : row.unit ≠ none) (hnone : row.confirmedAt = none) (hkeeps : KeepsInvoice row L L₂)
    (hpays : Pays row ms invoice)
    (hoverflow : inBigint (toMsats row.unit row.amountRequested) = false) :
    confirmInvoice P settings F invoice L₂ ≠ (.ok (), L') := by
  intro h
  obtain ⟨L₁, hfunction, -⟩ := statements_of_confirmInvoice hpays.confirms h
  obtain ⟨status, hrow⟩ := hkeeps.invoice
  obtain ⟨user, huser⟩ := Option.ne_none_iff_exists'.mp hkeeps.user
  obtain ⟨unit, hsome⟩ := Option.ne_none_iff_exists'.mp hunit
  rw [hsome] at hoverflow
  simp only [confirmInvoiceFunction, hrow] at hfunction
  simp only [InvoiceRow.setStatus, hnone, hsome, credit, Option.isSome_none, Option.map_some,
    addBalance, Ledger.user_modifyInvoice, huser, hoverflow, Bool.not_false, Bool.true_or,
    Bool.false_eq_true, if_true, if_false] at hfunction
  split at hfunction <;> cases hfunction

/-- **The relay's own invoice admits** its payer exactly if its amount in
millisatoshis reaches the fee, or the payee is admitted already, or the amount
cannot be credited. -/
theorem ownInvoiceAdmits_iff {decode : String → Except String (String × Bytes)}
    {minBalance : Option ℤ} {limited : Bool} {body : Value} {answer : ProcessorAnswer} {uuid : String}
    (hissues : Issues decode P settings minBalance limited body answer F uuid L pubkey row L')
    (hasked : answer.AsAsked P (applicableFee settings pubkey)) (hpos : 0 < row.amountRequested) :
    OwnInvoiceAdmits P settings row L' ↔
      applicableFee settings pubkey ≤ answer.invoiced (applicableFee settings pubkey) ∨
        L.Admitted row.pubkey ∨
        inBigint (answer.invoiced (applicableFee settings pubkey)) = false := by
  have hissued := issued_of_issues hissues hasked
  have hscale := InvoiceUnit.one_le_scale row.unit
  have hinvoiced : 0 < answer.invoiced (applicableFee settings pubkey) := by
    rw [← hissued.msats, toMsats]
    positivity
  have hfee : 0 < applicableFee settings pubkey := pos_of_invoiced_pos hinvoiced
  have hreaches : reachesFee settings row.pubkey (toMsats row.unit row.amountRequested) = true ↔
      applicableFee settings pubkey ≤ answer.invoiced (applicableFee settings pubkey) := by
    simp [reachesFee, hissued.toHex_pubkey, hissued.msats, hfee]
  rw [← hreaches, ← hissued.msats]
  constructor
  · intro h
    by_contra hno
    simp only [not_or, Bool.not_eq_false] at hno
    obtain ⟨hshort, hadmitted, hfits⟩ := hno
    -- the invoice is paid when the tables hold nothing else
    let invoice : Invoice := ⟨some (.str row.id), some (.str (Bytes.toHex row.pubkey)), none,
      some row.amountRequested, row.unit.map fun unit => .str unit.text,
      some (.str InvoiceStatus.completed.text), some (.time 0)⟩
    have hpays : Pays row 0 invoice := ⟨⟨rfl, rfl, rfl, rfl, rfl⟩, rfl⟩
    have hfitsUser : Fits row (newUser row.pubkey none) :=
      ⟨hissued.fits, hfits, by simpa [newUser] using hfits⟩
    have hholds := freshLedger_holds row
    have hkeeps : KeepsInvoice row L' (freshLedger row) :=
      ⟨⟨row.status, hholds.1⟩, by simp [hholds.2], fun h => absurd (hissued.admitted.mp h) hadmitted⟩
    have hafter := h (freshLedger row) .none 0 invoice _ hkeeps hpays
      (Prod.ext (confirmInvoice_succeeds hholds hfitsUser hissued.unconfirmed hpays.confirms) rfl)
    obtain ⟨user, huser, hyes⟩ := hafter
    have huser' : (confirmInvoice P settings .none invoice (freshLedger row)).2.user row.pubkey = _ :=
      (confirmInvoice_first hholds hfitsUser hissued.unit hissued.unconfirmed hpays.confirms).2
    have hsame := Option.some.inj (huser.symm.trans huser')
    simp [hsame, UserRow.admitIf, UserRow.addBalance, newUser, hpays.amountPaidMsat, hshort] at hyes
  · rintro (hreach | hadmitted | hoverflow) L₂ F₂ ms invoice L₃ hkeeps hpays hconfirm
    · exact admitted_of_confirmInvoice hpays hconfirm (Or.inr hreach)
    · exact admitted_of_confirmInvoice hpays hconfirm
        (Or.inl (hkeeps.admitted (hissued.admitted.mpr hadmitted)))
    · exact absurd hconfirm (not_confirmed_of_overflow hissued.unit hissued.unconfirmed hkeeps hpays
        hoverflow)

/-! ### Invoices in satoshis -/

/-- The request of the payer for an admission invoice. -/
def admissionBody : Json :=
  .obj [("tosAccepted", .str "yes"), ("feeSchedule", .str "admission"),
    ("pubkey", .str (Bytes.toHex payer))]

/-- The answer of Nodeless to a request for so many satoshis. -/
def nodelessAnswer (sats : ℤ) : ProcessorAnswer :=
  .nodeless (.obj [("id", .str "3b1e77"), ("satsAmount", .num sats), ("status", .str "new"),
    ("metadata", .obj [("requestId", .str (Bytes.toHex payer)), ("unit", .str "sats")])])

def nodelessRow (sats : ℤ) : InvoiceRow :=
  ⟨"3b1e77", payer, sats, none, some .sats, some .pending, none⟩

/-- The admission costs so many millisatoshis. -/
def nodelessSettings (fee : ℤ) : Settings where
  paymentsEnabled := true
  processor := "nodeless"
  admission := [⟨true, fee, []⟩]
  zebedeeIpWhitelist := []

def noBech32 (_ : String) : Except String (String × Bytes) := .error "Mixed-case string"

/-- The tables with the invoice. -/
def nodelessLedger (sats : ℤ) : Ledger := ⟨[nodelessRow sats], [newUser payer none]⟩

/-- A fee of whole satoshis is paid by its invoice. -/
theorem ownInvoiceAdmits_whole : OwnInvoiceAdmits samplePlatform (nodelessSettings 1000000)
    (nodelessRow 1000) (nodelessLedger 1000) := by
  have hissues : Issues noBech32 samplePlatform (nodelessSettings 1000000) none false
      (some admissionBody) (nodelessAnswer 1000) .none "" ⟨[], []⟩ (Bytes.toHex payer)
      (nodelessRow 1000) (nodelessLedger 1000) := ⟨⟨_, _, by rfl⟩, by decide, by decide⟩
  have hfee : applicableFee (nodelessSettings 1000000) (Bytes.toHex payer) = 1000000 := by
    decide +kernel
  refine (ownInvoiceAdmits_iff hissues ?_ (by decide)).mpr (Or.inl ?_)
  · rw [hfee]
    exact ⟨Json.toBigInt_intCast _ _, rfl⟩
  · rw [hfee]
    decide

/-- **A fee of a fraction of a satoshi** is not paid by its own invoice: of
1500 millisatoshis the invoice asks for 1000. -/
theorem not_ownInvoiceAdmits_fraction :
    Issues noBech32 samplePlatform (nodelessSettings 1500) none false (some admissionBody)
      (nodelessAnswer 1) .none "" ⟨[], []⟩ (Bytes.toHex payer) (nodelessRow 1) (nodelessLedger 1) ∧
    (nodelessAnswer 1).AsAsked samplePlatform 1500 ∧
    ¬ OwnInvoiceAdmits samplePlatform (nodelessSettings 1500) (nodelessRow 1) (nodelessLedger 1) := by
  have hissues : Issues noBech32 samplePlatform (nodelessSettings 1500) none false
      (some admissionBody) (nodelessAnswer 1) .none "" ⟨[], []⟩ (Bytes.toHex payer)
      (nodelessRow 1) (nodelessLedger 1) := ⟨⟨_, _, by rfl⟩, by decide, by decide⟩
  have hasked : (nodelessAnswer 1).AsAsked samplePlatform 1500 := ⟨Json.toBigInt_intCast _ _, rfl⟩
  refine ⟨hissues, hasked, fun h => ?_⟩
  -- the invoice is confirmed right away
  let invoice : Invoice := ⟨some (.str "3b1e77"), some (.str (Bytes.toHex payer)), none, some 1,
    some (.str "sats"), some (.str "completed"), some (.time 1700000000000)⟩
  have hpays : Pays (nodelessRow 1) 1700000000000 invoice := ⟨⟨rfl, rfl, rfl, rfl, rfl⟩, rfl⟩
  have hkeeps : KeepsInvoice (nodelessRow 1) (nodelessLedger 1) (nodelessLedger 1) :=
    ⟨⟨some .pending, rfl⟩, by decide, id⟩
  have hadmitted := h (nodelessLedger 1) .none 1700000000000 invoice
    ⟨[(nodelessRow 1).confirm 1 1700000000000], [⟨payer, false, 1000⟩]⟩ hkeeps hpays (by rfl)
  revert hadmitted
  decide

end NostrMesh.Payments
