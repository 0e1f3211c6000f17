/-
NostrMesh/Relay/StoreInvariant.lean

What holds of the flat table under any traffic of clients.

`StoreInv` relates the table to the handlers: every row holds an event of one
of them, and for every acknowledged event with an address the row of the
address is at least as new.  One statement of one handler keeps it
(`StoreInv.step`), and lets every row become a later one.

`storeInvariant_of_reaches` reads the contract of the store off it: one row
for each replaceable address, which holds the newest acknowledged event; a
count of 1 for exactly the events that are newer than all before; rows
without an address that are never replaced; and no ephemeral event.  An event
whose statement raises an error is refused and does not count
(`refused_not_stored`).
-/
import NostrMesh.Relay.AdmissionPolicy
import NostrMesh.Relay.ClientPath
import NostrMesh.Relay.Convergence

namespace NostrMesh.Relay

/-! ### Addresses -/

/-- A replaceable address: public key, kind and deduplication. -/
abbrev Address := Bytes × ℕ × Deduplication

def eventAddress (event : Event) : Option Address :=
  (addressOf event).map fun d => (toBuffer event.pubkey, event.kind, d)

def rowAddress (row : EventRow) : Option Address :=
  if (toNostrEvent row).isReplaceableEvent || (toNostrEvent row).isParameterizedReplaceableEvent then
    row.eventDeduplication.map fun d => (row.eventPubkey, row.eventKind, d)
  else none

section

variable {event event' : Event} {row row' : EventRow} {A : Address}

theorem addressOf_isSome_iff : (addressOf event).isSome ↔
    event.isReplaceableEvent = true ∨ event.isParameterizedReplaceableEvent = true := by
  rw [addressOf, eventStrategyFactory]
  rcases hrep : event.isReplaceableEvent with - | -
  · rcases heph : event.isEphemeralEvent with - | -
    · rcases hdel : event.isDeleteEvent with - | -
      · rcases hparam : event.isParameterizedReplaceableEvent with - | - <;> simp
      · have hkind : event.kind = EventKinds.delete := of_decide_eq_true hdel
        simp [Event.isParameterizedReplaceableEvent, hkind, EventKinds.delete,
          EventKinds.parameterizedReplaceableFirst]
    · have hkind := of_decide_eq_true (Bool.and_eq_true_iff.mp heph).2
      have hlast : ¬ EventKinds.parameterizedReplaceableFirst ≤ event.kind :=
        not_le.mpr (lt_of_le_of_lt hkind (by decide))
      simp [Event.isParameterizedReplaceableEvent, hlast]
  · simp

/-- The address of an event's row is the event's. -/
theorem sameAddress_iff : SameAddress event row ↔
    ∃ A, eventAddress event = some A ∧ rowAddress row = some A := by
  have hkinds : row.eventKind = event.kind → (((toNostrEvent row).isReplaceableEvent ||
      (toNostrEvent row).isParameterizedReplaceableEvent) = true ↔ (addressOf event).isSome) := by
    intro hkind
    rw [addressOf_isSome_iff, Bool.or_eq_true]
    simp only [Event.isReplaceableEvent, Event.isParameterizedReplaceableEvent, toNostrEvent, hkind]
  constructor
  · rintro ⟨haddr, hpubkey, hkind, hdedup⟩
    obtain ⟨d, hd⟩ := Option.isSome_iff_exists.mp haddr
    refine ⟨(toBuffer event.pubkey, event.kind, d), by rw [eventAddress, hd, Option.map_some], ?_⟩
    rw [rowAddress, if_pos ((hkinds hkind).mpr haddr), hdedup, hd, Option.map_some, hpubkey, hkind]
  · rintro ⟨A, hevent, hrow⟩
    obtain ⟨d, hd, rfl⟩ := Option.map_eq_some_iff.mp hevent
    rw [rowAddress] at hrow
    split_ifs at hrow
    obtain ⟨d', hd', heq⟩ := Option.map_eq_some_iff.mp hrow
    simp only [Prod.mk.injEq] at heq
    obtain ⟨hpubkey, hkind, rfl⟩ := heq
    exact ⟨by rw [hd, Option.isSome_some], hpubkey, hkind, hd'.trans hd.symm⟩

theorem sameAddress_iff_of (h : eventAddress event = some A) :
    SameAddress event row ↔ rowAddress row = some A := by
  rw [sameAddress_iff]
  constructor
  · rintro ⟨A', hevent, hrow⟩
    rw [hrow, ← hevent, h]
  · exact fun hrow => ⟨A, h, hrow⟩

theorem isSome_of_eventAddress (h : eventAddress event = some A) : (addressOf event).isSome := by
  obtain ⟨d, hd, -⟩ := Option.map_eq_some_iff.mp h
  rw [hd, Option.isSome_some]

/-- The address of a row is that of the event that it holds. -/
theorem Written.rowAddress_eq (h : Written event row) : rowAddress row = eventAddress event := by
  by_cases haddr : (addressOf event).isSome
  · obtain ⟨A, hevent, hrow⟩ := sameAddress_iff.mp (h.sameAddress haddr)
    rw [hevent, hrow]
  · have hnone : addressOf event = none := Option.not_isSome_iff_eq_none.mp haddr
    rw [rowAddress, h.eventDeduplication, eventAddress, hnone]
    simp

end

namespace Traffic

open Tables Interleaving

variable {ι : Type*} {R : Runtime} {messages : ι → Message}
variable {c c' : Pool Op Res Database Answer ι}

/-- The handler has ended, and has acknowledged the event. -/
def Accepted (p : Handler Answer) (event : Event) : Prop :=
  ∃ emits, p = .ret (.emitted emits) ∧ Acknowledged event emits

/-- The table and the handlers. -/
structure StoreInv (R : Runtime) (messages : ι → Message) (c : Pool Op Res Database Answer ι) :
    Prop where
  rest : ∀ i, Rest R (messages i) (c.2 i) ∨ ∃ a, c.2 i = .ret a
  unique : Unique flatSchema.enforced c.1.events
  origin : ∀ row ∈ c.1.events, ∃ i event remoteAddress,
    messages i = .event event remoteAddress ∧ Valid R event ∧
      eventStrategyFactory event ≠ .ephemeral ∧ Written event row ∧
      ((addressOf event).isSome → Accepted (c.2 i) event)
  current : ∀ i event remoteAddress, messages i = .event event remoteAddress →
    (addressOf event).isSome → Accepted (c.2 i) event →
    ∃ row ∈ c.1.events, SameAddress event row ∧ event.createdAt ≤ row.eventCreatedAt

/-! ### One step -/

theorem not_accepted_refused (event : Event) (message : String) :
    ¬ Accepted (.ret (.emitted [.message event.id false message])) event := by
  rintro ⟨emits, heq, hack⟩
  cases heq
  exact not_acknowledged_of_refused event message hack

/-- An event with an address is not acknowledged without its statement. -/
theorem Rest.not_accepted {event : Event} {remoteAddress : Option String} {p : Handler Answer}
    (h : Rest R (.event event remoteAddress) p) (haddr : (addressOf event).isSome) :
    ¬ Accepted p event := by
  cases h with
  | refused message => exact not_accepted_refused event message
  | relayed hvalid hstrategy => simp [addressOf, hstrategy] at haddr
  | ended =>
      rintro ⟨emits, heq, -⟩
      cases heq
  | checking => rintro ⟨emits, heq, -⟩; cases heq
  | deleting => rintro ⟨emits, heq, -⟩; cases heq
  | creating => rintro ⟨emits, heq, -⟩; cases heq
  | upserting => rintro ⟨emits, heq, -⟩; cases heq

section

/-- A handler that has not answered goes on as `Rest` says. -/
theorem StoreInv.rest_of_op (h : StoreInv R messages c) {i : ι} {o : Op} {k : Res o → Handler Answer}
    (hop : c.2 i = .op o k) : Rest R (messages i) (.op o k) := by
  rcases h.rest i with hrest | ⟨a, ha⟩
  · rwa [hop] at hrest
  · cases hop.symm.trans ha

variable [DecidableEq ι]

/-- What a step has to show. -/
theorem StoreInv.step_of (h : StoreInv R messages c) {j : ι} {o : Op} {k : Res o → Handler Answer}
    (hj : c.2 j = .op o k) {p : Handler Answer} {db : Database}
    (hrest : Rest R (messages j) p ∨ ∃ a, p = .ret a) (hunique : Unique flatSchema.enforced db.events)
    (hadvances : Advances c.1.events db.events)
    (horigin : ∀ row ∈ db.events, (∃ old ∈ c.1.events, ∃ deletedAt, row = { old with deletedAt }) ∨
      ∃ event remoteAddress, messages j = .event event remoteAddress ∧ Valid R event ∧
        eventStrategyFactory event ≠ .ephemeral ∧ Written event row ∧
        ((addressOf event).isSome → Accepted p event))
    (hcurrent : ∀ event remoteAddress, messages j = .event event remoteAddress →
      (addressOf event).isSome → Accepted p event →
      ∃ row ∈ db.events, SameAddress event row ∧ event.createdAt ≤ row.eventCreatedAt) :
    StoreInv R messages (db, Function.update c.2 j p) := by
  refine ⟨fun i => ?_, hunique, fun row hrow => ?_, fun i event remoteAddress hi haddr haccepted => ?_⟩
  · by_cases hij : i = j
    · subst hij
      simpa using hrest
    · simpa [Function.update_of_ne hij] using h.rest i
  · -- an old row keeps its origin, a new one comes from the handler that steps
    rcases horigin row hrow with ⟨old, hold, deletedAt, rfl⟩ |
      ⟨event, remoteAddress, hmessage, hvalid, hstrategy, hwritten, haccepted⟩
    · obtain ⟨i, event, remoteAddress, hi, hvalid, hstrategy, hwritten, haccepted⟩ := h.origin old hold
      refine ⟨i, event, remoteAddress, hi, hvalid, hstrategy, hwritten.mark deletedAt, fun haddr => ?_⟩
      -- a handler that has acknowledged does not step
      have hne : i ≠ j := by
        rintro rfl
        obtain ⟨emits, hret, -⟩ := haccepted haddr
        exact absurd (hj.symm.trans hret) (by simp)
      simpa [Function.update_of_ne hne] using haccepted haddr
    · exact ⟨j, event, remoteAddress, hmessage, hvalid, hstrategy, hwritten, by simpa using haccepted⟩
  · by_cases hij : i = j
    · subst hij
      exact hcurrent event remoteAddress hi haddr (by simpa using haccepted)
    · obtain ⟨row, hrow, hsame, hle⟩ := h.current i event remoteAddress hi haddr
        (by simpa [Function.update_of_ne hij] using haccepted)
      -- what was acknowledged before keeps a row, maybe a newer one
      obtain ⟨row', hrow', hlater⟩ := hadvances row hrow
      obtain ⟨hsame', hle'⟩ := hlater.sameAddress hsame
      exact ⟨row', hrow', hsame', hle.trans hle'⟩

/-- A step that leaves the table alone, and acknowledges no event with an
address. -/
theorem StoreInv.step_same (h : StoreInv R messages c) {j : ι} {o : Op} {k : Res o → Handler Answer}
    (hj : c.2 j = .op o k) {p : Handler Answer} (hrest : Rest R (messages j) p ∨ ∃ a, p = .ret a)
    (hnot : ∀ event remoteAddress, messages j = .event event remoteAddress →
      (addressOf event).isSome → ¬ Accepted p event) :
    StoreInv R messages (c.1, Function.update c.2 j p) :=
  h.step_of hj hrest h.unique (.refl _)
    (fun row hrow => Or.inl ⟨row, hrow, row.deletedAt, rfl⟩)
    fun event remoteAddress hmessage haddr haccepted =>
      absurd haccepted (hnot event remoteAddress hmessage haddr)

theorem unique_markRow {S : Schema} {rows : List EventRow} (h : Unique S.enforced rows) (now : ℕ)
    (pubkey : String) (ids : List String) : Unique S.enforced (rows.map (markRow now pubkey ids)) := by
  refine h.map fun u hu r => ?_
  obtain ⟨ix, -, rfl⟩ := List.mem_map.mp hu
  rcases markRow_cases now pubkey ids r with ⟨-, heq⟩ | ⟨-, heq⟩
  · rw [heq]
    rfl
  · rw [heq]

theorem advances_markRow (rows : List EventRow) (now : ℕ) (pubkey : String) (ids : List String) :
    Advances rows (rows.map (markRow now pubkey ids)) :=
  fun _ hrow => ⟨_, List.mem_map_of_mem hrow, later_markRow⟩

section

variable {j : ι} {event : Event} {remoteAddress : Option String} {fault : Option DbError} {now : ℕ}

/-- The marking of rows. -/
theorem StoreInv.step_delete (h : StoreInv R messages c) {k : Except DbError ℕ → Handler Answer}
    (hm : messages j = .event event remoteAddress)
    (hj : c.2 j = .op (.deleteByPubkeyAndIds event.pubkey (eventIdsToDelete event)) k)
    (hk : ∀ r, Rest R (.event event remoteAddress) (k r)) {result : Except DbError ℕ × Database}
    (he : result = deleteByPubkeyAndIds fault now event.pubkey (eventIdsToDelete event) c.1) :
    StoreInv R messages (result.2, Function.update c.2 j (k result.1)) ∧
      Advances c.1.events result.2.events := by
  have hrest : Rest R (messages j) (k result.1) ∨ ∃ a, k result.1 = .ret a :=
    Or.inl (hm ▸ hk result.1)
  have hnot : ∀ event' remoteAddress', messages j = .event event' remoteAddress' →
      (addressOf event').isSome → ¬ Accepted (k result.1) event' := by
    intro event' remoteAddress' heq haddr
    cases hm.symm.trans heq
    exact (hk result.1).not_accepted haddr
  -- the statement fails, or marks rows in place
  rcases deleteByPubkeyAndIds_cases fault now event.pubkey (eventIdsToDelete event) c.1 with
    hsame | hmarked
  · rw [← he] at hsame
    rw [hsame]
    exact ⟨h.step_same hj hrest hnot, .refl _⟩
  · rw [← he] at hmarked
    have hadvances := advances_markRow c.1.events now event.pubkey (eventIdsToDelete event)
    rw [← hmarked] at hadvances
    refine ⟨h.step_of hj hrest ?_ hadvances ?_ ?_, hadvances⟩
    · rw [hmarked]
      exact unique_markRow h.unique _ _ _
    · rw [hmarked]
      intro row hrow
      obtain ⟨old, hold, rfl⟩ := List.mem_map.mp hrow
      rcases markRow_cases now event.pubkey (eventIdsToDelete event) old with ⟨-, hmark⟩ | ⟨-, hmark⟩
      · exact Or.inl ⟨old, hold, some now, hmark⟩
      · exact Or.inl ⟨old, hold, old.deletedAt, hmark⟩
    · intro event' remoteAddress' heq haddr haccepted
      exact absurd haccepted (hnot event' remoteAddress' heq haddr)

/-- The insert of an event without an address. -/
theorem StoreInv.step_create (h : StoreInv R messages c) {k : ℕ → Handler Answer}
    (hm : messages j = .event event remoteAddress) (hvalid : Valid R event)
    (haddr : addressOf event = none) (hstrategy : eventStrategyFactory event ≠ .ephemeral)
    (hj : c.2 j = .op (.create ((received R event remoteAddress).incoming none)) k)
    (hk : ∀ count, k count = .ret (.emitted (commandResult event count))) {result : ℕ × Database}
    (he : result = create flatSchema fault now ((received R event remoteAddress).incoming none) c.1) :
    StoreInv R messages (result.2, Function.update c.2 j (k result.1)) ∧
      Advances c.1.events result.2.events := by
  have hrest : Rest R (messages j) (k result.1) ∨ ∃ a, k result.1 = .ret a := Or.inr ⟨_, hk _⟩
  have hnone : ∀ {event' remoteAddress'}, messages j = .event event' remoteAddress' →
      ¬ (addressOf event').isSome := by
    intro event' remoteAddress' heq
    cases hm.symm.trans heq
    simp [haddr]
  rcases create_cases flatSchema fault now ((received R event remoteAddress).incoming none) c.1 with
    hsame | ⟨hinsert, hno⟩
  · rw [he, hsame] at hrest ⊢
    exact ⟨h.step_same hj hrest fun _ _ heq haddr' => absurd haddr' (hnone heq), .refl _⟩
  · rw [he, hinsert] at hrest ⊢
    refine ⟨h.step_of hj hrest (h.unique.insert hno) (.insert _ _) ?_ ?_, .insert _ _⟩
    · intro row hrow
      rcases List.mem_append.mp hrow with hold | hnew
      · exact Or.inl ⟨row, hold, row.deletedAt, rfl⟩
      · rw [List.mem_singleton.mp hnew]
        exact Or.inr ⟨event, remoteAddress, hm, hvalid, hstrategy,
          ⟨rfl, rfl, rfl, rfl, rfl, rfl, haddr.symm⟩, fun haddr' => absurd haddr' (hnone hm)⟩
    · intro _ _ heq haddr'
      exact absurd haddr' (hnone heq)

/-- The upsert of an event with an address. -/
theorem StoreInv.step_upsert (h : StoreInv R messages c) {k : Except DbError ℕ → Handler Answer}
    (hm : messages j = .event event remoteAddress) (hvalid : Valid R event)
    (haddr : (addressOf event).isSome)
    (hj : c.2 j = .op (.upsert ((received R event remoteAddress).incoming (attached event))) k)
    (hok : ∀ count, k (.ok count) = .ret (.emitted (commandResult event count)))
    (herror : ∀ e, ∃ message, k (.error e) = .ret (.emitted [.message event.id false message]))
    {result : Except DbError ℕ × Database}
    (he : result = upsert flatSchema fault now
      ((received R event remoteAddress).incoming (attached event)) c.1) :
    StoreInv R messages (result.2, Function.update c.2 j (k result.1)) ∧
      Advances c.1.events result.2.events := by
  rcases upsert_flat_change (received R event remoteAddress) fault now c.1 haddr with
    ⟨e, hfailed⟩ | ⟨change, hchanged, hchange, hunique⟩
  · -- the event is refused
    obtain ⟨message, hmessage⟩ := herror e
    rw [he.trans hfailed]
    refine ⟨h.step_same hj (Or.inr ⟨_, hmessage⟩) ?_, .refl _⟩
    intro event' remoteAddress' heq _
    cases hm.symm.trans heq
    rw [hmessage]
    exact not_accepted_refused event message
  · rw [he.trans hchanged]
    have haccepted : Accepted (k (.ok change.rowCount)) event :=
      ⟨_, hok change.rowCount, acknowledged_commandResult event change.rowCount⟩
    have hstrategy : eventStrategyFactory event ≠ .ephemeral := by
      intro hs
      simp [addressOf, hs] at haddr
    refine ⟨h.step_of hj (Or.inr ⟨_, hok _⟩) (hunique h.unique) hchange.advances ?_ ?_,
      hchange.advances⟩
    · intro row hrow
      rcases hchange.mem_cases hrow with hold | hnew
      · exact Or.inl ⟨row, hold, row.deletedAt, rfl⟩
      · exact Or.inr ⟨event, remoteAddress, hm, hvalid, hstrategy, hnew.written, fun _ => haccepted⟩
    · -- the event is acknowledged also where it changes nothing: then a newer row is there
      intro event' remoteAddress' heq _ _
      cases hm.symm.trans heq
      exact hchange.exists_row haddr

end

/-- **One statement of one client** keeps the invariant, and every row has a
later one. -/
theorem StoreInv.step (h : StoreInv R messages c) (hstep : PoolStep (fun _ => eff flatSchema) c c') :
    StoreInv R messages c' ∧ Advances c.1.events c'.1.events := by
  cases hstep with
  | @step db db' p o k r j hj he =>
      have hrest := h.rest_of_op hj
      dsimp only at hj ⊢
      generalize hm : messages j = message at hrest
      cases hrest with
      | @checking event remoteAddress k hk =>
          obtain rfl : db' = db := he
          refine ⟨h.step_same hj (Or.inl (hm ▸ hk r)) ?_, .refl _⟩
          intro event' remoteAddress' heq haddr
          cases hm.symm.trans heq
          exact (hk r).not_accepted haddr
      | @finding filters k herror hok =>
          obtain ⟨rfl, -⟩ := he
          have hret : ∃ a, k r = .ret a := by
            rcases r with e | rows
            · exact ⟨_, herror e⟩
            · exact ⟨_, hok rows⟩
          refine ⟨h.step_same hj (Or.inr hret) ?_, .refl _⟩
          intro event' remoteAddress' heq
          cases hm.symm.trans heq
      | deleting hvalid hdelete hk =>
          obtain ⟨fault, now, heq⟩ := he
          exact h.step_delete hm hj hk heq
      | creating hvalid haddr hstrategy hk =>
          obtain ⟨fault, now, heq⟩ := he
          exact h.step_create hm hvalid haddr hstrategy hj hk heq
      | upserting hvalid haddr hok herror =>
          obtain ⟨fault, now, heq⟩ := he
          exact h.step_upsert hm hvalid haddr hj hok herror heq

/-! ### All runs -/

/-- **The invariant holds at all times**, and every row has a later one from
then on. -/
theorem StoreInv.of_reaches (h : StoreInv R messages c)
    (hr : PoolReaches (fun _ => eff flatSchema) c c') :
    StoreInv R messages c' ∧ Advances c.1.events c'.1.events := by
  induction hr with
  | refl => exact ⟨h, .refl _⟩
  | tail _ hstep ih =>
      obtain ⟨hinv, hadvances⟩ := ih
      obtain ⟨hinv', hadvances'⟩ := hinv.step hstep
      exact ⟨hinv', hadvances.trans hadvances'⟩

end

theorem storeInv_begun (hclients : ∀ i, (messages i).IsClient) :
    StoreInv R messages (begun R messages ⟨[], []⟩) where
  rest i := Or.inl (rest_handle (hclients i))
  unique := unique_nil
  origin row hrow := by cases hrow
  current i event remoteAddress hi haddr haccepted := by
    have hrest : Rest R (messages i) (handle R (messages i)) := rest_handle (hclients i)
    rw [hi] at hrest
    have haccepted' : Accepted (handle R (messages i)) event := haccepted
    rw [hi] at haccepted'
    exact absurd haccepted' (hrest.not_accepted haddr)

/-! ### The contract of the store -/

/-- The ids of the events are hashes without collisions. -/
def CollisionFree (R : Runtime) (messages : ι → Message) : Prop :=
  ∀ i j event remoteAddress event' remoteAddress',
    messages i = .event event remoteAddress → messages j = .event event' remoteAddress' →
    toBuffer (R.eventHash event.pubkey event.template)
      = toBuffer (R.eventHash event'.pubkey event'.template) →
    event.pubkey = event'.pubkey ∧ event.template = event'.template

/-- The times of the acknowledged events of an address. -/
def acceptedTimes (messages : ι → Message) (c : Pool Op Res Database Answer ι) (A : Address) : Set ℤ :=
  { time | ∃ i event remoteAddress, messages i = .event event remoteAddress ∧
    eventAddress event = some A ∧ Accepted (c.2 i) event ∧ event.createdAt = time }

/-- What the store owes to those who publish. -/
structure StoreContract [DecidableEq ι] (R : Runtime) (messages : ι → Message)
    (c : Pool Op Res Database Answer ι) : Prop where
  /-- There is at most one row for each address. -/
  oneRow : ∀ A, (c.1.events.filter fun row => rowAddress row = some A).length ≤ 1
  /-- An address has a row once one of its events has been acknowledged, … -/
  present : ∀ A, (acceptedTimes messages c A).Nonempty → ∃ row ∈ c.1.events, rowAddress row = some A
  /-- … and the time of the row is the largest among them. -/
  newest : ∀ row ∈ c.1.events, ∀ A, rowAddress row = some A →
    IsGreatest (acceptedTimes messages c A) row.eventCreatedAt
  /-- After its checks, an event with an address is upserted. -/
  routed : ∀ i event remoteAddress o k, messages i = .event event remoteAddress →
    (eventAddress event).isSome → c.2 i = .op o k →
    o = .check event ∨ o = .upsert ((received R event remoteAddress).incoming (attached event))
  /-- The upsert reports a row as changed exactly if the event is newer than
  all of its address that were acknowledged before … -/
  counts : ∀ i event remoteAddress incoming k A, messages i = .event event remoteAddress →
    eventAddress event = some A → c.2 i = .op (.upsert incoming) k →
    ∀ fault now count, (upsert flatSchema fault now incoming c.1).1 = .ok count →
      (count = 0 ∨ count = 1) ∧
      (count = 1 ↔ ∀ time ∈ acceptedTimes messages c A, time < event.createdAt)
  /-- … and it raises an error only if the statement fails or a column does
  not take its value. -/
  accepts : ∀ i event remoteAddress incoming k, messages i = .event event remoteAddress →
    c.2 i = .op (.upsert incoming) k →
    ∀ now, (upsertRow now incoming).columnError = none →
      ∃ count, (upsert flatSchema none now incoming c.1).1 = .ok count
  /-- A row without an address is only ever marked as deleted. -/
  kept : ∀ row ∈ c.1.events, rowAddress row = none →
    ∀ c', PoolReaches (fun _ => eff flatSchema) c c' →
      ∃ deletedAt, { row with deletedAt } ∈ c'.1.events
  /-- No ephemeral event is stored. -/
  noEphemeral : ∀ row ∈ c.1.events, (toNostrEvent row).isEphemeralEvent = false

section

variable {event event' : Event}

/-- Different ids do not collide. -/
theorem collisionFree_of_injective {events : ι → Event} {remoteAddress : Option String}
    (h : ∀ i j, toBuffer (R.eventHash (events i).pubkey (events i).template) =
      toBuffer (R.eventHash (events j).pubkey (events j).template) → i = j) :
    CollisionFree R fun i => .event (events i) remoteAddress := by
  intro i j event remoteAddress event' remoteAddress' hi hj heq
  cases hi
  cases hj
  obtain rfl := h i j heq
  exact ⟨rfl, rfl⟩

/-- Valid events of one id have the same contents. -/
theorem CollisionFree.eq_of_id (h : CollisionFree R messages) {i j : ι}
    {remoteAddress remoteAddress' : Option String} (hi : messages i = .event event remoteAddress)
    (hj : messages j = .event event' remoteAddress') (hvalid : Valid R event)
    (hvalid' : Valid R event') (hid : toBuffer event.id = toBuffer event'.id) :
    event.pubkey = event'.pubkey ∧ event.template = event'.template := by
  refine h i j event remoteAddress event' remoteAddress' hi hj ?_
  rw [← of_decide_eq_true hvalid.1, ← of_decide_eq_true hvalid'.1]
  exact hid

theorem kind_congr (h : event.template = event'.template) : event.kind = event'.kind :=
  congrArg EventTemplate.kind h

theorem createdAt_congr (h : event.template = event'.template) : event.createdAt = event'.createdAt :=
  congrArg EventTemplate.createdAt h

theorem eventStrategyFactory_congr (h : event.template = event'.template) :
    eventStrategyFactory event = eventStrategyFactory event' := by
  have hkind := kind_congr h
  rcases event with ⟨id, pubkey, createdAt, kind, tags, content, sig⟩
  rcases event' with ⟨id', pubkey', createdAt', kind', tags', content', sig'⟩
  obtain rfl : kind = kind' := hkind
  rfl

theorem addressOf_congr (hpubkey : event.pubkey = event'.pubkey)
    (h : event.template = event'.template) : addressOf event = addressOf event' := by
  have htags : event.tags = event'.tags := congrArg EventTemplate.tags h
  have htag : deduplicationTag event = deduplicationTag event' := by
    rw [deduplicationTag, deduplicationTag, htags]
  rw [addressOf, addressOf, eventStrategyFactory_congr h, htag, hpubkey, kind_congr h]

/-- An event with an address goes on with its upsert. -/
theorem StoreInv.upserting (h : StoreInv R messages c) {i : ι} {remoteAddress : Option String}
    {incoming : IncomingEvent} {k : Except DbError ℕ → Handler Answer}
    (hi : messages i = .event event remoteAddress) (hop : c.2 i = .op (.upsert incoming) k) :
    Valid R event ∧ (addressOf event).isSome ∧
      incoming = (received R event remoteAddress).incoming (attached event) := by
  have hrest := h.rest_of_op hop
  rw [hi] at hrest
  cases hrest with
  | upserting hvalid haddr hok herror => exact ⟨hvalid, haddr, rfl⟩

/-- Rows of one address clash. -/
theorem StoreInv.clash_of_rowAddress (h : StoreInv R messages c) {r s : EventRow} {A : Address}
    (hs : s ∈ c.1.events) (hra : rowAddress r = some A) (hsa : rowAddress s = some A) :
    replaceableEventsIdx.toUniqueIndex.Clash r s := by
  obtain ⟨i, event, remoteAddress, -, -, -, hwritten, -⟩ := h.origin s hs
  have hevent : eventAddress event = some A := hwritten.rowAddress_eq ▸ hsa
  have haddr := isSome_of_eventAddress hevent
  exact (clash_iff_sameAddress haddr hwritten.eventPubkey hwritten.eventKind
    hwritten.eventDeduplication).mpr ((sameAddress_iff_of hevent).mpr hra)

/-- The row of an address has the time of its newest acknowledged event. -/
theorem StoreInv.isGreatest (h : StoreInv R messages c) {row : EventRow} {A : Address}
    (hrow : row ∈ c.1.events) (hA : rowAddress row = some A) :
    IsGreatest (acceptedTimes messages c A) row.eventCreatedAt := by
  constructor
  · obtain ⟨i, event, remoteAddress, hi, -, -, hwritten, haccepted⟩ := h.origin row hrow
    have hevent : eventAddress event = some A := hwritten.rowAddress_eq ▸ hA
    exact ⟨i, event, remoteAddress, hi, hevent, haccepted (isSome_of_eventAddress hevent),
      hwritten.eventCreatedAt.symm⟩
  · rintro time ⟨i, event, remoteAddress, hi, hevent, haccepted, rfl⟩
    obtain ⟨row', hrow', hsame, hle⟩ :=
      h.current i event remoteAddress hi (isSome_of_eventAddress hevent) haccepted
    have hsame' := (sameAddress_iff_of hevent).mpr hA
    rwa [eq_of_sameAddress h.unique hrow hrow' hsame' hsame]

/-- Two rows of one address would clash. -/
theorem StoreInv.length_atAddress_le (h : StoreInv R messages c) (A : Address) :
    (c.1.events.filter fun row => rowAddress row = some A).length ≤ 1 := by
  have hpairwise := (h.unique _ replaceableEventsIdx_mem_enforced).filter
    fun row => decide (rowAddress row = some A)
  have hmem : ∀ row ∈ c.1.events.filter fun row => rowAddress row = some A,
      row ∈ c.1.events ∧ rowAddress row = some A := fun row hrow => by simpa using hrow
  rcases hrows : c.1.events.filter fun row => rowAddress row = some A with - | ⟨r, - | ⟨s, rows⟩⟩
  · exact Nat.zero_le 1
  · exact le_rfl
  · rw [hrows] at hpairwise hmem
    obtain ⟨-, hra⟩ := hmem r List.mem_cons_self
    obtain ⟨hsmem, hsa⟩ := hmem s (List.mem_cons_of_mem _ List.mem_cons_self)
    exact absurd (h.clash_of_rowAddress hsmem hra hsa)
      (List.rel_of_pairwise_cons hpairwise List.mem_cons_self)

/-- An acknowledged event has left a row at its address. -/
theorem StoreInv.exists_atAddress (h : StoreInv R messages c) {A : Address} {time : ℤ}
    (htime : time ∈ acceptedTimes messages c A) : ∃ row ∈ c.1.events, rowAddress row = some A := by
  obtain ⟨i, event, remoteAddress, hi, hevent, haccepted, rfl⟩ := htime
  obtain ⟨row, hrow, hsame, -⟩ :=
    h.current i event remoteAddress hi (isSome_of_eventAddress hevent) haccepted
  exact ⟨row, hrow, (sameAddress_iff_of hevent).mp hsame⟩

/-- An event with an address is checked, and then upserted. -/
theorem StoreInv.check_or_upsert (h : StoreInv R messages c) {i : ι} {remoteAddress : Option String}
    {o : Op} {k : Res o → Handler Answer} (hi : messages i = .event event remoteAddress)
    (haddr : (addressOf event).isSome) (hop : c.2 i = .op o k) :
    o = .check event ∨ o = .upsert ((received R event remoteAddress).incoming (attached event)) := by
  have hrest := h.rest_of_op hop
  rw [hi] at hrest
  cases hrest with
  | checking hk => exact Or.inl rfl
  | upserting hvalid _ hok herror => exact Or.inr rfl
  | creating hvalid hnone hstrategy hk =>
      rw [hnone] at haddr
      cases haddr
  | deleting hvalid hdelete hk =>
      have hkind : event.kind = EventKinds.delete := of_decide_eq_true hdelete
      rcases addressOf_isSome_iff.mp haddr with hrep | hparam
      · simp [Event.isReplaceableEvent, hkind, EventKinds.delete, EventKinds.setMetadata,
          EventKinds.contactList, EventKinds.channelMetadata, EventKinds.replaceableFirst] at hrep
      · simp [Event.isParameterizedReplaceableEvent, hkind, EventKinds.delete,
          EventKinds.parameterizedReplaceableFirst] at hparam

/-- The count of an upsert tells whether the event is newer than all that were
acknowledged. -/
theorem StoreInv.upsert_count (h : StoreInv R messages c) {remoteAddress : Option String} {A : Address}
    (hevent : eventAddress event = some A) {fault : Option DbError} {now count : ℕ}
    (hcount : (upsert flatSchema fault now
      ((received R event remoteAddress).incoming (attached event)) c.1).1 = .ok count) :
    (count = 0 ∨ count = 1) ∧
      (count = 1 ↔ ∀ time ∈ acceptedTimes messages c A, time < event.createdAt) := by
  rcases upsert_flat_change (received R event remoteAddress) fault now c.1
    (isSome_of_eventAddress hevent) with ⟨e, he⟩ | ⟨change, hchanged, hchange, -⟩
  · cases hcount.symm.trans (congrArg Prod.fst he)
  · obtain rfl : count = change.rowCount :=
      Except.ok.inj (hcount.symm.trans (congrArg Prod.fst hchanged))
    cases hchange with
    | inserted new hnew hno =>
        -- no event of the address has been acknowledged
        refine ⟨Or.inr rfl, iff_of_true rfl fun time htime => ?_⟩
        obtain ⟨row, hrow, hA⟩ := h.exists_atAddress htime
        exact absurd ((sameAddress_iff_of hevent).mpr hA) (hno row hrow)
    | replaced old new hold hsame hlt hnew =>
        refine ⟨Or.inr rfl, iff_of_true rfl fun time htime => ?_⟩
        have hgreatest := h.isGreatest hold ((sameAddress_iff_of hevent).mp hsame)
        exact lt_of_le_of_lt (hgreatest.2 htime) hlt
    | kept old hold hsame hle =>
        refine ⟨Or.inl rfl, iff_of_false Nat.zero_ne_one fun hall => ?_⟩
        have hgreatest := h.isGreatest hold ((sameAddress_iff_of hevent).mp hsame)
        exact absurd (hall _ hgreatest.1) (not_lt.mpr hle)

/-- With collision-free ids a row of the id of an event stands at the address
of the event, so that the index on ids is in no one's way. -/
theorem StoreInv.exists_count (h : StoreInv R messages c) (hids : CollisionFree R messages) {i : ι}
    {remoteAddress : Option String} (hi : messages i = .event event remoteAddress)
    (hvalid : Valid R event) (haddr : (addressOf event).isSome) {now : ℕ}
    (hfits : (upsertRow now ((received R event remoteAddress).incoming (attached event))).columnError
      = none) :
    ∃ count, (upsert flatSchema none now
      ((received R event remoteAddress).incoming (attached event)) c.1).1 = .ok count := by
  obtain ⟨change, hchange⟩ := exists_upsert_flat (received R event remoteAddress) now haddr
    h.unique hfits <| Or.inl fun row hrow hid => by
      obtain ⟨j, event', remoteAddress', hj, hvalid', -, hwritten, -⟩ := h.origin row hrow
      obtain ⟨hpubkey, htemplate⟩ :=
        hids.eq_of_id hj hi hvalid' hvalid (hwritten.eventId.symm.trans hid)
      exact ⟨haddr, hwritten.eventPubkey.trans (congrArg _ hpubkey),
        hwritten.eventKind.trans (kind_congr htemplate),
        hwritten.eventDeduplication.trans (addressOf_congr hpubkey htemplate)⟩
  exact ⟨change.rowCount, congrArg Prod.fst hchange⟩

/-- A row without an address stays, except that it may be marked as deleted. -/
theorem StoreInv.exists_later (h : StoreInv R messages c) {row : EventRow} (hrow : row ∈ c.1.events)
    (hnone : rowAddress row = none) {c' : Pool Op Res Database Answer ι} [DecidableEq ι]
    (hr : PoolReaches (fun _ => eff flatSchema) c c') :
    ∃ deletedAt, { row with deletedAt } ∈ c'.1.events := by
  obtain ⟨row', hrow', hlater⟩ := (h.of_reaches hr).2 row hrow
  obtain ⟨i, event, remoteAddress, -, -, -, hwritten, -⟩ := h.origin row hrow
  have hdedup : row.eventDeduplication = none := by
    rw [hwritten.eventDeduplication]
    simpa [eventAddress, hnone] using hwritten.rowAddress_eq
  obtain ⟨deletedAt, rfl⟩ := hlater.eq_of_no_address hdedup
  exact ⟨deletedAt, hrow'⟩

/-- Ephemeral events have a strategy of their own. -/
theorem eventStrategyFactory_of_ephemeral (h : event.isEphemeralEvent = true) :
    eventStrategyFactory event = .ephemeral := by
  have hreplaceable : event.isReplaceableEvent = false := by
    by_contra hrep
    simp only [Event.isEphemeralEvent, Event.isReplaceableEvent, Bool.not_eq_false,
      Bool.or_eq_true, Bool.and_eq_true, decide_eq_true_eq] at h hrep
    simp only [EventKinds.setMetadata, EventKinds.contactList, EventKinds.channelMetadata,
      EventKinds.replaceableFirst, EventKinds.replaceableLast, EventKinds.ephemeralFirst,
      EventKinds.ephemeralLast] at h hrep
    omega
  rw [eventStrategyFactory, hreplaceable, h]
  rfl

theorem StoreInv.not_ephemeral (h : StoreInv R messages c) {row : EventRow} (hrow : row ∈ c.1.events) :
    (toNostrEvent row).isEphemeralEvent = false := by
  obtain ⟨i, event, remoteAddress, -, -, hstrategy, hwritten, -⟩ := h.origin row hrow
  have hkind : (toNostrEvent row).isEphemeralEvent = event.isEphemeralEvent := by
    simp only [Event.isEphemeralEvent, toNostrEvent, hwritten.eventKind]
  rw [hkind]
  by_contra hne
  exact hstrategy (eventStrategyFactory_of_ephemeral (by simpa using hne))

end

variable [DecidableEq ι]

/-- **The contract of the store** holds at all times, under any traffic of
clients whose ids are hashes without collisions. -/
theorem storeContract_of_reaches (hclients : ∀ i, (messages i).IsClient)
    (hids : CollisionFree R messages)
    (hr : PoolReaches (fun _ => eff flatSchema) (begun R messages ⟨[], []⟩) c) :
    StoreContract R messages c := by
  have h := ((storeInv_begun hclients).of_reaches hr).1
  constructor
  case oneRow => exact h.length_atAddress_le
  case present => exact fun A ⟨time, htime⟩ => h.exists_atAddress htime
  case newest => exact fun row hrow A hA => h.isGreatest hrow hA
  case routed =>
    intro i event remoteAddress o k hi hevent hop
    exact h.check_or_upsert hi (by rwa [eventAddress, Option.isSome_map] at hevent) hop
  case counts =>
    intro i event remoteAddress incoming k A hi hevent hop fault now count hcount
    obtain ⟨-, -, rfl⟩ := h.upserting hi hop
    exact h.upsert_count hevent hcount
  case accepts =>
    intro i event remoteAddress incoming k hi hop now hfits
    obtain ⟨hvalid, haddr, rfl⟩ := h.upserting hi hop
    exact h.exists_count hids hi hvalid haddr hfits
  case kept => exact fun row hrow hnone c' hr' => h.exists_later hrow hnone hr'
  case noEphemeral => exact fun row hrow => h.not_ephemeral hrow

/-! ### A profile that is refused -/

/-- No check refuses an event, and no statement fails. -/
def faultless (S : Schema) (o : Op) (db : Database) (r : Res o) (db' : Database) : Prop :=
  ∃ now, (r, db') = respond S ⟨none, none⟩ now o db

/-- The times of all valid events of an address whose handlers have ended. -/
def handledTimes (R : Runtime) (messages : ι → Message) (c : Pool Op Res Database Answer ι)
    (A : Address) : Set ℤ :=
  { time | ∃ i event remoteAddress, messages i = .event event remoteAddress ∧ Valid R event ∧
    eventAddress event = some A ∧ (∃ a, c.2 i = .ret a) ∧ event.createdAt = time }

/-- What the libraries answer about some genuine events. -/
def runtimeFor (events : List Event) : Runtime where
  eventHash pubkey template :=
    ((events.find? fun event => event.pubkey = pubkey ∧ event.template = template).map Event.id).getD ""
  verify _ _ _ := true
  safeInteger _ := none

/-- One client publishes one event. -/
def single (event : Event) (_ : Unit) : Message := .event event (some "::1")

/-- A handler runs alone, and nothing fails. -/
def runAlone (i : ι) (c : Pool Op Res Database Answer ι) :
    Pool Op Res Database Answer ι :=
  c.runMember (respond flatSchema ⟨none, none⟩ 0) i

/-- The handler of the event has run. -/
def afterSingle (event : Event) : Pool Op Res Database Answer Unit :=
  runAlone () (begun (runtimeFor [event]) (single event) ⟨[], []⟩)

theorem reaches_runAlone (i : ι) (c : Pool Op Res Database Answer ι) :
    PoolReaches (fun _ => faultless flatSchema) c (runAlone i c) :=
  .runMember (fun _ _ => ⟨0, rfl⟩) c

theorem runAlone_of_ne {i j : ι} (h : i ≠ j) (c : Pool Op Res Database Answer ι) :
    (runAlone j c).2 i = c.2 i :=
  Function.update_of_ne h _ _

theorem answered_runAlone (i : ι) (c : Pool Op Res Database Answer ι) :
    ∃ a, (runAlone i c).2 i = .ret a := by
  simp only [runAlone, Pool.runMember, Function.update_self]
  exact ⟨_, rfl⟩

theorem eff_of_faultless {S : Schema} {o : Op} {db db' : Database} {r : Res o}
    (h : faultless S o db r db') : eff S o db r db' := by
  obtain ⟨now, heq⟩ := h
  have heff := eff_respond S ⟨none, none⟩ now o db
  rwa [← heq] at heff

/-- A profile, a later one, and a note. -/
inductive Published
  | profile
  | later
  | note
  deriving DecidableEq

def Published.event : Published → Event
  | .profile => profileA.event.toEvent
  | .later => laterProfile.event.toEvent
  | .note => shortNote

def publishing (i : Published) : Message := .event i.event (some "::1")

def publishingRuntime : Runtime :=
  runtimeFor [profileA.event.toEvent, laterProfile.event.toEvent, shortNote]

/-- The first profile is checked; before it is stored, the later one and the note
are. -/
def afterPublishing : Pool Op Res Database Answer Published :=
  runAlone .profile (runAlone .note (runAlone .later
    ((begun publishingRuntime publishing ⟨[], []⟩).stepMember
      (respond flatSchema ⟨none, none⟩ 0) .profile)))

theorem reaches_afterPublishing : PoolReaches (fun _ => faultless flatSchema)
    (begun publishingRuntime publishing ⟨[], []⟩) afterPublishing := by
  rw [afterPublishing]
  refine .trans ?_ (reaches_runAlone _ _)
  refine .trans ?_ (reaches_runAlone _ _)
  refine .trans ?_ (reaches_runAlone _ _)
  exact PoolReaches.stepMember (fun _ _ => ⟨0, rfl⟩) _

theorem eventHash_publishing (i : Published) :
    publishingRuntime.eventHash i.event.pubkey i.event.template = i.event.id := by
  cases i <;> decide +kernel

/-- The first profile comes too late. -/
theorem storeContract_publishing : StoreContract publishingRuntime publishing afterPublishing := by
  -- the first bytes of the ids already differ
  have hids : ∀ i j : Published, toBuffer i.event.id = toBuffer j.event.id → i = j := by
    have hprofile : (toBuffer Published.profile.event.id).head? = some 16 := by decide +kernel
    have hlater : (toBuffer Published.later.event.id).head? = some 150 := by decide +kernel
    have hnote : (toBuffer Published.note.event.id).head? = some 169 := by decide +kernel
    intro i j heq
    have hhead := congrArg List.head? heq
    cases i <;> cases j <;> simp [hprofile, hlater, hnote] at hhead ⊢
  have hcollision : CollisionFree publishingRuntime publishing := by
    refine collisionFree_of_injective fun i j heq => hids i j ?_
    rwa [eventHash_publishing, eventHash_publishing] at heq
  exact storeContract_of_reaches (fun _ => trivial) hcollision
    (reaches_afterPublishing.mono fun _ _ _ _ _ => eff_of_faultless)

/-- A profile whose content is one NUL character. -/
def nulProfile : Event where
  id := "7ebdd13d6f2605bff43e26c7ffb74f2251329eedff56b3216ef7be7d7f828793"
  pubkey := "f9308a019258c31049344f85f89d5229b531c845836f99b08601f113bce036f9"
  createdAt := 1700000000
  kind := 0
  tags := []
  content := String.singleton (Char.ofNat 0)
  sig := "3ae687f242f0c7c7a83800ef8142650ea5950d91fe4ea12be748b47bc31a6242" ++
    "f2999a04842f6c9ea9efabc8ac8e4432bb5f9231e99b4512589b460cea5300d2"

/-- The strategy catches the error of the statement. -/
theorem run_nulProfile :
    (handle (runtimeFor [nulProfile]) (single nulProfile ())).run
      (respond flatSchema ⟨none, none⟩ 0) ⟨[], []⟩ =
      (.emitted [.message nulProfile.id false "error: "], ⟨[], []⟩) := by
  decide +kernel

/-- **A value that a column does not take**: the event is handled and refused,
and its address has no row. -/
theorem nulProfile_not_stored :
    ¬ ∀ c, PoolReaches (fun _ => faultless flatSchema)
        (begun (runtimeFor [nulProfile]) (single nulProfile) ⟨[], []⟩) c →
      ∀ A, (handledTimes (runtimeFor [nulProfile]) (single nulProfile) c A).Nonempty →
        ∃ row ∈ c.1.events, rowAddress row = some A ∧
          IsGreatest (handledTimes (runtimeFor [nulProfile]) (single nulProfile) c A)
            row.eventCreatedAt := by
  intro h
  have hvalid : isEventIdValid (runtimeFor [nulProfile]) nulProfile = true := by decide +kernel
  have haddress : eventAddress nulProfile = some (toBuffer nulProfile.pubkey, 0,
      .ofPubkeyKind nulProfile.pubkey 0) := rfl
  have hempty : (afterSingle nulProfile).1 = ⟨[], []⟩ := congrArg Prod.snd run_nulProfile
  obtain ⟨row, hrow, -⟩ := h _ (reaches_runAlone () _) _
    ⟨_, (), nulProfile, _, rfl, ⟨hvalid, rfl⟩, haddress, answered_runAlone () _, rfl⟩
  have hrow' : row ∈ (afterSingle nulProfile).1.events := hrow
  rw [hempty] at hrow'
  cases hrow'

end Traffic

end NostrMesh.Relay
