/-
NostrMesh/Relay/Flooding.lean

Relays that mirror each other: how an event spreads from one to the next.

A static mirror subscribes at the relay of its address, each time from some
second on, and also hands it the events that are announced at home, except those
that came from there.  An event
without an address is inserted once, whichever way it comes, and only announced
if it is; an event with an address may be announced twice, since a mirror
inserts it beside the row of its address.  So the traffic of a published event
ends (`announcements_le`).  An ephemeral event is not stored and always
announced, and goes on for ever between relays that mirror each other
(`announced_forever`).

`budget` is what an event may still cost a relay.  No step raises it, and an
announcement is paid for when its statement succeeds.
-/
import Mathlib.Data.Set.Finite.Lattice
import NostrMesh.Relay.Deletion
import NostrMesh.Relay.Mirroring

namespace NostrMesh.Relay.Traffic.Flooding

open Interleaving Tables
open StaticMirroringWorker (infer_deployed requested)

/-! ### Meshes -/

/-- The relays with their settings, which of them answers at an address, and
which address another one sees.  No mirror subscribes from a later second than
its `since`. -/
structure Mesh (ι : Type*) where
  layout : ι → Layout
  restarts : ι → ℕ
  mirrors : ι → List Mirror
  since : ι → Mirror → ℤ
  relayAt : String → ι
  remoteAddress : ι → Option String

def Mesh.schema {ι : Type*} (M : Mesh ι) (n : ι) : Schema := deployed (M.layout n) (M.restarts n)

/-- A message for a relay: from a client or of the relay itself, or for the
worker of the mirror with the address `source`. -/
structure Delivery (ι : Type*) where
  relay : ι
  source : Option String
  message : Message

/-- A handler that runs, with the rest of its program. -/
structure Running (ι : Type*) where
  delivery : Delivery ι
  rest : Handler Answer

/-- An event that a handler has announced. -/
structure Announcement (ι : Type*) where
  delivery : Delivery ι
  event : Event

structure State (ι : Type*) where
  databases : ι → Database
  inFlight : List (Delivery ι)
  handlers : List (Running ι)
  announced : List (Announcement ι)

/-- A subscription of the mirror covers the event. -/
def Covers (mirror : Mirror) (filters : List SubscriptionFilter) (since : ℤ) (event : Event) : Prop :=
  mirror.filters = some filters ∧
    ((requested since filters).any fun filter => isEventMatchingFilter filter event) = true

/-- An earlier subscription covers more. -/
theorem Covers.of_le {mirror : Mirror} {filters : List SubscriptionFilter} {since since' : ℤ}
    {event : Event} (h : Covers mirror filters since event) (hle : since' ≤ since) :
    Covers mirror filters since' event := by
  refine ⟨h.1, ?_⟩
  obtain ⟨f, hf, hmatch⟩ := List.any_eq_true.mp h.2
  obtain ⟨filter, hfilter, rfl⟩ := List.mem_map.mp hf
  refine List.any_eq_true.mpr ⟨_, List.mem_map_of_mem hfilter, ?_⟩
  simp only [isEventMatchingFilter, Bool.and_eq_true, Option.all_some, decide_eq_true_eq] at hmatch ⊢
  obtain ⟨⟨⟨⟨⟨hids, hkinds⟩, hsince⟩, huntil⟩, hauthors⟩, htags⟩ := hmatch
  exact ⟨⟨⟨⟨⟨hids, hkinds⟩, hle.trans hsince⟩, huntil⟩, hauthors⟩, htags⟩

section

variable {ι : Type*} (M : Mesh ι)

/-- Where an announcement goes to, with the subscriptions as they are then. -/
inductive Target (since : ι → Mirror → ℤ) (n : ι) (source : Option String) (event : Event) :
    Delivery ι → Prop
  /-- The relay sends it to the subscription of a mirror. -/
  | subscription {m : ι} {mirror : Mirror} {filters : List SubscriptionFilter} :
      mirror ∈ M.mirrors m → M.relayAt mirror.address = n →
      Covers mirror filters (since m mirror) event →
      Target since n source event ⟨m, some mirror.address, .mirrored filters event⟩
  /-- A mirror of the relay passes it on, unless it came from there.  With a
  secret the message has a third item, which no relay accepts. -/
  | onMessage {mirror : Mirror} :
      mirror ∈ M.mirrors n → source ≠ some mirror.address → mirror.secret.getD "" = "" →
      Target since n source event
        ⟨M.relayAt mirror.address, none, .event event (M.remoteAddress n)⟩

/-- The event that the message is about. -/
def eventOf : Message → Option Event
  | .event event _ => some event
  | .req _ => none
  | .mirrored _ event => some event
  | .notification event => some event.toEvent

/-- No check refuses the event, and its statement raises no error. -/
def Succeeds (S : Schema) : (o : Op) → Database → Res o → Database → Prop
  | .check _, _, r, _ => r = .passed
  | .create event, db, r, db' => ∃ fault now,
      (r, db') = create S fault now event db ∧ insertRaises fault now event = false
  | .upsert _, _, r, _ => ∃ count, r = .ok count
  | .deleteByPubkeyAndIds _ _, _, r, _ => ∃ count, r = .ok count
  | .findByFilters _, _, _, _ => True

variable [DecidableEq ι] (R : Runtime)

/-- The mesh goes on by itself.  Nothing happens to the events of `C` on their
way: no message about them is lost, refused or left out. -/
inductive Flow (C : Set Event) : State ι → State ι → Prop
  | begin {s : State ι} {before after : List (Delivery ι)} {d : Delivery ι} :
      s.inFlight = before ++ d :: after →
      Flow C s { s with
        inFlight := before ++ after
        handlers := s.handlers ++ [⟨d, handle R d.message⟩] }
  | operate {s : State ι} {before after : List (Running ι)} {d : Delivery ι} {o : Op}
      {k : Res o → Handler Answer} {r : Res o} {db' : Database} :
      s.handlers = before ++ ⟨d, .op o k⟩ :: after →
      eff (M.schema d.relay) o (s.databases d.relay) r db' →
      (∀ event ∈ C, eventOf d.message = some event →
        Succeeds (M.schema d.relay) o (s.databases d.relay) r db') →
      Flow C s { s with
        databases := Function.update s.databases d.relay db'
        handlers := before ++ ⟨d, k r⟩ :: after }
  | answer {s : State ι} {before after : List (Running ι)} {d : Delivery ι} {a : Answer}
      {since : ι → Mirror → ℤ} {sent : List (Delivery ι)} :
      s.handlers = before ++ ⟨d, .ret a⟩ :: after →
      (∀ m mirror, since m mirror ≤ M.since m mirror) →
      (∀ p ∈ sent, ∃ event ∈ a.announced, Target M since d.relay d.source event p) →
      (∀ event ∈ C, event ∈ a.announced → ∀ p, Target M since d.relay d.source event p → p ∈ sent) →
      Flow C s { s with
        handlers := before ++ after
        inFlight := s.inFlight ++ sent
        announced := s.announced ++ a.announced.map fun event => ⟨d, event⟩ }
  | lose {s : State ι} {before after : List (Delivery ι)} {d : Delivery ι} :
      s.inFlight = before ++ d :: after → (∀ event ∈ C, eventOf d.message ≠ some event) →
      Flow C s { s with inFlight := before ++ after }

/-- The mesh and its clients. -/
inductive Step (C : Set Event) : State ι → State ι → Prop
  | flow {s s' : State ι} : Flow M R C s s' → Step C s s'
  /-- A message of a client. -/
  | arrive {s : State ι} (n : ι) {message : Message} : message.IsClient →
      Step C s { s with inFlight := s.inFlight ++ [⟨n, none, message⟩] }
  /-- A notification of the relay itself, which has identified and signed it. -/
  | notify {s : State ι} (n : ι) {event : ReceivedEvent} : Valid R event.toEvent →
      Step C s { s with inFlight := s.inFlight ++ [⟨n, none, .notification event⟩] }
  /-- A mirror that has subscribed gets a stored event. -/
  | stored {s : State ι} {m : ι} {mirror : Mirror} {filters : List SubscriptionFilter}
      {since : ℤ} {row : EventRow} :
      mirror ∈ M.mirrors m → row ∈ (s.databases (M.relayAt mirror.address)).events →
      row.deletedAt = none → since ≤ M.since m mirror → Covers mirror filters since (toNostrEvent row) →
      Step C s { s with
        inFlight := s.inFlight ++ [⟨m, some mirror.address, .mirrored filters (toNostrEvent row)⟩] }

end

/-! ### What an event may still cost a relay -/

section

variable {event : Event} {db db' : Database}

/-- The event has been inserted without an address, and no row of that kind is
ever replaced. -/
def Inserted (event : Event) (db : Database) : Prop :=
  ∃ row ∈ db.events, row.eventId = toBuffer event.id ∧ row.eventDeduplication = none

/-- A row of the address is at least as new. -/
def Outdated (event : Event) (db : Database) : Prop :=
  ∃ row ∈ db.events, SameAddress event row ∧ event.createdAt ≤ row.eventCreatedAt

instance : Decidable (Inserted event db) := inferInstanceAs (Decidable (∃ _ ∈ _, _))

instance (row : EventRow) : Decidable (SameAddress event row) :=
  inferInstanceAs (Decidable (_ ∧ _))

instance : Decidable (Outdated event db) := inferInstanceAs (Decidable (∃ _ ∈ _, _))

/-- One announcement for the insert, and one for the upsert of an event with
an address. -/
def budget (event : Event) (db : Database) : ℕ :=
  (if Inserted event db then 0 else 1) +
    if (addressOf event).isSome ∧ ¬ Outdated event db then 1 else 0

theorem budget_le (event : Event) (db : Database) :
    budget event db ≤ if (addressOf event).isSome then 2 else 1 := by
  rw [budget]
  split_ifs <;> simp_all

theorem Inserted.advances (h : Inserted event db) (hadvances : Advances db.events db'.events) :
    Inserted event db' := by
  obtain ⟨row, hrow, hid, hnone⟩ := h
  obtain ⟨row', hrow', hlater⟩ := hadvances row hrow
  obtain ⟨deletedAt, rfl⟩ := hlater.eq_of_no_address hnone
  exact ⟨_, hrow', hid, hnone⟩

theorem Outdated.advances (h : Outdated event db) (hadvances : Advances db.events db'.events) :
    Outdated event db' := by
  obtain ⟨row, hrow, hsame, hle⟩ := h
  obtain ⟨row', hrow', hlater⟩ := hadvances row hrow
  obtain ⟨hsame', hle'⟩ := hlater.sameAddress hsame
  exact ⟨row', hrow', hsame', hle.trans hle'⟩

/-- No change of the table raises the budget. -/
theorem budget_advances (h : Advances db.events db'.events) : budget event db' ≤ budget event db := by
  have hinserted : Inserted event db → Inserted event db' := fun hi => hi.advances h
  have houtdated : Outdated event db → Outdated event db' := fun ho => ho.advances h
  simp only [budget]
  split_ifs <;> simp_all

/-- An insert is paid for once. -/
theorem budget_inserted (h : Advances db.events db'.events) (hno : ¬ Inserted event db)
    (hyes : Inserted event db') : budget event db' + 1 ≤ budget event db := by
  have houtdated : Outdated event db → Outdated event db' := fun ho => ho.advances h
  simp only [budget, if_neg hno, if_pos hyes]
  split_ifs <;> simp_all

/-- An upsert is paid for once. -/
theorem budget_outdated (h : Advances db.events db'.events) (haddr : (addressOf event).isSome)
    (hno : ¬ Outdated event db) (hyes : Outdated event db') :
    budget event db' + 1 ≤ budget event db := by
  have hinserted : Inserted event db → Inserted event db' := fun hi => hi.advances h
  simp only [budget, hno, hyes, haddr, not_true_eq_false, not_false_eq_true, and_false, and_true,
    if_true, if_false]
  split_ifs <;> simp_all

end

/-! ### What a handler may announce -/

/-- The announcements of the event that are due as soon as the handler
answers. -/
def owed (event : Event) : Handler Answer → ℕ
  | .ret a => a.announced.count event
  | .op _ _ => 0

/-- The rest of a handler, of any message. -/
inductive Shape (R : Runtime) : Message → Handler Answer → Prop
  | client {message p} : Rest R message p → Shape R message p
  | checking {filters event k} :
      (∀ r, Shape R (.mirrored filters event) (k r)) → (∀ r e, owed e (k r) = 0) →
      Shape R (.mirrored filters event) (.op (.check event) k)
  | inserting {filters event k} : Valid R event →
      (∀ count, k count = .ret (.emitted (if count = 0 then [] else [.broadcast event]))) →
      Shape R (.mirrored filters event) (.op (.create ((received R event none).incoming none)) k)
  | notifying {event k} :
      (∀ count, k count = .ret (.emitted [.broadcast event.toEvent])) →
      Shape R (.notification event) (.op (.create (event.incoming none)) k)
  | answered {message a} : Shape R message (.ret a)

theorem shape_handle (R : Runtime) (message : Message) : Shape R message (handle R message) := by
  rcases message with ⟨event, remoteAddress⟩ | filters | ⟨filters, event⟩ | event
  · have hclient : (Message.event event remoteAddress).IsClient := trivial
    exact .client (rest_handle hclient)
  · have hclient : (Message.req filters).IsClient := trivial
    exact .client (rest_handle hclient)
  · simp only [handle, mirror]
    split
    · exact .answered
    · split
      · exact .answered
      · next hvalid =>
        simp only [Bool.or_eq_true, Bool.not_eq_true', not_or, Bool.not_eq_false] at hvalid
        refine .checking (fun r => ?_) fun r e => ?_
        · rcases r with - | reason | -
          · exact .inserting hvalid fun count => rfl
          · exact .answered
          · exact .answered
        · rcases r with - | reason | -
          · rfl
          · rfl
          · rfl
  · exact .notifying fun count => rfl

section

variable {R : Runtime} {e event : Event}

theorem owed_refused (message : String) :
    owed e (.ret (.emitted [.message event.id false message])) = 0 := rfl

/-- An event is announced if a row was written. -/
theorem owed_counted {a : Answer} {count : ℕ}
    (h : a.announced = if count = 0 then [] else [event]) :
    owed e (.ret a) = if count ≠ 0 ∧ event = e then 1 else 0 := by
  rw [owed, h]
  split_ifs with hcount heq heq
  · exact absurd hcount heq.1
  · rfl
  · rw [heq.2, List.count_singleton_self]
  · exact List.count_singleton.trans (if_neg fun h => heq ⟨hcount, of_decide_eq_true h⟩)

theorem owed_commandResult (count : ℕ) : owed e (.ret (.emitted (commandResult event count))) =
    if count ≠ 0 ∧ event = e then 1 else 0 := by
  refine owed_counted ?_
  rw [commandResult]
  split
  · rfl
  · rfl

theorem owed_inserted (count : ℕ) :
    owed e (.ret (.emitted (if count = 0 then [] else [.broadcast event]))) =
      if count ≠ 0 ∧ event = e then 1 else 0 := by
  refine owed_counted ?_
  split
  · rfl
  · rfl

/-- A handler that has not asked the database owes nothing. -/
theorem owed_handle (message : Message) : owed e (handle R message) = 0 := by
  rcases message with ⟨event, remoteAddress⟩ | filters | ⟨filters, event⟩ | event
  · simp only [handle, handleEventMessage]
    split
    · rfl
    · split
      · rfl
      · rfl
  · rfl
  · simp only [handle, mirror]
    split
    · rfl
    · split
      · rfl
      · rfl
  · rfl

end

/-! ### One operation -/

/-- The message is a notification, which is announced whether it is inserted
or not. -/
def isNotification : Message → Bool
  | .event _ _ => false
  | .req _ => false
  | .mirrored _ _ => false
  | .notification _ => true

section

variable {R : Runtime} {layout : Layout} {restarts : ℕ} {db db' : Database} {fault : Option DbError}
  {now : ℕ} {incoming : IncomingEvent}

/-- An insert that counts is one of an id that was not there. -/
theorem create_result {count : ℕ}
    (h : (count, db') = create (deployed layout restarts) fault now incoming db)
    (hunique : Unique (deployed layout restarts).enforced db.events) :
    Unique (deployed layout restarts).enforced db'.events ∧ Advances db.events db'.events ∧
      (count = 0 ∨ toBuffer incoming.id ∉ db.ids ∧
        insertRow now incoming ∈ db'.events) := by
  rcases create_cases (deployed layout restarts) fault now incoming db with hsame | ⟨hinsert, hno⟩
  · obtain ⟨rfl, rfl⟩ := Prod.mk.inj (h.trans hsame)
    exact ⟨hunique, .refl _, Or.inl rfl⟩
  · obtain ⟨rfl, rfl⟩ := Prod.mk.inj (h.trans hinsert)
    refine ⟨hunique.insert hno, .insert _ _, Or.inr ⟨fun hknown => ?_, ?_⟩⟩
    · obtain ⟨⟨ix, hix, hcol, hp⟩, -⟩ := idIndexed_deployed layout restarts
      obtain ⟨r, hr, hid⟩ := List.mem_map.mp hknown
      exact hno _ (List.mem_map_of_mem hix) r hr ((clash_eventId_iff hcol hp _ _).mpr hid)
    · exact List.mem_append_right _ (List.mem_singleton_self _)

/-- An insert pays for the announcement of its event. -/
theorem budget_create {count : ℕ} {e : Event}
    (h : (count, db') = create (deployed layout restarts) fault now incoming db)
    (hunique : Unique (deployed layout restarts).enforced db.events) :
    (if count ≠ 0 ∧ incoming.toEvent = e then 1 else 0) + budget e db' ≤ budget e db := by
  obtain ⟨-, hadvances, hzero | ⟨hnew, hmem⟩⟩ := create_result h hunique
  · simpa [hzero] using budget_advances hadvances
  · -- the row is new, so its announcement is the one that the budget has
    split_ifs with he
    · obtain ⟨-, rfl⟩ := he
      rw [add_comm]
      refine budget_inserted hadvances ?_ ⟨_, hmem, rfl, rfl⟩
      rintro ⟨row, hrow, hid, -⟩
      exact hnew (List.mem_map.mpr ⟨row, hrow, hid⟩)
    · rw [zero_add]
      exact budget_advances hadvances

/-- Without an index to refer to, an upsert raises an error. -/
theorem upsert_error {S : Schema} (hnone : S.infer addressColumns replaceableKinds = none) :
    ∃ e, upsert S fault now incoming db = (.error e, db) := by
  simp only [upsert, upsertStatement, guarded, hnone]
  rcases fault <|> (upsertRow now incoming).columnError with - | e
  · exact ⟨_, rfl⟩
  · exact ⟨_, rfl⟩

/-- An upsert that counts makes a newer row of the address. -/
theorem upsert_result {event : ReceivedEvent} {r : Except DbError ℕ}
    (haddr : (addressOf event.toEvent).isSome)
    (h : (r, db') = upsert (deployed layout restarts) fault now
      (event.incoming (attached event.toEvent)) db)
    (hunique : Unique (deployed layout restarts).enforced db.events) :
    Unique (deployed layout restarts).enforced db'.events ∧ Advances db.events db'.events ∧
      ((∃ e, r = .error e) ∨ r = .ok 0 ∨
        ∃ count, r = .ok count ∧ ¬ Outdated event.toEvent db ∧ Outdated event.toEvent db') := by
  rcases infer_deployed layout restarts with hnone | hflat
  · -- on the partitioned table there is no such index
    obtain ⟨e, he⟩ := @upsert_error db fault now (event.incoming (attached event.toEvent)) _ hnone
    obtain ⟨rfl, rfl⟩ := Prod.mk.inj (h.trans he)
    exact ⟨hunique, .refl _, Or.inl ⟨e, rfl⟩⟩
  · rw [hflat] at h hunique ⊢
    rcases upsert_flat_change event fault now db haddr with ⟨e, he⟩ | ⟨c, hc, hchange, hkeeps⟩
    · obtain ⟨rfl, rfl⟩ := Prod.mk.inj (h.trans he)
      exact ⟨hunique, .refl _, Or.inl ⟨e, rfl⟩⟩
    · obtain ⟨rfl, rfl⟩ := Prod.mk.inj (h.trans hc)
      have hyes : Outdated event.toEvent (db.change c) := hchange.exists_row haddr
      refine ⟨hkeeps hunique, hchange.advances, Or.inr ?_⟩
      cases hchange with
      | inserted new hrow hno =>
          refine Or.inr ⟨_, rfl, ?_, hyes⟩
          rintro ⟨row, hrow, hsame, -⟩
          exact hno row hrow hsame
      | replaced old new hold hsame hlt hrow =>
          refine Or.inr ⟨_, rfl, ?_, hyes⟩
          rintro ⟨row, hrow, hsame', hle⟩
          -- the index allows one row of the address
          rw [eq_of_sameAddress hunique hrow hold hsame' hsame] at hle
          exact absurd hlt (not_lt.mpr hle)
      | kept old hold hsame hle => exact Or.inl rfl

end

/-- What an operation keeps, and what it may be followed by: an announcement
is paid for when its statement succeeds. -/
structure Paid (R : Runtime) (S : Schema) (message : Message) (db : Database) (p : Handler Answer)
    (db' : Database) : Prop where
  shape : Shape R message p
  unique : Unique S.enforced db'.events
  advances : Advances db.events db'.events
  owed_le : isNotification message = false → ∀ e, eventStrategyFactory e ≠ .ephemeral →
    owed e p + budget e db' ≤ budget e db

section

variable {R : Runtime} {layout : Layout} {restarts : ℕ} {message : Message} {db db' : Database}

/-- An operation that changes no row. -/
theorem paid_same {p : Handler Answer} (hunique : Unique (deployed layout restarts).enforced db.events)
    (hshape : Shape R message p)
    (howed : ∀ e, eventStrategyFactory e ≠ .ephemeral → owed e p = 0) :
    Paid R (deployed layout restarts) message db p db :=
  ⟨hshape, hunique, .refl _, fun _ e he => by rw [howed e he, zero_add]⟩

/-- A handler that has only passed its checks owes at most an ephemeral
event. -/
theorem owed_of_rest {event : Event} {remoteAddress : Option String} {p : Handler Answer}
    (h : Rest R (.event event remoteAddress) p) {e : Event}
    (he : eventStrategyFactory e ≠ .ephemeral) : owed e p = 0 := by
  cases h with
  | refused message => rfl
  | relayed hvalid hstrategy =>
      refine List.count_eq_zero_of_not_mem fun hmem => he ?_
      rwa [List.mem_singleton.mp hmem]
  | ended => rfl
  | checking hk => rfl
  | deleting hvalid hdelete hk => rfl
  | creating hvalid haddr hstrategy hk => rfl
  | upserting hvalid haddr hok herror => rfl

/-- An insert, and the announcement that it pays for. -/
theorem paid_create {fault : Option DbError} {now count : ℕ} {incoming : IncomingEvent}
    {p : Handler Answer}
    (heq : (count, db') = create (deployed layout restarts) fault now incoming db)
    (hunique : Unique (deployed layout restarts).enforced db.events) (hshape : Shape R message p)
    (howed : ∀ e, owed e p = if count ≠ 0 ∧ incoming.toEvent = e then 1 else 0) :
    Paid R (deployed layout restarts) message db p db' := by
  obtain ⟨hkeeps, hadvances, -⟩ := create_result heq hunique
  refine ⟨hshape, hkeeps, hadvances, fun _ e _ => ?_⟩
  rw [howed e]
  exact budget_create heq hunique

/-- **One operation** of a handler. -/
theorem Shape.operate {o : Op} {k : Res o → Handler Answer} {r : Res o}
    (h : Shape R message (.op o k)) (hunique : Unique (deployed layout restarts).enforced db.events)
    (he : eff (deployed layout restarts) o db r db') :
    Paid R (deployed layout restarts) message db (k r) db' := by
  cases h with
  | client hrest =>
      cases hrest with
      | checking hk =>
          obtain rfl : db' = db := he
          exact paid_same hunique (.client (hk r)) fun e => owed_of_rest (hk r)
      | deleting hvalid hdelete hk =>
          obtain ⟨fault, now, heq⟩ := he
          obtain rfl : db' = _ := congrArg Prod.snd heq
          rcases deleteByPubkeyAndIds_cases fault now _ _ db with hsame | hmarked
          · rw [hsame]
            exact paid_same hunique (.client (hk r)) fun e => owed_of_rest (hk r)
          · have hadvances := hmarked ▸ advances_markRow db.events now _ _
            refine ⟨.client (hk r), hmarked ▸ unique_markRow hunique _ _ _, hadvances, fun _ e he => ?_⟩
            rw [owed_of_rest (hk r) he, zero_add]
            exact budget_advances hadvances
      | creating hvalid haddr hstrategy hk =>
          obtain ⟨fault, now, heq⟩ := he
          rw [hk r]
          exact paid_create heq hunique .answered fun e => owed_commandResult r
      | @upserting event remoteAddress k hvalid haddr hok herror =>
          obtain ⟨fault, now, heq⟩ := he
          obtain ⟨hkeeps, hadvances, hresult⟩ :=
            @upsert_result layout restarts db db' fault now (received R event remoteAddress) _ haddr
              heq hunique
          rcases hresult with ⟨e, rfl⟩ | rfl | ⟨count, rfl, hno, hyes⟩
          · obtain ⟨text, hmessage⟩ := herror e
            rw [hmessage]
            refine ⟨.answered, hkeeps, hadvances, fun _ e _ => ?_⟩
            rw [owed_refused, zero_add]
            exact budget_advances hadvances
          · -- the stored row is at least as new
            rw [hok 0]
            refine ⟨.answered, hkeeps, hadvances, fun _ e _ => ?_⟩
            rw [owed_commandResult, if_neg fun h => h.1 rfl, zero_add]
            exact budget_advances hadvances
          · rw [hok count]
            refine ⟨.answered, hkeeps, hadvances, fun _ e _ => ?_⟩
            rw [owed_commandResult]
            split_ifs with heq
            · obtain ⟨-, rfl⟩ := heq
              rw [add_comm]
              exact budget_outdated hadvances haddr hno hyes
            · rw [zero_add]
              exact budget_advances hadvances
      | finding herror hok =>
          obtain ⟨rfl, -⟩ := he
          rcases r with e | rows
          · rw [herror e]
            exact paid_same hunique .answered fun _ _ => rfl
          · rw [hok rows]
            exact paid_same hunique .answered fun _ _ => rfl
  | checking hk howed =>
      obtain rfl : db' = db := he
      exact paid_same hunique (hk r) fun e _ => howed r e
  | inserting hvalid hk =>
      obtain ⟨fault, now, heq⟩ := he
      rw [hk r]
      exact paid_create heq hunique .answered fun e => owed_inserted r
  | notifying hk =>
      obtain ⟨fault, now, heq⟩ := he
      obtain ⟨hkeeps, hadvances, -⟩ := create_result heq hunique
      rw [hk r]
      exact ⟨.answered, hkeeps, hadvances, fun hno => Bool.noConfusion hno⟩

end

/-! ### At most one announcement -/

section

variable {ι : Type*} [DecidableEq ι] {M : Mesh ι} {R : Runtime} {C : Set Event} {n : ι} {e : Event}
  {s s' : State ι}

/-- The relay `n` has announced the event because of a message about it. -/
def Announcement.isOf (n : ι) (e : Event) (a : Announcement ι) : Bool :=
  decide (a.delivery.relay = n) && !isNotification a.delivery.message && decide (a.event = e)

/-- How often the relay has announced the event. -/
def State.announcements (n : ι) (e : Event) (s : State ι) : ℕ := s.announced.countP (·.isOf n e)

/-- What the handler still owes at the relay. -/
def Running.due (n : ι) (e : Event) (h : Running ι) : ℕ :=
  if h.delivery.relay = n ∧ isNotification h.delivery.message = false then owed e h.rest else 0

/-- Announced, due or still possible. -/
def State.spent (n : ι) (e : Event) (s : State ι) : ℕ :=
  s.announcements n e + (s.handlers.map (·.due n e)).sum + budget e (s.databases n)

structure Bounded (M : Mesh ι) (R : Runtime) (s : State ι) : Prop where
  shape : ∀ h ∈ s.handlers, Shape R h.delivery.message h.rest
  unique : ∀ m, Unique (M.schema m).enforced (s.databases m).events

/-- Nothing is on its way, and nothing has been announced. -/
def State.Idle (s : State ι) : Prop := s.inFlight = [] ∧ s.handlers = [] ∧ s.announced = []

theorem countP_announced (d : Delivery ι) (a : Answer) :
    (a.announced.map fun event => (⟨d, event⟩ : Announcement ι)).countP (·.isOf n e) =
      Running.due n e ⟨d, .ret a⟩ := by
  rw [Running.due, List.countP_map]
  split_ifs with h
  · obtain ⟨hrelay, hmessage⟩ := h
    rw [owed, List.count]
    refine List.countP_congr fun event _ => ?_
    have hrelay' : d.relay = n := hrelay
    have hmessage' : isNotification d.message = false := hmessage
    simp [Announcement.isOf, hrelay', hmessage']
  · refine List.countP_eq_zero.mpr fun event _ hof => h ?_
    simp only [Function.comp_apply, Announcement.isOf, Bool.and_eq_true, decide_eq_true_eq,
      Bool.not_eq_true'] at hof
    exact hof.1

/-- What a handler does to its own relay, and what stays as it is at the
others. -/
theorem due_add_budget {d : Delivery ι} {p : Handler Answer} {db' : Database}
    (h : Paid R (M.schema d.relay) d.message (s.databases d.relay) p db')
    (he : eventStrategyFactory e ≠ .ephemeral) :
    Running.due n e ⟨d, p⟩ + budget e (Function.update s.databases d.relay db' n) ≤
      budget e (s.databases n) := by
  by_cases hn : d.relay = n
  · subst hn
    rw [Function.update_self, Running.due]
    split_ifs with hdue
    · exact h.owed_le hdue.2 e he
    · rw [zero_add]
      exact budget_advances h.advances
  · rw [Function.update_of_ne (Ne.symm hn), Running.due, if_neg fun hdue => hn hdue.1, zero_add]

/-- **One step** of the mesh spends nothing that was not there. -/
theorem Bounded.flow (h : Bounded M R s) (hflow : Flow M R C s s') :
    Bounded M R s' ∧
      (eventStrategyFactory e ≠ .ephemeral → s'.spent n e ≤ s.spent n e) := by
  cases hflow with
  | @begin before after d hs =>
      refine ⟨⟨fun x hx => ?_, h.unique⟩, fun _ => le_of_eq ?_⟩
      · rcases List.mem_append.mp hx with hold | hnew
        · exact h.shape x hold
        · rw [List.mem_singleton.mp hnew]
          exact shape_handle R d.message
      · simp [State.spent, State.announcements, Running.due, owed_handle]
  | @operate before after d o k r db' hs he hsucceeds =>
      have hmem : (⟨d, .op o k⟩ : Running ι) ∈ s.handlers := hs ▸ List.mem_append_cons_self
      have hpaid := (h.shape _ hmem).operate (h.unique d.relay) he
      refine ⟨⟨fun x hx => ?_, fun m => ?_⟩, fun heph => ?_⟩
      · rcases List.mem_append.mp hx with hbefore | hx
        · exact h.shape x (hs ▸ List.mem_append_left _ hbefore)
        · rcases List.mem_cons.mp hx with rfl | hafter
          · exact hpaid.shape
          · exact h.shape x (hs ▸ List.mem_append_right _ (List.mem_cons_of_mem _ hafter))
      · show Unique (M.schema m).enforced (Function.update s.databases d.relay db' m).events
        by_cases hm : m = d.relay
        · subst hm
          rw [Function.update_self]
          exact hpaid.unique
        · rw [Function.update_of_ne hm]
          exact h.unique m
      · -- what the operation owes, the table has lost
        have hpay := @due_add_budget ι _ M R n e s d _ _ hpaid heph
        simp only [State.spent, State.announcements, hs, List.map_append, List.map_cons,
          List.sum_append, List.sum_cons]
        have hop : Running.due n e ⟨d, .op o k⟩ = 0 := by simp [Running.due, owed]
        omega
  | @answer before after d a since sent hs hsent hall =>
      refine ⟨⟨fun x hx => h.shape x ?_, h.unique⟩, fun _ => le_of_eq ?_⟩
      · rw [hs]
        exact (List.mem_append.mp hx).elim (List.mem_append_left _) fun hafter =>
          List.mem_append_right _ (List.mem_cons_of_mem _ hafter)
      · simp only [State.spent, State.announcements, hs, List.map_append, List.map_cons,
          List.sum_append, List.sum_cons, List.countP_append, countP_announced]
        omega
  | @lose before after d hs hno => exact ⟨⟨h.shape, h.unique⟩, fun _ => le_rfl⟩

theorem Bounded.step (h : Bounded M R s) (hstep : Step M R C s s') :
    Bounded M R s' ∧
      (eventStrategyFactory e ≠ .ephemeral → s'.spent n e ≤ s.spent n e) := by
  cases hstep with
  | flow hflow => exact h.flow hflow
  | arrive n hclient => exact ⟨⟨h.shape, h.unique⟩, fun _ => le_rfl⟩
  | notify n hvalid => exact ⟨⟨h.shape, h.unique⟩, fun _ => le_rfl⟩
  | stored hmirror hrow hkept hsince hcovers => exact ⟨⟨h.shape, h.unique⟩, fun _ => le_rfl⟩

theorem Bounded.of_reaches (h : Bounded M R s) (hr : Relation.ReflTransGen (Step M R C) s s') :
    Bounded M R s' ∧
      (eventStrategyFactory e ≠ .ephemeral → s'.spent n e ≤ s.spent n e) := by
  induction hr with
  | refl => exact ⟨h, fun _ => le_rfl⟩
  | tail _ hstep ih =>
      obtain ⟨hbounded, hspent⟩ := ih
      obtain ⟨hbounded', hspent'⟩ := hbounded.step hstep
      exact ⟨hbounded', fun he => (hspent' he).trans (hspent he)⟩

/-- **A relay announces an event once**, and an event with an address at most
twice, whichever ways it takes through the mesh and however often it comes. -/
theorem announcements_le (hidle : s.Idle)
    (hunique : ∀ m, Unique (M.schema m).enforced (s.databases m).events)
    (hr : Relation.ReflTransGen (Step M R C) s s') (n : ι) (e : Event)
    (he : eventStrategyFactory e ≠ .ephemeral) :
    s'.announcements n e ≤ if (addressOf e).isSome then 2 else 1 := by
  obtain ⟨-, hhandlers, hannounced⟩ := hidle
  have hbounded : Bounded M R s :=
    ⟨fun x hx => absurd (hhandlers ▸ hx) List.not_mem_nil, hunique⟩
  obtain ⟨-, hspent⟩ := hbounded.of_reaches hr
  have hstart : s.spent n e = budget e (s.databases n) := by
    simp [State.spent, State.announcements, hannounced, hhandlers]
  calc s'.announcements n e ≤ s'.spent n e := by rw [State.spent, add_assoc]; exact Nat.le_add_right _ _
    _ ≤ s.spent n e := hspent he
    _ = budget e (s.databases n) := hstart
    _ ≤ if (addressOf e).isSome then 2 else 1 := budget_le e _

/-! ### Ephemeral events -/

/-- A mirror of `x` passes on what `x` announces to `y`. -/
def Passes (M : Mesh ι) (x y : ι) : Prop :=
  ∃ mirror ∈ M.mirrors x, mirror.secret.getD "" = "" ∧ M.relayAt mirror.address = y

/-- The message publishes the event at one of the two relays. -/
def Publishes (x y : ι) (e : Event) (d : Delivery ι) : Prop :=
  (d.relay = x ∨ d.relay = y) ∧ d.source = none ∧ ∃ remoteAddress, d.message = .event e remoteAddress

/-- The event is on its way to one of the two relays, or its handler there
has not ended. -/
def Alive (R : Runtime) (x y : ι) (e : Event) (s : State ι) : Prop :=
  (∃ d ∈ s.inFlight, Publishes x y e d) ∨
    ∃ h ∈ s.handlers, Publishes x y e h.delivery ∧ (h.rest = handle R h.delivery.message ∨
      h.rest = .ret (.emitted [.message e.id true "", .broadcast e]))

/-- The handler of an ephemeral event checks it, and announces it. -/
theorem handle_ephemeral {remoteAddress : Option String} (hvalid : Valid R e)
    (heph : eventStrategyFactory e = .ephemeral) : ∃ k : Checked → Handler Answer,
      handle R (.event e remoteAddress) = .op (.check e) k ∧
        k .passed = .ret (.emitted [.message e.id true "", .broadcast e]) := by
  obtain ⟨k, hk, hpassed⟩ := handle_of_valid remoteAddress hvalid
  refine ⟨k, hk, hpassed.trans ?_⟩
  have hevent : (received R e remoteAddress).toEvent = e := rfl
  simp only [execute, hevent, heph, executeEphemeral]
  rfl

theorem mem_middle {α : Type*} {a b : α} {before after : List α} :
    a ∈ before ++ b :: after ↔ a = b ∨ a ∈ before ++ after := by
  rw [List.mem_append, List.mem_cons, List.mem_append]
  exact or_left_comm

section

variable {x y : ι}

omit [DecidableEq ι] in
/-- Each of the two relays passes on what it announces of its clients. -/
theorem exists_target (hxy : Passes M x y) (hyx : Passes M y x) {d : Delivery ι}
    (hd : Publishes x y e d) (since : ι → Mirror → ℤ) :
    ∃ p, Target M since d.relay d.source e p ∧ Publishes x y e p := by
  obtain ⟨hrelay | hrelay, hsource, -⟩ := hd
  · obtain ⟨mirror, hmirror, hsecret, haddress⟩ := hxy
    refine ⟨_, .onMessage (hrelay ▸ hmirror) ?_ hsecret, Or.inr haddress, rfl, _, rfl⟩
    rw [hsource]
    exact (Option.some_ne_none _).symm
  · obtain ⟨mirror, hmirror, hsecret, haddress⟩ := hyx
    refine ⟨_, .onMessage (hrelay ▸ hmirror) ?_ hsecret, Or.inl haddress, rfl, _, rfl⟩
    rw [hsource]
    exact (Option.some_ne_none _).symm

variable (hxy : Passes M x y) (hyx : Passes M y x) (hvalid : Valid R e)
  (heph : eventStrategyFactory e = .ephemeral) (hC : e ∈ C)

include hxy hyx hvalid heph hC

/-- Nothing ends the way of the event. -/
theorem Alive.flow (h : Alive R x y e s) (hflow : Flow M R C s s') : Alive R x y e s' := by
  cases hflow with
  | @begin before after d hs =>
      rcases h with ⟨d', hd', hpub⟩ | ⟨r, hr, hpub, hrest⟩
      · rcases mem_middle.mp (hs ▸ hd') with rfl | hmem
        · exact Or.inr ⟨_, List.mem_append_right _ (List.mem_singleton_self _), hpub, Or.inl rfl⟩
        · exact Or.inl ⟨d', hmem, hpub⟩
      · exact Or.inr ⟨r, List.mem_append_left _ hr, hpub, hrest⟩
  | @operate before after d o k r db' hs he hsucceeds =>
      rcases h with ⟨d', hd', hpub⟩ | ⟨h, hh, hpub, hrest⟩
      · exact Or.inl ⟨d', hd', hpub⟩
      · rcases mem_middle.mp (hs ▸ hh) with rfl | hmem
        · -- the handler of the event passes its checks
          obtain ⟨remoteAddress, hmessage⟩ := hpub.2.2
          obtain ⟨k', hk', hpassed⟩ := @handle_ephemeral R e remoteAddress hvalid heph
          dsimp only at hrest hmessage
          rw [hmessage, hk'] at hrest
          rcases hrest with hop | hret
          · cases hop
            have hr : r = .passed := hsucceeds e hC (by rw [hmessage]; rfl)
            exact Or.inr ⟨_, mem_middle.mpr (Or.inl rfl), hpub, Or.inr (hr ▸ hpassed)⟩
          · cases hret
        · exact Or.inr ⟨h, mem_middle.mpr (Or.inr hmem), hpub, hrest⟩
  | @answer before after d a since sent hs hsince hsent hall =>
      rcases h with ⟨d', hd', hpub⟩ | ⟨h, hh, hpub, hrest⟩
      · exact Or.inl ⟨d', List.mem_append_left _ hd', hpub⟩
      · rcases mem_middle.mp (hs ▸ hh) with rfl | hmem
        · obtain ⟨p, htarget, hp⟩ := exists_target hxy hyx hpub since
          obtain ⟨-, -, remoteAddress, hmessage⟩ := hpub
          obtain ⟨k', hk', -⟩ := @handle_ephemeral R e remoteAddress hvalid heph
          dsimp only at hrest hmessage
          rw [hmessage, hk'] at hrest
          rcases hrest with hop | hret
          · cases hop
          · cases hret
            refine Or.inl ⟨p, List.mem_append_right _ (hall e hC ?_ p htarget), hp⟩
            exact List.mem_singleton_self _
        · exact Or.inr ⟨h, hmem, hpub, hrest⟩
  | @lose before after d hs hno =>
      rcases h with ⟨d', hd', hpub⟩ | ⟨h, hh, hpub, hrest⟩
      · rcases mem_middle.mp (hs ▸ hd') with rfl | hmem
        · obtain ⟨-, -, remoteAddress, hmessage⟩ := hpub
          exact absurd (by rw [hmessage]; rfl) (hno e hC)
        · exact Or.inl ⟨d', hmem, hpub⟩
      · exact Or.inr ⟨h, hh, hpub, hrest⟩

theorem Alive.of_reaches (h : Alive R x y e s) (hr : Relation.ReflTransGen (Step M R C) s s') :
    Alive R x y e s' := by
  induction hr with
  | refl => exact h
  | tail _ hstep ih =>
      cases hstep with
      | flow hflow => exact ih.flow hxy hyx hvalid heph hC hflow
      | arrive n hclient => exact ih.imp_left fun ⟨d, hd, hpub⟩ => ⟨d, List.mem_append_left _ hd, hpub⟩
      | notify n hnotified =>
          exact ih.imp_left fun ⟨d, hd, hpub⟩ => ⟨d, List.mem_append_left _ hd, hpub⟩
      | stored hmirror hrow hkept hsince hcovers =>
          exact ih.imp_left fun ⟨d, hd, hpub⟩ => ⟨d, List.mem_append_left _ hd, hpub⟩

end

omit [DecidableEq ι] in
/-- The deliveries of an answer fit in a list. -/
theorem exists_sent [Finite ι] (M : Mesh ι) (n : ι) (source : Option String) (a : Answer) :
    ∃ sent : List (Delivery ι), ∀ p, p ∈ sent ↔
      ∃ event ∈ a.announced, Target M M.since n source event p := by
  have hfinite : ∀ event, {p | Target M M.since n source event p}.Finite := by
    intro event
    -- the mesh is finite, and each relay has finitely many mirrors
    have hsubscriptions : (⋃ m, (fun mirror : Mirror => (⟨m, some mirror.address,
        .mirrored (mirror.filters.getD []) event⟩ : Delivery ι)) '' {mirror | mirror ∈ M.mirrors m}).Finite :=
      Set.finite_iUnion fun m => (List.finite_toSet (M.mirrors m)).image _
    have hpassed : ((fun mirror : Mirror => (⟨M.relayAt mirror.address, none,
        .event event (M.remoteAddress n)⟩ : Delivery ι)) '' {mirror | mirror ∈ M.mirrors n}).Finite :=
      (List.finite_toSet (M.mirrors n)).image _
    refine (hsubscriptions.union hpassed).subset fun p hp => ?_
    cases hp with
    | @subscription m mirror filters hmirror haddress hcovers =>
        refine Or.inl (Set.mem_iUnion.mpr ⟨m, mirror, hmirror, ?_⟩)
        simp only [hcovers.1, Option.getD_some]
    | @onMessage mirror hmirror hsource hsecret => exact Or.inr ⟨mirror, hmirror, rfl⟩
  have hall : (⋃ event ∈ {event | event ∈ a.announced},
      {p | Target M M.since n source event p}).Finite :=
    (List.finite_toSet a.announced).biUnion fun event _ => hfinite event
  refine ⟨hall.toFinset.toList, fun p => ?_⟩
  simp

/-- The announcements at both. -/
def State.announcementsOf (x y : ι) (e : Event) (s : State ι) : ℕ :=
  s.announcements x e + s.announcements y e

section

variable [Finite ι] {x y : ι}

/-- A handler that has passed the checks announces the event. -/
theorem announce_answered {d : Delivery ι} (hpub : Publishes x y e d)
    (hd : (⟨d, .ret (.emitted [.message e.id true "", .broadcast e])⟩ : Running ι) ∈ s.handlers) :
    ∃ s', Flow M R C s s' ∧ s.announcementsOf x y e < s'.announcementsOf x y e := by
  obtain ⟨before, after, hs⟩ := List.append_of_mem hd
  obtain ⟨sent, hsent⟩ := exists_sent M d.relay d.source (.emitted [.message e.id true "", .broadcast e])
  refine ⟨_, .answer hs (fun _ _ => le_rfl) (fun p hp => (hsent p).mp hp)
    fun event _ hannounced p htarget => (hsent p).mpr ⟨event, hannounced, htarget⟩, ?_⟩
  obtain ⟨hrelay, -, remoteAddress, hmessage⟩ := hpub
  simp only [State.announcementsOf, State.announcements, List.countP_append, countP_announced]
  have hdue : ∀ n, d.relay = n → Running.due n e
      ⟨d, .ret (.emitted [.message e.id true "", .broadcast e])⟩ = 1 := by
    intro n hn
    rw [Running.due, if_pos ⟨hn, by rw [hmessage]; rfl⟩]
    exact List.count_singleton_self
  rcases hrelay with hrelay | hrelay
  · have := hdue x hrelay
    omega
  · have := hdue y hrelay
    omega

/-- A handler that has not begun passes its checks, and then announces the
event. -/
theorem announce_running (hvalid : Valid R e) (heph : eventStrategyFactory e = .ephemeral)
    {d : Delivery ι} (hpub : Publishes x y e d)
    (hd : (⟨d, handle R d.message⟩ : Running ι) ∈ s.handlers) :
    ∃ s', Relation.ReflTransGen (Flow M R C) s s' ∧
      s.announcementsOf x y e < s'.announcementsOf x y e := by
  obtain ⟨remoteAddress, hmessage⟩ := hpub.2.2
  obtain ⟨k, hk, hpassed⟩ := @handle_ephemeral R e remoteAddress hvalid heph
  rw [hmessage, hk] at hd
  obtain ⟨before, after, hs⟩ := List.append_of_mem hd
  obtain ⟨s₁, hchecked, hmem, hannounced⟩ : ∃ s₁, Flow M R C s s₁ ∧
      (⟨d, k .passed⟩ : Running ι) ∈ s₁.handlers ∧ s₁.announced = s.announced :=
    ⟨_, .operate (o := .check e) (r := Checked.passed) hs rfl fun _ _ _ => rfl,
      mem_middle.mpr (Or.inl rfl), rfl⟩
  rw [hpassed] at hmem
  obtain ⟨s₂, hanswered, hlt⟩ := announce_answered (M := M) (R := R) (C := C) hpub hmem
  refine ⟨s₂, .head hchecked (.single hanswered), ?_⟩
  rwa [State.announcementsOf, State.announcements, State.announcements, hannounced] at hlt

/-- The event is announced once more. -/
theorem Alive.announce (hvalid : Valid R e) (heph : eventStrategyFactory e = .ephemeral)
    (h : Alive R x y e s) : ∃ s', Relation.ReflTransGen (Flow M R C) s s' ∧
      s.announcementsOf x y e < s'.announcementsOf x y e := by
  rcases h with ⟨d, hd, hpub⟩ | ⟨⟨d, rest⟩, hh, hpub, hrest⟩
  · obtain ⟨before, after, hs⟩ := List.append_of_mem hd
    obtain ⟨s', hr, hlt⟩ := announce_running (M := M) (C := C) (s := ({ s with
        inFlight := before ++ after
        handlers := s.handlers ++ [⟨d, handle R d.message⟩] } : State ι)) hvalid heph hpub
      (List.mem_append_right _ (List.mem_singleton_self _))
    exact ⟨s', .head (.begin hs) hr, hlt⟩
  · dsimp only at hpub hrest
    rcases hrest with hrest | hrest
    · exact announce_running hvalid heph hpub (hrest ▸ hh)
    · obtain ⟨s', hstep, hlt⟩ := announce_answered (M := M) (C := C) hpub (hrest ▸ hh)
      exact ⟨s', .single hstep, hlt⟩

/-- **An ephemeral event goes on for ever** between two relays that pass on to
each other what they announce: it is never gone, whatever else happens, and it
can be announced any number of times more. -/
theorem announced_forever (hxy : Passes M x y) (hyx : Passes M y x) (hvalid : Valid R e)
    (heph : eventStrategyFactory e = .ephemeral) (hC : e ∈ C) {d : Delivery ι}
    (hd : d ∈ s.inFlight) (hpub : Publishes x y e d)
    (hr : Relation.ReflTransGen (Step M R C) s s') (k : ℕ) :
    Alive R x y e s' ∧ ∃ s'', Relation.ReflTransGen (Flow M R C) s' s'' ∧
      s'.announcementsOf x y e + k ≤ s''.announcementsOf x y e := by
  have halive : Alive R x y e s := Or.inl ⟨d, hd, hpub⟩
  have halive' := halive.of_reaches hxy hyx hvalid heph hC hr
  refine ⟨halive', ?_⟩
  induction k with
  | zero => exact ⟨s', .refl, le_rfl⟩
  | succ k ih =>
      -- the event is still alive after `k` announcements, and there is one more
      obtain ⟨s₁, hr₁, hle⟩ := ih
      have hsteps : Relation.ReflTransGen (Step M R C) s' s₁ :=
        Relation.ReflTransGen.mono (fun _ _ => .flow) _ _ hr₁
      obtain ⟨s₂, hr₂, hlt⟩ :=
        (halive'.of_reaches hxy hyx hvalid heph hC hsteps).announce (M := M) (C := C) hvalid heph
      exact ⟨s₂, hr₁.trans hr₂, by omega⟩

end

end

/-! ### Two relays that pass everything on to each other -/

/-- A mirror without a subscription. -/
def mirrorOf (address : String) : Mirror := ⟨address, none, none, none, none⟩

/-- Each of the two mirrors the other one. -/
def pair : Mesh Bool where
  layout _ := .flat
  restarts _ := 0
  mirrors n := [mirrorOf (if n then "wss://false.example" else "wss://true.example")]
  since _ _ := 0
  relayAt address := address = "wss://true.example"
  remoteAddress _ := none

theorem passes_pair (n : Bool) : Passes pair n (!n) := by
  refine ⟨_, List.mem_singleton_self _, rfl, ?_⟩
  cases n with
  | false => decide
  | true => decide

/-- The other relay is the only one that an announcement goes to. -/
theorem target_pair {since : Bool → Mirror → ℤ} {n : Bool} {source : Option String} {event : Event}
    {p : Delivery Bool} (h : Target pair since n source event p) : p = ⟨!n, none, .event event none⟩ := by
  cases h with
  | subscription hmirror haddress hcovers =>
      cases List.mem_singleton.mp hmirror
      cases hcovers.1
  | onMessage hmirror hsource hsecret =>
      cases List.mem_singleton.mp hmirror
      cases n with
      | false => rfl
      | true => rfl

theorem target_other (n : Bool) (event : Event) :
    Target pair pair.since n none event ⟨!n, none, .event event none⟩ := by
  have haddress : pair.relayAt (mirrorOf (if n then "wss://false.example" else
      "wss://true.example")).address = !n := by
    cases n with
    | false => decide
    | true => decide
  rw [← haddress]
  exact .onMessage (M := pair) (List.mem_singleton_self _) (Option.some_ne_none _).symm rfl

section

variable {ι : Type*} [DecidableEq ι] {M : Mesh ι} {R : Runtime} {C : Set Event} {s : State ι}

/-- What the operations of the handler may do. -/
def mayDo (M : Mesh ι) (C : Set Event) (d : Delivery ι) (o : Op) (db : Database) (r : Res o)
    (db' : Database) : Prop :=
  eff (M.schema d.relay) o db r db' ∧ ∀ event ∈ C, eventOf d.message = some event →
    Succeeds (M.schema d.relay) o db r db'

/-- A handler runs to its end while nothing else happens. -/
theorem reaches_ret {before after : List (Running ι)} {d : Delivery ι} {p : Handler Answer} {a : Answer}
    {db db' : Database} (h : Runs (mayDo M C d) p db a db') (hs : s.handlers = before ++ ⟨d, p⟩ :: after)
    (hdb : s.databases d.relay = db) :
    Relation.ReflTransGen (Flow M R C) s { s with
      databases := Function.update s.databases d.relay db'
      handlers := before ++ ⟨d, .ret a⟩ :: after } := by
  induction h generalizing s with
  | ret a db =>
      rw [← hdb, ← hs, Function.update_eq_self]
  | @op o k db r db₁ a db' he hk ih =>
      subst hdb
      have hrest := @ih { s with
        databases := Function.update s.databases d.relay db₁
        handlers := before ++ ⟨d, k r⟩ :: after } rfl (Function.update_self _ _ _)
      simp only [Function.update_idem] at hrest
      exact .head (.operate hs he.1 he.2) hrest

end

section

variable (R : Runtime) (event : Event)

/-- The event has been handled at the relay, as the only message, and what was
announced is on its way to the other one. -/
def State.publish (n : Bool) (s : State Bool) : State Bool :=
  let result := create flatSchema none 0 ((received R event none).incoming none) (s.databases n)
  let a := Answer.emitted (commandResult event result.1)
  { databases := Function.update s.databases n result.2
    inFlight := a.announced.map fun event => ⟨!n, none, .event event none⟩
    handlers := []
    announced := s.announced ++ a.announced.map fun e => ⟨⟨n, none, .event event none⟩, e⟩ }

variable {R} {event}

theorem reaches_publish {C : Set Event} {n : Bool} {s : State Bool}
    (hflights : s.inFlight = [⟨n, none, .event event none⟩]) (hhandlers : s.handlers = [])
    (hvalid : Valid R event) (hdefault : eventStrategyFactory event = .default)
    (hraises : insertRaises none 0 ((received R event none).incoming none) = false) :
    Relation.ReflTransGen (Flow pair R C) s (s.publish R event n) := by
  obtain ⟨k, hk, hpassed⟩ := handle_of_valid none hvalid
  have hexecute : k .passed = .op (.create ((received R event none).incoming none)) fun count =>
      .ret (.emitted (commandResult event count)) := by
    rw [hpassed]
    have hevent : (received R event none).toEvent = event := rfl
    simp only [execute, hevent, hdefault]
    rfl
  generalize hd : (⟨n, none, .event event none⟩ : Delivery Bool) = d at hflights
  generalize hresult : create flatSchema none 0 ((received R event none).incoming none)
    (s.databases n) = result
  have hruns : Runs (mayDo pair C d) (handle R d.message) (s.databases d.relay)
      (.emitted (commandResult event result.1)) result.2 := by
    subst hd
    have hcheck : mayDo pair C ⟨n, none, .event event none⟩ (.check event) (s.databases n)
        Checked.passed (s.databases n) := ⟨rfl, fun _ _ _ => rfl⟩
    dsimp only
    rw [hk]
    refine .op hcheck ?_
    rw [hexecute]
    exact .op ⟨⟨none, 0, hresult.symm⟩, fun _ _ _ => ⟨none, 0, hresult.symm, hraises⟩⟩ (.ret _ _)
  have hbegun : Flow pair R C s { s with inFlight := [], handlers := [⟨d, handle R d.message⟩] } := by
    have hstep := @Flow.begin _ pair _ R C s [] [] _ hflights
    rwa [hhandlers] at hstep
  have hrun : Relation.ReflTransGen (Flow pair R C)
      { s with inFlight := [], handlers := [⟨d, handle R d.message⟩] } { s with
        databases := Function.update s.databases d.relay result.2
        inFlight := []
        handlers := [⟨d, .ret (.emitted (commandResult event result.1))⟩] } :=
    @reaches_ret _ _ pair R C _ [] [] _ _ _ _ _ hruns rfl rfl
  refine .head hbegun (hrun.trans (.single ?_))
  have hanswer := @Flow.answer _ pair _ R C { s with
      databases := Function.update s.databases d.relay result.2
      inFlight := []
      handlers := [⟨d, .ret (.emitted (commandResult event result.1))⟩] } [] [] d
    (.emitted (commandResult event result.1)) pair.since
    ((Answer.emitted (commandResult event result.1)).announced.map fun e => ⟨!n, none, .event e none⟩)
    rfl (fun _ _ => le_rfl) ?_ ?_
  · subst hd hresult
    exact hanswer
  · subst hd
    intro p hp
    obtain ⟨e, he, rfl⟩ := List.mem_map.mp hp
    exact ⟨e, he, target_other n e⟩
  · subst hd
    intro e _ he p hp
    rw [target_pair hp]
    exact List.mem_map_of_mem he

/-- What is announced goes to the other relay. -/
theorem inFlight_publish {n : Bool} {s : State Bool}
    (hcount : (create flatSchema none 0 ((received R event none).incoming none) (s.databases n)).1 ≠ 0) :
    (s.publish R event n).inFlight = [⟨!n, none, .event event none⟩] := by
  rw [State.publish, commandResult, if_neg hcount]
  rfl

end

/-! ### A note that comes back -/

/-- Nothing has happened. -/
def fresh : State Bool := ⟨fun _ => ⟨[], []⟩, [], [], []⟩

/-- A client has published the event at the first relay. -/
def posted (event : Event) : State Bool := { fresh with inFlight := [⟨false, none, .event event none⟩] }

def noteAtFirst : State Bool := (posted shortNote).publish (runtimeFor [shortNote]) shortNote false

def noteAtBoth : State Bool := noteAtFirst.publish (runtimeFor [shortNote]) shortNote true

/-- The second relay has passed the note back. -/
def noteReturned : State Bool := noteAtBoth.publish (runtimeFor [shortNote]) shortNote false

theorem valid_shortNote : Valid (runtimeFor [shortNote]) shortNote := ⟨by decide +kernel, rfl⟩

theorem reaches_noteReturned (C : Set Event) :
    Relation.ReflTransGen (Step pair (runtimeFor [shortNote]) C) fresh noteReturned := by
  have hclient : (Message.event shortNote none).IsClient := trivial
  have hdefault : eventStrategyFactory shortNote = .default := by decide
  have hraises : insertRaises none 0
      ((received (runtimeFor [shortNote]) shortNote none).incoming none) = false := by decide +kernel
  have hfirst : noteAtFirst.inFlight = [⟨true, none, .event shortNote none⟩] :=
    inFlight_publish (by decide +kernel)
  have hboth : noteAtBoth.inFlight = [⟨false, none, .event shortNote none⟩] :=
    inFlight_publish (by decide +kernel)
  have hflow : Relation.ReflTransGen (Flow pair (runtimeFor [shortNote]) C) (posted shortNote)
      noteReturned :=
    ((reaches_publish rfl rfl valid_shortNote hdefault hraises).trans
      (reaches_publish hfirst rfl valid_shortNote hdefault hraises)).trans
        (reaches_publish hboth rfl valid_shortNote hdefault hraises)
  exact .head (.arrive false hclient) (Relation.ReflTransGen.mono (fun _ _ => .flow) _ _ hflow)

/-- The first relay does not announce the note again. -/
theorem announcements_le_shortNote : noteReturned.inFlight.length = 0 ∧
    noteReturned.announcements false shortNote = 1 ∧
    noteReturned.announcements false shortNote ≤ if (addressOf shortNote).isSome then 2 else 1 :=
  ⟨by decide +kernel, by decide +kernel,
    announcements_le (M := pair) (R := runtimeFor [shortNote]) (C := ∅) ⟨rfl, rfl, rfl⟩
      (fun _ => unique_nil) (reaches_noteReturned ∅) false shortNote (by decide)⟩

/-! ### An ephemeral event that never ends -/

/-- Somebody is typing. -/
def typing : Event where
  id := "bd3f008573d3d38c6ea13deb8348cc1b404d8eacfa4fe80339505fdf2d32e214"
  pubkey := "f9308a019258c31049344f85f89d5229b531c845836f99b08601f113bce036f9"
  createdAt := 1700000000
  kind := 20001
  tags := []
  content := "typing"
  sig := "f08b011e4416f0b4cc8cb5f1e07a69399f8cf2162d65303bb27e2c28544f742d" ++
    "603e5904e6927bfd006b61bb2b0b0893c0d20180065e7b3f51874f9fa2c14669"

/-- A hundred announcements, and more to come. -/
theorem announced_forever_typing :
    ∃ s, Relation.ReflTransGen (Flow pair (runtimeFor [typing]) Set.univ) (posted typing) s ∧
      100 ≤ s.announcementsOf false true typing := by
  obtain ⟨-, s, hr, hle⟩ := announced_forever (C := Set.univ) (passes_pair false) (passes_pair true)
    (R := runtimeFor [typing]) ⟨by decide +kernel, rfl⟩ (by decide) (Set.mem_univ typing)
    (List.mem_singleton_self _) ⟨Or.inl rfl, rfl, none, rfl⟩ (.refl (a := posted typing)) 100
  exact ⟨s, hr, (Nat.le_add_left _ _).trans hle⟩

end NostrMesh.Relay.Traffic.Flooding
