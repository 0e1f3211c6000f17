/-
NostrMesh/Relay/LiveEvents.lean

Stored and live events of one subscription.

`REQ` registers the subscription before it asks the database, and a handler
inserts the row of an event before it broadcasts the event.  A `World` is the
tables, the broadcasts that this worker has yet to process, one connection and
what its client was sent; its moves are the statements of other handlers, the
arrival of a broadcast, and the steps of the connection, in any order.

For the client a `World` is a `Feed`: the table is what the subscription asks
for, the answer of the database is the snapshot, and broadcasts are the
announcements.  `feed_next` says that every move is a step of that feed, so that
`mem_sent_of_ended` is the rule for feeds.
-/
import NostrMesh.Lib.Feed
import NostrMesh.Relay.Connection
import NostrMesh.Relay.Convergence
import NostrMesh.Relay.ClientPath
import NostrMesh.Relay.StoredAnswers

namespace NostrMesh.Relay.LiveEvents

open Connection Tables

/-! ### Events that are published -/

/-- `string().case('lower').hex().length(length)`. -/
def hexSchema (length : ℕ) (s : String) : Bool :=
  s.toList.length = length && s.toList.all Bytes.isLowerHex

/-- An event that has passed `eventSchema`, as far as identifiers go. -/
structure PublishedEvent extends IncomingEvent where
  idSchema : hexSchema 64 id = true
  pubkeySchema : hexSchema 64 pubkey = true
  signatureSchema : hexSchema 128 sig = true

theorem toHex_toBuffer {length : ℕ} {s : String} (h : hexSchema length s = true)
    (heven : length % 2 = 0) : Bytes.toHex (toBuffer s) = s := by
  simp only [hexSchema, Bool.and_eq_true, decide_eq_true_eq, List.all_eq_true] at h
  exact Bytes.toHex_ofHex (h.1 ▸ heven) h.2

/-- Such an event is read back as it was. -/
theorem PublishedEvent.storedForm_eq (event : PublishedEvent) :
    storedForm event.toEvent = event.toEvent := by
  rw [storedForm, toHex_toBuffer event.idSchema rfl, toHex_toBuffer event.pubkeySchema rfl,
    toHex_toBuffer event.signatureSchema rfl]

/-! ### What the statements leave in the table -/

section

variable {S : Schema} {fault : Option DbError} {now : ℕ} {event : IncomingEvent} {db : Database}
  {row : EventRow}

theorem mem_create (h : row ∈ (create S fault now event db).2.events) :
    row ∈ db.events ∨
      toNostrEvent row = storedForm event.toEvent ∧ (create S fault now event db).1 = 1 := by
  rcases create_cases S fault now event db with hsame | ⟨hinsert, -⟩
  · rw [hsame] at h
    exact Or.inl h
  · rw [hinsert] at h ⊢
    rcases List.mem_append.mp h with hold | hnew
    · exact Or.inl hold
    · obtain rfl := List.mem_singleton.mp hnew
      exact Or.inr ⟨rfl, rfl⟩

/-- The row that an upsert writes holds its event, also where it replaces
another row: that one has the same address. -/
theorem mem_upsert (h : row ∈ (upsert S fault now event db).2.events) :
    row ∈ db.events ∨
      toNostrEvent row = storedForm event.toEvent ∧ (upsert S fault now event db).1 = .ok 1 := by
  rcases upsert_results S fault now event db with ⟨e, hresult⟩ | hresult |
    ⟨old, hold, hpubkey, hkind, hresult⟩ | hresult
  · rw [hresult] at h
    exact Or.inl h
  · rw [hresult] at h ⊢
    rcases List.mem_append.mp h with hmem | hnew
    · exact Or.inl hmem
    · obtain rfl := List.mem_singleton.mp hnew
      exact Or.inr ⟨rfl, rfl⟩
  · rw [hresult] at h ⊢
    rcases (mem_apply_update hold).mp h with rfl | ⟨hmem, -⟩
    · refine Or.inr ⟨?_, rfl⟩
      simp only [toNostrEvent, mergeRow, hpubkey, hkind]
      rfl
    · exact Or.inl hmem
  · rw [hresult] at h
    exact Or.inl h

theorem mem_deleteByPubkeyAndIds {pubkey : String} {ids : List String}
    (h : row ∈ (deleteByPubkeyAndIds fault now pubkey ids db).2.events)
    (hdeleted : row.deletedAt = none) : row ∈ db.events := by
  rcases deleteByPubkeyAndIds_cases fault now pubkey ids db with hsame | hmarked
  · rwa [hsame] at h
  · rw [hmarked] at h
    obtain ⟨old, hold, rfl⟩ := List.mem_map.mp h
    rcases markRow_cases now pubkey ids old with ⟨-, heq⟩ | ⟨-, heq⟩
    · rw [heq] at hdeleted
      cases hdeleted
    · rwa [heq]

end

/-! ### The worker, as one client sees it -/

/-- The tables, the broadcasts that have yet to reach the sockets of this
worker, the connection, and what its client was sent. -/
structure World where
  db : Database
  announced : List Event
  adapter : Adapter
  sent : List Outgoing

/-- The events that a strategy broadcasts. -/
def broadcasts (emits : List Emit) : List Event :=
  emits.filterMap fun emit =>
    match emit with
    | .broadcast event => some event
    | .message _ _ _ => none

/-- The strategies are cut at their statements.  A broadcast is announced when
its row is committed, and it is processed whenever it arrives. -/
inductive Move
  | create (fault : Option DbError) (now : ℕ) (event : PublishedEvent)
  | upsert (fault : Option DbError) (now : ℕ) (event : PublishedEvent)
  | deleteByPubkeyAndIds (fault : Option DbError) (now : ℕ) (pubkey : String)
      (eventIdsToDelete : List String)
  /-- The strategy of ephemeral events, which stores nothing. -/
  | ephemeral (event : PublishedEvent)
  /-- The broadcast in this place arrives. -/
  | deliver (i : ℕ)
  | connection (action : Action)

/-- A step of the connection, with what it sends. -/
def World.act (w : World) (action : Action) : World :=
  { w with adapter := (step action w.adapter).2, sent := w.sent ++ (step action w.adapter).1 }

/-- The statement of a strategy: what it has changed, and what the strategy
announces for the row count. -/
def World.commit (w : World) (event : Event) (result : Except DbError ℕ × Database) : World :=
  match result with
  | (.ok count, db) =>
      { w with db, announced := w.announced ++ broadcasts (commandResult event count) }
  | (.error _, db) => { w with db }

def next (S : Schema) : Mealy.Machine World Move Unit
  | .create fault now event, w =>
      let (count, db) := create S fault now event.toIncomingEvent w.db
      ((), w.commit event.toEvent (.ok count, db))
  | .upsert fault now event, w =>
      ((), w.commit event.toEvent (upsert S fault now event.toIncomingEvent w.db))
  | .deleteByPubkeyAndIds fault now pubkey eventIdsToDelete, w =>
      ((), { w with db := (deleteByPubkeyAndIds fault now pubkey eventIdsToDelete w.db).2 })
  | .ephemeral event, w => ((), { w with announced := w.announced ++ [event.toEvent] })
  | .deliver i, w =>
      match w.announced[i]? with
      | some event => ((), { w with announced := w.announced.eraseIdx i }.act (.broadcast event))
      | none => ((), w)
  | .connection action, w => ((), w.act action)

/-! ### The feed of a subscription -/

/-- The answer has every row of the table that the filters match. -/
def Complete (db : Database) (filters : List SubscriptionFilter) (rows : List EventRow) : Prop :=
  ∀ row ∈ db.events, isClientSubscribedToEvent filters (toNostrEvent row) = true → row ∈ rows

instance (db : Database) (filters : List SubscriptionFilter) (rows : List EventRow) :
    Decidable (Complete db filters rows) :=
  inferInstanceAs (Decidable (∀ row ∈ db.events, _ → row ∈ rows))

/-- The query for one filter is complete if the limit does not cut it off. -/
theorem complete_runQuery {db : Database} {f : SubscriptionFilter} {order : RowOrder} (hwell : WellFormed f)
    (hone : f.tags.length ≤ 1) (hstorable : ∀ row ∈ db.events, Storable row) (htags : ExactTags db)
    (hlimit : (select db f).length ≤ f.window) : Complete db [f] (runQuery db [f] order) := by
  intro row hrow hmatch
  have hselect : row ∈ select db f :=
    (mem_select_iff_matching hwell hone hrow (hstorable row hrow) htags).mpr
      (by simpa [isClientSubscribedToEvent] using hmatch)
  have hplace : place db f order row < (select db f).length := by
    have hlength : (joined db f order).length = (select db f).length := length_joined
    rw [← hlength]
    exact List.idxOf_lt_length_of_mem (mem_joined.mpr hselect)
  rw [runQuery, mem_orderAndLimit_select, within, Bool.and_eq_true]
  exact ⟨decide_eq_true hselect, decide_eq_true (hplace.trans_le hlimit)⟩

/-- The events that the filters match, of the rows that are not deleted. -/
def matching (filters : List SubscriptionFilter) (rows : List EventRow) : Set Event :=
  {event | isClientSubscribedToEvent filters event = true ∧
    ∃ row ∈ rows, row.deletedAt = none ∧ toNostrEvent row = event}

/-- What is left of the snapshot. -/
def restOf (filters : List SubscriptionFilter) : QueryState → Option (Set Event)
  | .waiting => none
  | .sending rows => some (matching filters rows)
  | .ended => some ∅
  | .failed => none

/-- The subscription as a reader of the table. -/
def feed (subscriptionId : String) (filters : List SubscriptionFilter) (state : QueryState)
    (w : World) : Feed Event where
  table := matching filters w.db.events
  announced := {event | isClientSubscribedToEvent filters event = true ∧ event ∈ w.announced}
  rest := restOf filters state
  received := {event | .event subscriptionId event ∈ w.sent}

/-- The query in this place is the one of the subscription, and no item of its feed is lost. -/
def Serves (subscriptionId : String) (filters : List SubscriptionFilter) (i : ℕ) (w : World) :
    Prop :=
  ∃ state, w.adapter.queries[i]? = some ⟨subscriptionId, filters, state⟩ ∧
    (feed subscriptionId filters state w).Covered

/-- The subscription stays registered with these filters, the socket stays
open, and the answer to the query in this place is complete. -/
def Stays (S : Schema) (subscriptionId : String) (filters : List SubscriptionFilter) (i : ℕ)
    (w : World) (move : Move) : Prop :=
  (next S move w).2.adapter.readyState = .opened ∧
    (next S move w).2.adapter.registered subscriptionId = some filters ∧
    ∀ rows, move = .connection (.answer i (.ok rows)) →
      w.adapter.queries[i]? = some ⟨subscriptionId, filters, .waiting⟩ → Complete w.db filters rows

section

variable {S : Schema} {subscriptionId : String} {filters : List SubscriptionFilter} {i : ℕ}
  {state : QueryState} {w : World}

/-- A row that a statement adds is one that its strategy announces. -/
theorem feed_commit {event : Event} {result : Except DbError ℕ × Database}
    (h : ∀ row ∈ result.2.events, row.deletedAt = none →
      row ∈ w.db.events ∨ toNostrEvent row = event ∧ result.1 = .ok 1) :
    (feed subscriptionId filters state w).Step
      (feed subscriptionId filters state (w.commit event result)) := by
  obtain ⟨e | count, db⟩ := result
  · refine .of_rest_eq rfl (fun _ => id) ?_ fun _ => Or.inl
    rintro shown ⟨hmatch, row, hrow, hdeleted, rfl⟩
    rcases h row hrow hdeleted with hold | ⟨-, hresult⟩
    · exact Or.inl ⟨hmatch, row, hold, hdeleted, rfl⟩
    · cases hresult
  · refine .of_rest_eq rfl (fun _ => id) ?_ fun shown hshown =>
      Or.inl ⟨hshown.1, List.mem_append_left _ hshown.2⟩
    rintro shown ⟨hmatch, row, hrow, hdeleted, rfl⟩
    rcases h row hrow hdeleted with hold | ⟨rfl, hresult⟩
    · exact Or.inl ⟨hmatch, row, hold, hdeleted, rfl⟩
    · obtain rfl := Except.ok.inj hresult
      exact Or.inr ⟨hmatch, List.mem_append_right _ List.mem_cons_self⟩

/-- A broadcast that arrives while the subscription is registered is received. -/
theorem feed_deliver {j : ℕ} {event : Event} (hevent : w.announced[j]? = some event)
    (hopen : w.adapter.readyState = .opened)
    (hregistered : w.adapter.registered subscriptionId = some filters) :
    (feed subscriptionId filters state w).Step (feed subscriptionId filters state
      ({ w with announced := w.announced.eraseIdx j }.act (.broadcast event))) := by
  refine .of_rest_eq rfl (fun _ => List.mem_append_left _) (fun _ => Or.inl) ?_
  rintro shown ⟨hmatch, hshown⟩
  obtain ⟨k, hk⟩ := List.mem_iff_getElem?.mp hshown
  by_cases hkj : k = j
  · subst hkj
    obtain rfl := Option.some.inj (hevent.symm.trans hk)
    exact Or.inr (List.mem_append_right _ (event_of_broadcast hopen hregistered hmatch))
  · exact Or.inl ⟨hmatch, List.mem_eraseIdx_iff_getElem?.mpr ⟨k, hkj, hk⟩⟩

/-- The answer of the database is a snapshot, and the pipeline sends what is
left of it. -/
theorem feed_act {action : Action} (hopen : w.adapter.readyState = .opened)
    (hquery : w.adapter.queries[i]? = some ⟨subscriptionId, filters, state⟩)
    (hcomplete : ∀ rows, action = .answer i (.ok rows) → state = .waiting →
      Complete w.db filters rows) :
    ∃ state', (w.act action).adapter.queries[i]? = some ⟨subscriptionId, filters, state'⟩ ∧
      (feed subscriptionId filters state w).Step
        (feed subscriptionId filters state' (w.act action)) := by
  have hsame : (feed subscriptionId filters state w).Step
      (feed subscriptionId filters state (w.act action)) :=
    .of_rest_eq rfl (fun _ => List.mem_append_left _) (fun _ => Or.inl) fun _ => Or.inl
  -- a state from which nothing is promised
  have hfailed : (feed subscriptionId filters state w).Step
      (feed subscriptionId filters .failed (w.act action)) :=
    ⟨hsame.received, hsame.table, hsame.announced, fun _ hnone => nomatch hnone⟩
  rcases @query_step w.adapter action i _ hquery with
    hkept | ⟨result, rfl, hanswered⟩ | ⟨rfl, hstreamed⟩
  · exact ⟨state, hkept, hsame⟩
  · rcases state with - | rows | - | -
    · rcases result with e | rows
      · exact ⟨.failed, hanswered, hfailed⟩
      · -- the snapshot has all rows that the filters match
        refine ⟨.sending rows, hanswered, hsame.received, hsame.table, hsame.announced, ?_⟩
        rintro R' ⟨⟩
        refine Or.inl ⟨rfl, ?_⟩
        rintro shown ⟨hmatch, row, hrow, hdeleted, rfl⟩
        exact ⟨hmatch, row, hcomplete rows rfl rfl row hrow hmatch, hdeleted, rfl⟩
    · rcases result with e | rows'
      · exact ⟨.failed, hanswered, hfailed⟩
      · exact ⟨_, hanswered, hsame⟩
    · -- an answer after the end, or after an error, changes nothing
      exact ⟨_, hanswered, hsame⟩
    · exact ⟨_, hanswered, hsame⟩
  · rcases state with - | ⟨- | ⟨row, rows⟩⟩ | - | -
    · exact ⟨_, hstreamed, hsame⟩
    · -- nothing is left of the snapshot
      refine ⟨.ended, hstreamed, hsame.received, hsame.table, hsame.announced, ?_⟩
      rintro R' ⟨⟩
      refine Or.inr ⟨_, rfl, ?_⟩
      rintro shown ⟨-, row, hrow, -⟩
      cases hrow
    · refine ⟨.sending rows, hstreamed, hsame.received, hsame.table, hsame.announced, ?_⟩
      rintro R' ⟨⟩
      refine Or.inr ⟨_, rfl, ?_⟩
      rintro shown ⟨hmatch, row', hrow', hdeleted, rfl⟩
      rcases List.mem_cons.mp hrow' with rfl | hrest
      · -- the row that the pipeline takes is sent
        refine Or.inr (List.mem_append_right _ ?_)
        simp only [step, Adapter.stream, hquery, StoredQuery.stream]
        rw [Adapter.sendMessages_of_opened hopen, hdeleted, hmatch]
        exact List.mem_singleton.mpr rfl
      · exact Or.inl ⟨hmatch, row', hrest, hdeleted, rfl⟩
    · exact ⟨_, hstreamed, hsame⟩
    · exact ⟨_, hstreamed, hsame⟩

theorem serves_next {move : Move} (h : Serves subscriptionId filters i w)
    (hstays : Stays S subscriptionId filters i w move) :
    Serves subscriptionId filters i (next S move w).2 := by
  obtain ⟨state, hquery, hcovered⟩ := h
  obtain ⟨hopen, hregistered, hcomplete⟩ := hstays
  cases move with
  | create fault now event =>
      refine ⟨state, hquery, (feed_commit fun row hrow _ => ?_).covered hcovered⟩
      rcases mem_create hrow with hold | ⟨hevent, hcount⟩
      · exact Or.inl hold
      · exact Or.inr ⟨hevent.trans event.storedForm_eq, congrArg Except.ok hcount⟩
  | upsert fault now event =>
      refine ⟨state, ?_, Feed.Step.covered (feed_commit fun row hrow _ => ?_) hcovered⟩
      · simp only [next, World.commit]
        split
        · exact hquery
        · exact hquery
      · rcases mem_upsert hrow with hold | ⟨hevent, hcount⟩
        · exact Or.inl hold
        · exact Or.inr ⟨hevent.trans event.storedForm_eq, hcount⟩
  | deleteByPubkeyAndIds fault now pubkey ids =>
      have hstep : (feed subscriptionId filters state w).Step (feed subscriptionId filters state
          (next S (.deleteByPubkeyAndIds fault now pubkey ids) w).2) := by
        refine .of_rest_eq rfl (fun _ => id) ?_ fun _ => Or.inl
        rintro shown ⟨hmatch, row, hrow, hdeleted, rfl⟩
        exact Or.inl ⟨hmatch, row, mem_deleteByPubkeyAndIds hrow hdeleted, hdeleted, rfl⟩
      exact ⟨state, hquery, hstep.covered hcovered⟩
  | ephemeral event =>
      have hstep : (feed subscriptionId filters state w).Step
          (feed subscriptionId filters state (next S (.ephemeral event) w).2) :=
        .of_rest_eq rfl (fun _ => id) (fun _ => Or.inl) fun _ hshown =>
          Or.inl ⟨hshown.1, List.mem_append_left _ hshown.2⟩
      exact ⟨state, hquery, hstep.covered hcovered⟩
  | deliver j =>
      simp only [next] at hopen hregistered ⊢
      split
      · next event hevent =>
        simp only [hevent] at hopen hregistered
        exact ⟨state, hquery, (feed_deliver hevent hopen hregistered).covered hcovered⟩
      · exact ⟨state, hquery, hcovered⟩
  | connection action =>
      obtain ⟨state', hquery', hstep⟩ := feed_act (opened_of_step hopen) hquery
        fun rows haction hwaiting => hcomplete rows (haction ▸ rfl) (hwaiting ▸ hquery)
      exact ⟨state', hquery', hstep.covered hcovered⟩

/-- An accepted `REQ` on an open socket starts a query that serves. -/
theorem serves_req {limits : Option SubscriptionLimits} {message : List SubscriptionFilter}
    (hopen : w.adapter.readyState = .opened)
    (haccepted : Connection.Accepted w.adapter limits subscriptionId message) :
    Serves subscriptionId (uniqFilters message) w.adapter.queries.length
      (w.act (.req limits subscriptionId message)) := by
  refine ⟨.waiting, ?_, Feed.covered_of_rest_eq_none rfl⟩
  simp only [World.act, step]
  rw [Adapter.subscribe_of_accepted haccepted, Adapter.heard_of_opened hopen]
  exact List.getElem?_concat_length

/-! ### No gap -/

/-- **No gap between stored and live events.**  From an accepted `REQ` on, the
subscription stays registered and the socket open, and the database answers the
query with every row that the filters match.  Once the query has ended, each
event that the filters match and whose row is not deleted has been sent, unless
its broadcast is still on its way. -/
theorem mem_sent_of_ended {limits : Option SubscriptionLimits} {message : List SubscriptionFilter}
    {moves : List Move} (hopen : w.adapter.readyState = .opened)
    (haccepted : Connection.Accepted w.adapter limits subscriptionId message)
    (hstays : Mealy.Always (next S)
      (Stays S subscriptionId (uniqFilters message) w.adapter.queries.length) moves
      (w.act (.req limits subscriptionId message)))
    (hended : (Mealy.after (next S) moves
        (w.act (.req limits subscriptionId message))).adapter.queries[w.adapter.queries.length]? =
      some ⟨subscriptionId, uniqFilters message, .ended⟩) {row : EventRow}
    (hrow : row ∈ (Mealy.after (next S) moves
      (w.act (.req limits subscriptionId message))).db.events)
    (hdeleted : row.deletedAt = none)
    (hmatch : isClientSubscribedToEvent (uniqFilters message) (toNostrEvent row) = true)
    (hannounced : toNostrEvent row ∉ (Mealy.after (next S) moves
      (w.act (.req limits subscriptionId message))).announced) :
    .event subscriptionId (toNostrEvent row) ∈
      (Mealy.after (next S) moves (w.act (.req limits subscriptionId message))).sent := by
  obtain ⟨state, hquery, hcovered⟩ :=
    hstays.invariant_after (fun _ _ => serves_next) (serves_req hopen haccepted)
  obtain rfl : QueryState.ended = state :=
    congrArg StoredQuery.state (Option.some.inj (hended.symm.trans hquery))
  exact hcovered.mem_received rfl ⟨hmatch, row, hrow, hdeleted, rfl⟩ fun h => hannounced h.2

end

def publishedNote : PublishedEvent :=
  { newerNote.incoming none with
    idSchema := by decide +kernel
    pubkeySchema := by decide +kernel
    signatureSchema := by decide +kernel }

/-- One note is stored, and a client has connected. -/
def oneNote : World := ⟨⟨[olderRow], []⟩, [], connected, []⟩

def limitsOfClient : SubscriptionLimits := ⟨some 10, some 10, some 256⟩

/-- A note is published between the answer of the database and the first row
that is sent, and its broadcast arrives before the end of the stored events. -/
def publishing : List Move :=
  [.connection (.answer 0 (.ok [olderRow])), .create none 0 publishedNote, .connection (.stream 0),
    .deliver 0, .connection (.stream 0)]

theorem mem_sent_of_ended_publishing : Outgoing.event "notes" (toNostrEvent newerRow) ∈
    (Mealy.after (next flatSchema) publishing
      (oneNote.act (.req (some limitsOfClient) "notes" [notes (some 10)]))).sent := by
  have hstays : Mealy.Always (next flatSchema)
      (Stays flatSchema "notes" (uniqFilters [notes (some 10)]) oneNote.adapter.queries.length)
      publishing (oneNote.act (.req (some limitsOfClient) "notes" [notes (some 10)])) := by
    refine ⟨⟨rfl, rfl, ?_⟩, ⟨rfl, rfl, nofun⟩, ⟨rfl, rfl, nofun⟩, ⟨rfl, rfl, nofun⟩,
      ⟨rfl, rfl, nofun⟩, trivial⟩
    -- the answer of the database is the one row that the filter matches
    rintro rows ⟨⟩ -
    decide +kernel
  have hended : (Mealy.after (next flatSchema) publishing
      (oneNote.act (.req (some limitsOfClient) "notes" [notes (some 10)]))).adapter.queries[0]? =
        some ⟨"notes", uniqFilters [notes (some 10)], .ended⟩ := rfl
  have hevents : (Mealy.after (next flatSchema) publishing
      (oneNote.act (.req (some limitsOfClient) "notes" [notes (some 10)]))).db.events =
        [olderRow, newerRow] := rfl
  have hannounced : (Mealy.after (next flatSchema) publishing
      (oneNote.act (.req (some limitsOfClient) "notes" [notes (some 10)]))).announced = [] := rfl
  refine mem_sent_of_ended rfl (by decide +kernel) hstays hended ?_ rfl (by decide +kernel) ?_
  · rw [hevents]
    exact List.mem_cons_of_mem _ List.mem_cons_self
  · rw [hannounced]
    exact List.not_mem_nil

end NostrMesh.Relay.LiveEvents
