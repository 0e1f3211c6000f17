/-
NostrMesh/Relay/Expiry.lean

Events with an expiration time, on a relay with a clock.

The relay looks at the expiration once, when an event arrives, and stores it
in the column `expires_at`, which no query reads.  Clients get the event
later, from the pipeline of a stored query or from a broadcast, and neither of
the two looks at the clock.

`Due` says which event a move hands to the client, and `event_sent_iff` that
it is sent as long as the socket is open.  What is due is among the events that
the worker had at the start or has admitted since (`Clocked.Holds.next`), so that
the check at the arrival is enough for runs that end before any of these expires
(`neverSendsExpired_of_outlast`).  It is not enough for others
(`not_neverSendsExpired_askingLate`).
-/
import NostrMesh.Relay.LiveEvents

namespace NostrMesh.Relay.Expiry

open Connection LiveEvents
open Traffic (Runtime getEventExpiration isExpiredEvent)

/-! ### The relay with a clock -/

/-- One worker of the relay, with the events that have passed the check of
their expiration and are on their way to a statement, and the time in seconds. -/
structure Clocked where
  world : World
  accepted : List PublishedEvent
  clock : ℤ

inductive TimedMove
  | tick (seconds : ℕ)
  /-- An event comes from a client, or from a mirrored relay. -/
  | receive (event : PublishedEvent)
  /-- The relay makes a notification of its own. -/
  | notify (event : PublishedEvent)
  /-- A strategy marks the rows that its event deletes. -/
  | delete (i : ℕ) (fault : Option DbError)
  /-- A strategy publishes its event. -/
  | publish (i : ℕ) (fault : Option DbError)
  /-- A broadcast arrives. -/
  | deliver (i : ℕ)
  | req (limits : Option SubscriptionLimits) (subscriptionId : String)
      (filters : List SubscriptionFilter)
  | close (subscriptionId : String)
  /-- The database answers a query, or fails. -/
  | answer (i : ℕ) (fault : Option DbError) (order : RowOrder)
  /-- A pipeline goes on. -/
  | stream (i : ℕ)
  | leave
  | clientClose

/-- The statement with which a strategy publishes an event. -/
def publishMove (now : ℕ) (fault : Option DbError) (event : PublishedEvent) : Move :=
  match eventStrategyFactory event.toEvent with
  | .replaceable => .upsert fault now { event with deduplication := none }
  | .parameterizedReplaceable =>
      .upsert fault now { event with deduplication := some (deduplicationTag event.toEvent) }
  | .ephemeral => .ephemeral event
  | .delete | .default => .create fault now { event with deduplication := none }

/-- What a move is for the worker. -/
def Clocked.toMove (s : Clocked) : TimedMove → Option Move
  | .tick _ | .receive _ | .notify _ => none
  | .delete i fault => s.accepted[i]?.map fun event =>
      .deleteByPubkeyAndIds fault s.clock.toNat event.pubkey (eventIdsToDelete event.toEvent)
  | .publish i fault => s.accepted[i]?.map (publishMove s.clock.toNat fault)
  | .deliver i => some (.deliver i)
  | .req limits subscriptionId filters => some (.connection (.req limits subscriptionId filters))
  | .close subscriptionId => some (.connection (.close subscriptionId))
  | .answer i fault order => s.world.adapter.queries[i]?.map fun query =>
      .connection (.answer i (findByFilters fault query.filters s.world.db order))
  | .stream i => some (.connection (.stream i))
  | .leave => some (.connection .leave)
  | .clientClose => some (.connection .clientClose)

/-- What a move sends to the client. -/
def sentBy : Move → World → List Outgoing
  | .deliver i, w =>
      match w.announced[i]? with
      | some event => (step (.broadcast event) w.adapter).1
      | none => []
  | .connection action, w => (step action w.adapter).1
  | _, _ => []

/-- The events that are on their way after a move. -/
def Clocked.acceptedAfter (R : Runtime) (s : Clocked) : TimedMove → List PublishedEvent
  | .receive event =>
      if isExpiredEvent R s.clock event.toEvent then s.accepted
      else s.accepted ++ [{ event with expiration := getEventExpiration R event.toEvent }]
  | .notify event => s.accepted ++ [event]
  | .publish i _ => s.accepted.eraseIdx i
  | _ => s.accepted

def TimedMove.seconds : TimedMove → ℕ
  | .tick seconds => seconds
  | _ => 0

/-- The relay as a machine, with what it sends to the client. -/
def timedNext (R : Runtime) (S : Schema) : Mealy.Machine Clocked TimedMove (List Outgoing) :=
  fun move s =>
    ((s.toMove move).elim [] fun m => sentBy m s.world,
      { world := (s.toMove move).elim s.world fun m => (next S m s.world).2
        accepted := s.acceptedAfter R move
        clock := s.clock + move.seconds })

/-- Whatever is sent as an event has not expired at that time. -/
def NeverSendsExpired (R : Runtime) (S : Schema) (moves : List TimedMove) (s : Clocked) : Prop :=
  Mealy.Always (timedNext R S) (fun s move => ∀ subscriptionId event,
    .event subscriptionId event ∈ (timedNext R S move s).1 →
      isExpiredEvent R s.clock event = false) moves s

/-- The pipeline has come to a row of the event: it is not deleted, and the
filters match. -/
def Front (query : StoredQuery) (event : Event) : Prop :=
  ∃ row rows, query.state = .sending (row :: rows) ∧ row.deletedAt = none ∧
    toNostrEvent row = event ∧ isClientSubscribedToEvent query.filters event = true

/-- The event that a move hands to the client: of a broadcast that a
subscription matches, or at the front of a pipeline. -/
def Due (s : Clocked) (event : Event) : TimedMove → Prop
  | .deliver i => s.world.announced[i]? = some event ∧
      ∃ entry ∈ s.world.adapter.subscriptions, isClientSubscribedToEvent entry.2 event = true
  | .stream i => ∃ query, s.world.adapter.queries[i]? = some query ∧ Front query event
  | _ => False

/-! ### What a move sends -/

variable {R : Runtime} {S : Schema} {s : Clocked} {event : Event} {A : Adapter}

/-- What has been sent grows by what a move sends. -/
theorem sent_next (m : Move) (w : World) : (next S m w).2.sent = w.sent ++ sentBy m w := by
  have hcommit : ∀ event result, (w.commit event result).sent = w.sent := by
    rintro event ⟨e | count, db⟩ <;> rfl
  cases m with
  | create fault now event => exact (hcommit _ _).trans (List.append_nil _).symm
  | upsert fault now event => exact (hcommit _ _).trans (List.append_nil _).symm
  | deleteByPubkeyAndIds fault now pubkey ids => exact (List.append_nil _).symm
  | ephemeral event => exact (List.append_nil _).symm
  | deliver i =>
      rcases hevent : w.announced[i]? with - | event
      · simp only [next, sentBy, hevent, List.append_nil]
      · simp only [next, sentBy, hevent]
        rfl
  | connection action => rfl

/-- A pipeline sends what is at its front. -/
theorem event_mem_stream_iff {query : StoredQuery} :
    (∃ id, Outgoing.event id event ∈ query.stream.1) ↔ Front query event := by
  rcases query with ⟨subscriptionId, filters, - | ⟨- | ⟨row, rows⟩⟩ | - | -⟩
  · exact iff_of_false (by rintro ⟨id, ⟨⟩⟩) (by rintro ⟨row, rows, ⟨⟩, -⟩)
  · -- the end of the stored events is no event
    exact iff_of_false (by rintro ⟨id, h⟩; simp [StoredQuery.stream] at h)
      (by rintro ⟨row, rows, ⟨⟩, -⟩)
  · constructor
    · rintro ⟨id, h⟩
      simp only [StoredQuery.stream] at h
      split at h
      · next hlive =>
        obtain ⟨hdeleted, hmatch⟩ := Bool.and_eq_true_iff.mp hlive
        obtain ⟨-, rfl⟩ := Outgoing.event.inj (List.mem_singleton.mp h)
        exact ⟨row, rows, rfl, Option.isNone_iff_eq_none.mp hdeleted, rfl, hmatch⟩
      · cases h
    · rintro ⟨row', rows', hstate, hdeleted, rfl, hmatch⟩
      cases hstate
      refine ⟨subscriptionId, ?_⟩
      simp only [StoredQuery.stream, hdeleted, Option.isNone_none, hmatch, Bool.and_self, if_true]
      exact List.mem_singleton.mpr rfl
  · exact iff_of_false (by rintro ⟨id, ⟨⟩⟩) (by rintro ⟨row, rows, ⟨⟩, -⟩)
  · exact iff_of_false (by rintro ⟨id, ⟨⟩⟩) (by rintro ⟨row, rows, ⟨⟩, -⟩)

/-- A broadcast is sent under each subscription that matches. -/
theorem event_mem_broadcast_iff {event' : Event} :
    (∃ id, Outgoing.event id event ∈ (step (.broadcast event') A).1) ↔
      A.readyState = .opened ∧ event' = event ∧
        ∃ entry ∈ A.subscriptions, isClientSubscribedToEvent entry.2 event = true := by
  constructor
  · rintro ⟨id, h⟩
    simp only [step, Adapter.onBroadcast] at h
    split at h
    · next hopen =>
      obtain ⟨entry, hentry, hsent⟩ := List.mem_flatMap.mp h
      split at hsent
      · next hmatch =>
        obtain ⟨-, hmessage⟩ := Adapter.mem_sendMessages.mp hsent
        obtain ⟨-, rfl⟩ := Outgoing.event.inj (List.mem_singleton.mp hmessage)
        exact ⟨hopen, rfl, entry, hentry, hmatch⟩
      · cases hsent
    · cases h
  · rintro ⟨hopen, rfl, entry, hentry, hmatch⟩
    refine ⟨entry.1, ?_⟩
    rw [step, Adapter.onBroadcast, hopen]
    refine List.mem_flatMap.mpr ⟨entry, hentry, ?_⟩
    rw [if_pos hmatch, Adapter.sendMessages_of_opened hopen]
    exact List.mem_singleton.mpr rfl

theorem sentBy_publishMove (now : ℕ) (fault : Option DbError) (event : PublishedEvent) (w : World) :
    sentBy (publishMove now fault event) w = [] := by
  rw [publishMove]
  split <;> rfl

/-- A `REQ` is answered a notice, if anything. -/
theorem event_not_mem_req {limits : Option SubscriptionLimits} {subscriptionId id : String}
    {filters : List SubscriptionFilter} :
    Outgoing.event id event ∉ (step (.req limits subscriptionId filters) A).1 := by
  by_cases haccepted : Accepted A limits subscriptionId filters
  · rw [step, Adapter.subscribe_of_accepted haccepted]
    exact List.not_mem_nil
  · exact (Adapter.subscribe_of_not_accepted haccepted).2 id event

/-- **What is sent**: the events that are due, on an open socket. -/
theorem event_sent_iff (move : TimedMove) :
    (∃ id, Outgoing.event id event ∈ (timedNext R S move s).1) ↔
      s.world.adapter.readyState = .opened ∧ Due s event move := by
  -- where nothing is sent, nothing is due
  have hnothing : (∀ id, Outgoing.event id event ∉ (timedNext R S move s).1) → ¬ Due s event move →
      ((∃ id, Outgoing.event id event ∈ (timedNext R S move s).1) ↔
        s.world.adapter.readyState = .opened ∧ Due s event move) :=
    fun hsent hdue => iff_of_false (fun ⟨id, h⟩ => hsent id h) fun h => hdue h.2
  cases move with
  | deliver i =>
      simp only [timedNext, Clocked.toMove, Option.elim_some, sentBy, Due]
      rcases hevent : s.world.announced[i]? with - | event'
      · exact iff_of_false (by rintro ⟨id, ⟨⟩⟩) (by rintro ⟨-, ⟨⟩, -⟩)
      · rw [event_mem_broadcast_iff, Option.some.injEq]
  | stream i =>
      simp only [timedNext, Clocked.toMove, Option.elim_some, sentBy, step, Adapter.stream, Due]
      rcases hquery : s.world.adapter.queries[i]? with - | query
      · exact iff_of_false (by rintro ⟨id, ⟨⟩⟩) (by rintro ⟨-, query, ⟨⟩, -⟩)
      · simp only [Adapter.mem_sendMessages, exists_and_left, event_mem_stream_iff,
          Option.some.injEq, exists_eq_left']
  | req limits subscriptionId filters => exact hnothing (fun id => event_not_mem_req) id
  | publish i fault =>
      refine hnothing (fun id => ?_) (fun h => h)
      simp only [timedNext, Clocked.toMove]
      rcases s.accepted[i]? with - | published
      · exact List.not_mem_nil
      · rw [Option.map_some, Option.elim_some, sentBy_publishMove]
        exact List.not_mem_nil
  | delete i fault =>
      refine hnothing (fun id => ?_) (fun h => h)
      simp only [timedNext, Clocked.toMove]
      rcases s.accepted[i]? with - | published
      · exact List.not_mem_nil
      · exact List.not_mem_nil
  | answer i fault order =>
      refine hnothing (fun id => ?_) (fun h => h)
      simp only [timedNext, Clocked.toMove]
      rcases s.world.adapter.queries[i]? with - | query
      · exact List.not_mem_nil
      · exact List.not_mem_nil
  | _ => exact hnothing (fun id => List.not_mem_nil) (fun h => h)

/-! ### Events that outlast the run -/

/-- Every event that the worker holds satisfies `G`, wherever it is. -/
structure World.Holds (G : Event → Prop) (w : World) : Prop where
  rows : ∀ row ∈ w.db.events, G (toNostrEvent row)
  pipelines : ∀ query ∈ w.adapter.queries, ∀ rows, query.state = .sending rows →
    ∀ row ∈ rows, G (toNostrEvent row)
  announced : ∀ event ∈ w.announced, G event

structure Clocked.Holds (G : Event → Prop) (s : Clocked) : Prop where
  world : World.Holds G s.world
  accepted : ∀ event ∈ s.accepted, G event.toEvent

/-- The events that a move brings in: of those that arrive, the ones that have not
expired by then. -/
def Clocked.admitted (R : Runtime) (s : Clocked) : TimedMove → List Event
  | .receive event => if isExpiredEvent R s.clock event.toEvent then [] else [event.toEvent]
  | .notify event => [event.toEvent]
  | _ => []

section

variable {G : Event → Prop} {w : World}

theorem World.Holds.commit {event : Event} {result : Except DbError ℕ × Database}
    (h : World.Holds G w) (hevent : G event)
    (hrows : ∀ row ∈ result.2.events, row ∈ w.db.events ∨ toNostrEvent row = event) :
    World.Holds G (w.commit event result) := by
  have hrows' : ∀ row ∈ result.2.events, G (toNostrEvent row) := by
    intro row hrow
    rcases hrows row hrow with hold | heq
    · exact h.rows row hold
    · exact heq ▸ hevent
  obtain ⟨e | count, db⟩ := result
  · exact ⟨hrows', h.pipelines, h.announced⟩
  · refine ⟨hrows', h.pipelines, fun event' hmem => ?_⟩
    rcases List.mem_append.mp hmem with hold | hnew
    · exact h.announced event' hold
    · -- the strategy announces its event or nothing
      rw [commandResult] at hnew
      split at hnew
      · simp [broadcasts] at hnew
      · obtain rfl : event' = event := by simpa [broadcasts] using hnew
        exact hevent

theorem World.Holds.act {action : Action} (h : World.Holds G w)
    (hanswer : ∀ i rows, action = .answer i (.ok rows) → ∀ row ∈ rows, G (toNostrEvent row)) :
    World.Holds G (w.act action) := by
  refine ⟨h.rows, fun query' hquery' rows hrows => ?_, h.announced⟩
  rcases queries_cases action w.adapter with hsame | ⟨limits, id, filters, -, -, hstarted⟩ |
    ⟨i, query, result, haction, hquery, hanswered⟩ | ⟨i, query, -, hquery, hstreamed⟩
  · exact h.pipelines query' (hsame ▸ hquery') rows hrows
  · rcases List.mem_append.mp (hstarted ▸ hquery') with hold | hnew
    · exact h.pipelines query' hold rows hrows
    · rw [List.mem_singleton.mp hnew] at hrows
      cases hrows
  · rcases List.mem_or_eq_of_mem_set (hanswered ▸ hquery') with hold | rfl
    · exact h.pipelines query' hold rows hrows
    · have hbefore := h.pipelines query (List.mem_of_getElem? hquery)
      rcases query with ⟨subscriptionId, filters, - | rows' | - | -⟩
      · rcases result with e | answered
        · cases hrows
        · obtain rfl : answered = rows := by simpa [StoredQuery.answer] using hrows
          exact hanswer i answered haction
      · rcases result with e | answered
        · cases hrows
        · exact hbefore rows hrows
      · cases hrows
      · cases hrows
  · rcases List.mem_or_eq_of_mem_set (hstreamed ▸ hquery') with hold | rfl
    · exact h.pipelines query' hold rows hrows
    · have hbefore := h.pipelines query (List.mem_of_getElem? hquery)
      rcases query with ⟨subscriptionId, filters, - | ⟨- | ⟨row, rest⟩⟩ | - | -⟩
      · cases hrows
      · cases hrows
      · obtain rfl : rest = rows := by simpa [StoredQuery.stream] using hrows
        exact fun row' hrow' => hbefore _ rfl row' (List.mem_cons_of_mem row hrow')
      · cases hrows
      · cases hrows

theorem World.Holds.create {now : ℕ} {fault : Option DbError} {event : PublishedEvent}
    (h : World.Holds G w) (hevent : G event.toEvent) :
    World.Holds G (next S (.create fault now event) w).2 := by
  have hrows : ∀ row ∈ (Relay.create S fault now event.toIncomingEvent w.db).2.events,
      row ∈ w.db.events ∨ toNostrEvent row = event.toEvent := fun row hrow =>
    (mem_create hrow).imp_right fun hnew => hnew.1.trans event.storedForm_eq
  have hcommit : World.Holds G (w.commit event.toEvent
      (.ok (Relay.create S fault now event.toIncomingEvent w.db).1,
        (Relay.create S fault now event.toIncomingEvent w.db).2)) := h.commit hevent hrows
  exact hcommit

theorem World.Holds.upsert {now : ℕ} {fault : Option DbError} {event : PublishedEvent}
    (h : World.Holds G w) (hevent : G event.toEvent) :
    World.Holds G (next S (.upsert fault now event) w).2 :=
  h.commit hevent fun _ hrow =>
    (mem_upsert hrow).imp_right fun hnew => hnew.1.trans event.storedForm_eq

/-- A strategy adds its own event, if any. -/
theorem World.Holds.publish {now : ℕ} {fault : Option DbError} {event : PublishedEvent}
    (h : World.Holds G w) (hevent : G event.toEvent) :
    World.Holds G (next S (publishMove now fault event) w).2 := by
  rw [publishMove]
  split
  · exact h.upsert hevent
  · exact h.upsert hevent
  · refine ⟨h.rows, h.pipelines, fun event' hmem => ?_⟩
    rcases List.mem_append.mp hmem with hold | hnew
    · exact h.announced event' hold
    · exact List.mem_singleton.mp hnew ▸ hevent
  · exact h.create hevent
  · exact h.create hevent

/-- A row that is marked as deleted holds the same event. -/
theorem World.Holds.delete {now : ℕ} {fault : Option DbError} {pubkey : String} {ids : List String}
    (h : World.Holds G w) :
    World.Holds G (next S (.deleteByPubkeyAndIds fault now pubkey ids) w).2 := by
  refine ⟨fun row hrow => ?_, h.pipelines, h.announced⟩
  rcases deleteByPubkeyAndIds_cases fault now pubkey ids w.db with hsame | hmarked
  · simp only [next, hsame] at hrow
    exact h.rows row hrow
  · simp only [next, hmarked] at hrow
    obtain ⟨old, hold, rfl⟩ := List.mem_map.mp hrow
    rcases markRow_cases now pubkey ids old with ⟨-, heq⟩ | ⟨-, heq⟩
    · rw [heq]
      exact h.rows old hold
    · rw [heq]
      exact h.rows old hold

/-- **A move of the relay** leaves it with the events that it had and those
that the move brings. -/
theorem Clocked.Holds.next {move : TimedMove} (h : s.Holds G)
    (hadmitted : ∀ event ∈ s.admitted R move, G event) : (timedNext R S move s).2.Holds G := by
  obtain ⟨hworld, haccepted⟩ := h
  have hact : ∀ action, (∀ i rows, action ≠ .answer i (.ok rows)) →
      World.Holds G (s.world.act action) :=
    fun action hne => hworld.act fun i rows heq => absurd heq (hne i rows)
  cases move with
  | tick seconds => exact ⟨hworld, haccepted⟩
  | receive event =>
      refine ⟨hworld, fun event' hmem => ?_⟩
      simp only [timedNext, Clocked.acceptedAfter] at hmem
      split at hmem
      · exact haccepted event' hmem
      · next hnew =>
        rcases List.mem_append.mp hmem with hold | hmem
        · exact haccepted event' hold
        · rw [List.mem_singleton.mp hmem]
          refine hadmitted _ ?_
          rw [Clocked.admitted, if_neg hnew]
          exact List.mem_cons_self
  | notify event =>
      refine ⟨hworld, fun event' hmem => ?_⟩
      rcases List.mem_append.mp hmem with hold | hnew
      · exact haccepted event' hold
      · exact List.mem_singleton.mp hnew ▸ hadmitted _ List.mem_cons_self
  | delete i fault =>
      refine ⟨?_, haccepted⟩
      simp only [timedNext, Clocked.toMove]
      rcases s.accepted[i]? with - | event
      · exact hworld
      · exact hworld.delete
  | publish i fault =>
      refine ⟨?_, fun event hmem => haccepted event (List.mem_of_mem_eraseIdx hmem)⟩
      simp only [timedNext, Clocked.toMove]
      rcases hevent : s.accepted[i]? with - | event
      · exact hworld
      · exact hworld.publish (haccepted event (List.mem_of_getElem? hevent))
  | deliver i =>
      refine ⟨?_, haccepted⟩
      simp only [timedNext, Clocked.toMove, Option.elim_some, LiveEvents.next]
      split
      · exact ⟨hworld.rows, hworld.pipelines,
          fun event hmem => hworld.announced event (List.mem_of_mem_eraseIdx hmem)⟩
      · exact hworld
  | answer i fault order =>
      refine ⟨?_, haccepted⟩
      simp only [timedNext, Clocked.toMove]
      rcases s.world.adapter.queries[i]? with - | query
      · exact hworld
      · refine hworld.act ?_
        rintro j rows heq row hrow
        have hrows := findByFilters_ok (Action.answer.inj heq).2
        exact hworld.rows row (mem_events_of_mem_runQuery (hrows ▸ hrow))
  | req limits subscriptionId filters => exact ⟨hact _ (by simp), haccepted⟩
  | close subscriptionId => exact ⟨hact _ (by simp), haccepted⟩
  | stream i => exact ⟨hact _ (by simp), haccepted⟩
  | leave => exact ⟨hact _ (by simp), haccepted⟩
  | clientClose => exact ⟨hact _ (by simp), haccepted⟩

/-- What is due is held. -/
theorem Clocked.Holds.of_due {move : TimedMove} (h : s.Holds G) (hdue : Due s event move) : G event := by
  cases move with
  | deliver i => exact h.world.announced event (List.mem_of_getElem? hdue.1)
  | stream i =>
      obtain ⟨query, hquery, row, rows, hstate, -, rfl, -⟩ := hdue
      exact h.world.pipelines query (List.mem_of_getElem? hquery) _ hstate row List.mem_cons_self
  | _ => exact hdue.elim

end

/-- An event that has not expired yet had not expired before. -/
theorem isExpiredEvent_of_le {t t' : ℤ} (h : isExpiredEvent R t' event = false) (hle : t ≤ t') :
    isExpiredEvent R t event = false := by
  rw [isExpiredEvent] at h ⊢
  rcases hexpiration : getEventExpiration R event with - | expirationTime
  · rfl
  · rw [hexpiration] at h
    simp only [Option.any_some, decide_eq_false_iff_not, not_le] at h ⊢
    omega

theorem clock_le_after (moves : List TimedMove) (s : Clocked) :
    s.clock ≤ (Mealy.after (timedNext R S) moves s).clock := by
  induction moves generalizing s with
  | nil => exact le_rfl
  | cons move moves ih =>
      have hstep : s.clock ≤ (timedNext R S move s).2.clock := by
        simp only [timedNext]
        omega
      exact hstep.trans (ih _)

/-- **The check at the arrival is enough** in runs that end before an event expires
that the worker had at the start or has admitted. -/
theorem neverSendsExpired_of_outlast {moves : List TimedMove} {t : ℤ}
    (hstart : s.Holds fun event => isExpiredEvent R t event = false)
    (hadmitted : Mealy.Always (timedNext R S) (fun s move => ∀ event ∈ s.admitted R move,
      isExpiredEvent R t event = false) moves s)
    (hend : (Mealy.after (timedNext R S) moves s).clock ≤ t) : NeverSendsExpired R S moves s := by
  induction moves generalizing s with
  | nil => trivial
  | cons move moves ih =>
      have hclock : s.clock ≤ t := (clock_le_after (move :: moves) s).trans hend
      refine ⟨fun id event hsent => ?_, ih (hstart.next hadmitted.1) hadmitted.2 hend⟩
      have hdue := ((event_sent_iff move).mp ⟨id, hsent⟩).2
      exact isExpiredEvent_of_le (hstart.of_due hdue) hclock

/-! ### A note for a short time -/

def expirationTexts : Runtime where
  eventHash _ _ := ""
  verify _ _ _ := true
  safeInteger text := if text = "1700000100" then some 1700000100 else none

/-- A note that expires after 100 seconds. -/
def shortLived : PublishedEvent where
  id := "86e50107226a1890472cfdcde525a35858bd0a2d23b23e01695f33009e9bd526"
  pubkey := "f9308a019258c31049344f85f89d5229b531c845836f99b08601f113bce036f9"
  createdAt := 1700000000
  kind := 1
  tags := [["expiration", "1700000100"]]
  content := "for a short time"
  sig := "4540d986540cc3f124016539074e80092c389d726e1f79bafb2f3b54ebbc5d67" ++
    "93308a66dc33e8272d3b2cd6cfa5712a387db3e585c4d478f989be992bad8566"
  remoteAddress := some "::1"
  expiration := none
  deduplication := none
  idSchema := by decide +kernel
  pubkeySchema := by decide +kernel
  signatureSchema := by decide +kernel

/-- An empty relay, with a client. -/
def emptyRelay : Clocked := ⟨⟨⟨[], []⟩, [], connected, []⟩, [], 1700000000⟩

/-- The note is accepted and stored, and somebody asks for notes before it
expires. -/
def askingEarly : List TimedMove :=
  [.receive shortLived, .publish 0 none, .tick 50, .req (some limitsOfClient) "notes" [notes none],
    .answer 0 none tableOrder, .stream 0, .tick 49]

/-- The run ends a second before the note expires. -/
theorem neverSendsExpired_askingEarly :
    NeverSendsExpired expirationTexts flatSchema askingEarly emptyRelay := by
  have hempty : emptyRelay.Holds fun event => isExpiredEvent expirationTexts 1700000099 event = false :=
    ⟨⟨by simp [emptyRelay], by simp [emptyRelay, connected], by simp [emptyRelay]⟩,
      by simp [emptyRelay]⟩
  refine neverSendsExpired_of_outlast hempty ⟨?_, ?_, ?_, ?_, ?_, ?_, ?_, trivial⟩ (by decide)
  · decide +kernel
  all_goals exact fun event hevent => absurd hevent List.not_mem_nil

/-- The note is accepted and stored, and somebody asks for notes after it has
expired. -/
def askingLate : List TimedMove :=
  [.receive shortLived, .publish 0 none, .tick 200, .req (some limitsOfClient) "notes" [notes none],
    .answer 0 none tableOrder, .stream 0]

/-- **A stored event is sent after it has expired.** -/
theorem not_neverSendsExpired_askingLate :
    ¬ NeverSendsExpired expirationTexts flatSchema askingLate emptyRelay := by
  rintro ⟨-, -, -, -, -, hlast, -⟩
  have hexpired := hlast "notes" shortLived.toEvent (by decide +kernel)
  exact absurd hexpired (by decide +kernel)

end NostrMesh.Relay.Expiry
