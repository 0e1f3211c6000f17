/-
NostrMesh/Relay/Resumption.lean

Where the link of a static mirror has no gap.

What the relay stores while the connection is down is asked for when the next
one opens, since `since` lies half a minute before the last event that was
accepted.  Half a minute is enough if events and listeners take no longer, and
if no connection breaks while stored events come in (`nothing_missed`).

The invariant is `NoGap`.  Between two connections it says that what is missing
will be asked for; during one it says that what is missing is part of the answer
or announced, which is the invariant of feeds.
-/
import NostrMesh.Relay.MirrorLink

namespace NostrMesh.Relay.MirrorLink

open Connection
open LiveEvents (World Serves Stays feed serves_next serves_req)
open StaticMirroringWorker (Worker accepts requested)

/-! ### What is missing -/

/-- An event of the relay that the worker should have, but has not received. -/
def Link.Missing (first : ℤ) (filters : List SubscriptionFilter) (L : Link) (event : Event) : Prop :=
  first ≤ event.createdAt ∧ isClientSubscribedToEvent filters event = true ∧
    (∃ row ∈ L.relay.db.events, row.deletedAt = none ∧ toNostrEvent row = event) ∧
    event ∉ L.received

/-- The broadcast of the event, or a message with it, is on its way. -/
def Link.OnItsWay (L : Link) (event : Event) : Prop :=
  event ∈ L.relay.announced ∨ ∃ id, .event id event ∈ L.relay.sent.drop L.read

/-- All stored events have come in. -/
def Link.synced (L : Link) : Bool :=
  match L.phase with
  | .asked id _ => .endOfStoredEvents id ∈ L.relay.sent.take L.read
  | _ => false

/-- The connection may break: it has brought what was stored, or nothing yet. -/
def Link.MayBreak (L : Link) : Prop :=
  L.synced = true ∨ L.read = 0 ∨ ∀ id since, L.phase ≠ .asked id since

/-- What comes in later than the stored events is at most `age` seconds old. -/
def Link.Timely (filters : List SubscriptionFilter) (age : ℕ) (L : Link) : Prop :=
  L.synced = true → ∀ event ∉ L.received, isClientSubscribedToEvent filters event = true →
    L.OnItsWay event → L.clock - age ≤ event.createdAt

/-- What the worker relies on: events are at most `age` seconds old when
they are stored and when they come in; a listener takes at most `latency`
seconds; the relay accepts the subscription, keeps it and answers it in full;
and the connection does not break while stored events come in. -/
def Prompt (S : Schema) (filters : List SubscriptionFilter) (age latency : ℕ) (L : Link)
    (move : Move) : Prop :=
  (next S filters move L).2.Timely filters age ∧
    match move with
    | .relay move =>
        (∀ row ∈ (LiveEvents.next S move L.relay).2.db.events, row ∉ L.relay.db.events →
          row.deletedAt = none → isClientSubscribedToEvent filters (toNostrEvent row) = true →
            L.clock - age ≤ row.eventCreatedAt) ∧
          ∀ id since, L.phase = .asked id since →
            Stays S id (uniqFilters (requested since filters)) 0 L.relay move
    | .request limits => ∀ id since, L.phase = .opened id since →
        Accepted connected limits id (requested since filters)
    | .finish i _ => ∀ listener, L.listeners[i]? = some listener →
        L.clock ≤ listener.startedAt + latency
    | .close => L.MayBreak
    | _ => True

/-! ### The only query of a connection -/

section

variable {S : Schema} {A : Adapter} {query : StoredQuery} {action : Action} {w : World}

/-- A broadcast is no end of stored events. -/
theorem endOfStoredEvents_not_mem_broadcast (A : Adapter) (event : Event) (id : String) :
    .endOfStoredEvents id ∉ A.onBroadcast event := by
  intro hend
  rw [Adapter.onBroadcast] at hend
  split at hend
  · obtain ⟨entry, -, hsent⟩ := List.mem_flatMap.mp hend
    split at hsent
    · obtain ⟨-, hmessage⟩ := Adapter.mem_sendMessages.mp hsent
      simp at hmessage
    · cases hsent
  · cases hend

theorem ended_answer (h : query.state = .ended) (result : Except DbError (List EventRow)) :
    (query.answer result).state = .ended := by
  obtain ⟨id, filters, state⟩ := query
  obtain rfl : state = .ended := h
  rfl

theorem ended_stream (h : query.state = .ended) : query.stream.2.state = .ended := by
  obtain ⟨id, filters, state⟩ := query
  obtain rfl : state = .ended := h
  rfl

theorem ended_of_mem_stream {id : String} (h : .endOfStoredEvents id ∈ query.stream.1) :
    query.stream.2.state = .ended := by
  rcases query with ⟨id, filters, - | ⟨- | ⟨row, rows⟩⟩ | - | -⟩
  · cases h
  · rfl
  · simp only [StoredQuery.stream] at h
    split at h
    · simp at h
    · cases h
  · cases h
  · cases h

/-- If the client does nothing, the query goes on until it has ended. -/
theorem queries_of_not_ofClient (h : A.queries = [query])
    (haction : ofClient (.connection action) = false) :
    ∃ query', (step action A).2.queries = [query'] ∧
      (query.state = .ended → query'.state = .ended) ∧
      ∀ id, .endOfStoredEvents id ∈ (step action A).1 → query'.state = .ended := by
  have hheard : ∀ next : Adapter, next.queries = A.queries → (A.heard next).queries = [query] :=
    fun next hnext => (Adapter.queries_heard hnext).trans h
  cases action with
  | req limits id filters => cases haction
  | close id => cases haction
  | broadcast event =>
      exact ⟨query, h, id, fun id hend => absurd hend (endOfStoredEvents_not_mem_broadcast A event id)⟩
  | answer i result =>
      rcases i with - | i
      · refine ⟨query.answer result, ?_, fun hended => ended_answer hended result,
          fun _ hend => absurd hend List.not_mem_nil⟩
        simp [step, Adapter.answer, Adapter.setQuery, h]
      · refine ⟨query, ?_, id, fun _ hend => absurd hend List.not_mem_nil⟩
        simp [step, Adapter.answer, h]
  | stream i =>
      rcases i with - | i
      · refine ⟨query.stream.2, ?_, ended_stream, fun id hend => ?_⟩
        · simp [step, Adapter.stream, Adapter.setQuery, h]
        · simp only [step, Adapter.stream, h, List.getElem?_cons_zero] at hend
          exact ended_of_mem_stream (Adapter.mem_sendMessages.mp hend).2
      · refine ⟨query, ?_, id, fun id hend => ?_⟩
        · simp [step, Adapter.stream, h]
        · simp [step, Adapter.stream, h] at hend
  | leave => exact ⟨query, hheard _ rfl, id, fun _ hend => absurd hend List.not_mem_nil⟩
  | clientClose => exact ⟨query, h, id, fun _ hend => absurd hend List.not_mem_nil⟩

/-- The same of the relay. -/
theorem queries_next {move : LiveEvents.Move} (h : w.adapter.queries = [query])
    (hmove : ofClient move = false) :
    ∃ query', (LiveEvents.next S move w).2.adapter.queries = [query'] ∧
      (query.state = .ended → query'.state = .ended) ∧
      ∀ id, .endOfStoredEvents id ∈ Expiry.sentBy move w → query'.state = .ended := by
  have hcommit : ∀ event result, (w.commit event result).adapter = w.adapter := by
    rintro event ⟨e | count, db⟩
    · rfl
    · rfl
  cases move with
  | create fault now event => exact ⟨query, (congrArg _ (hcommit _ _)).trans h, id,
      fun _ hend => absurd hend List.not_mem_nil⟩
  | upsert fault now event => exact ⟨query, (congrArg _ (hcommit _ _)).trans h, id,
      fun _ hend => absurd hend List.not_mem_nil⟩
  | deleteByPubkeyAndIds fault now pubkey ids => exact ⟨query, h, id,
      fun _ hend => absurd hend List.not_mem_nil⟩
  | ephemeral event => exact ⟨query, h, id, fun _ hend => absurd hend List.not_mem_nil⟩
  | deliver i =>
      rcases hevent : w.announced[i]? with - | event
      · simp only [LiveEvents.next, Expiry.sentBy, hevent]
        exact ⟨query, h, id, fun _ hend => absurd hend List.not_mem_nil⟩
      · simp only [LiveEvents.next, Expiry.sentBy, hevent]
        exact queries_of_not_ofClient h rfl
  | connection action => exact queries_of_not_ofClient h hmove

end

/-! ### The invariant -/

section

variable (first : ℤ) (filters : List SubscriptionFilter) (age : ℕ)

/-- The next `REQ` will ask for what is missing, also if the listeners that wait
accept their events in time. -/
def Link.Awaits (L : Link) : Prop :=
  ∀ event, L.Missing first filters event →
    L.since ≤ event.createdAt ∧ ∀ listener ∈ L.listeners, listener.startedAt - age ≤ event.createdAt

/-- What is missing is on its way, or part of an answer that has not ended, and
what has come in was received. -/
structure Link.Served (id : String) (since : ℤ) (L : Link) (state : QueryState) : Prop where
  queries : L.relay.adapter.queries = [⟨id, uniqFilters (requested since filters), state⟩]
  covered : (feed id (uniqFilters (requested since filters)) state L.relay).Covered
  ended : .endOfStoredEvents id ∈ L.relay.sent → state = .ended
  read_le : L.read ≤ L.relay.sent.length
  received : ∀ event, .event id event ∈ L.relay.sent.take L.read →
    isClientSubscribedToEvent filters event = true → event ∈ L.received

/-- What a connection promises for the events that are missing. -/
inductive Link.Promises (L : Link) : Phase → Prop
  | closed : L.Awaits first filters age → Promises L .closed
  | opened {id since} : L.Awaits first filters age → since ≤ L.clock - 30 →
      (∀ event, L.Missing first filters event → since ≤ event.createdAt) →
      Promises L (.opened id since)
  | asked {id since} {state : QueryState} : (L.read = 0 → L.Awaits first filters age) →
      since ≤ L.clock - 30 → (∀ event, L.Missing first filters event → since ≤ event.createdAt) →
      L.Served filters id since state → Promises L (.asked id since)

/-- No event is missing for good. -/
structure NoGap (L : Link) : Prop where
  looksBack : L.LooksBack
  startedAt_le : ∀ listener ∈ L.listeners, listener.startedAt ≤ L.clock
  promises : L.Promises first filters age L.phase
  fresh : L.synced = true → ∀ event, L.Missing first filters event → L.clock - age ≤ event.createdAt

end

section

variable {first : ℤ} {filters : List SubscriptionFilter} {age latency : ℕ} {S : Schema} {L L' : Link}
  {event : Event}

/-- Once all stored events have come in, what is missing is on its way. -/
theorem Link.Promises.onItsWay (h : L.Promises first filters age L.phase) (hsynced : L.synced = true)
    (hmissing : L.Missing first filters event) : L.OnItsWay event := by
  rw [Link.synced] at hsynced
  split at hsynced
  swap
  · cases hsynced
  next id since hphase =>
  rw [hphase] at h
  rcases h with - | - | ⟨-, -, hsince, hserved⟩
  obtain rfl := hserved.ended (List.mem_of_mem_take (of_decide_eq_true hsynced))
  have hrecent := hsince _ hmissing
  obtain ⟨-, hmatch, ⟨row, hrow, hdeleted, rfl⟩, hnew⟩ := hmissing
  by_cases hannounced : toNostrEvent row ∈ L.relay.announced
  · exact Or.inl hannounced
  · -- the feed covers the row: its message has been sent, and is still to come in
    have hasked := isClientSubscribedToEvent_requested hmatch hrecent
    have hsent : .event id (toNostrEvent row) ∈ L.relay.sent :=
      hserved.covered.mem_received rfl ⟨hasked, row, hrow, hdeleted, rfl⟩ fun h => hannounced h.2
    rw [← List.take_append_drop L.read L.relay.sent] at hsent
    rcases List.mem_append.mp hsent with htaken | hleft
    · exact absurd (hserved.received _ htaken hmatch) hnew
    · exact Or.inr ⟨id, hleft⟩

/-- A connection may break as long as the next one asks for what is missing. -/
theorem NoGap.awaits (h : NoGap first filters age L) (hage : age ≤ 30) (hbreak : L.MayBreak) :
    L.Awaits first filters age := by
  rcases hbreak with hsynced | hread
  · -- all that was stored has come in, and what is missing is recent
    intro event hmissing
    have hfresh := h.fresh hsynced event hmissing
    have hsince := h.looksBack.le
    refine ⟨by omega, fun listener hlistener => ?_⟩
    have hstarted := h.startedAt_le listener hlistener
    omega
  · have hpromises := h.promises
    rcases hphase : L.phase with - | ⟨id, since⟩ | ⟨id, since⟩ <;> rw [hphase] at hpromises
    · cases hpromises with
      | closed hawaits => exact hawaits
    · cases hpromises with
      | opened hawaits _ _ => exact hawaits
    · cases hpromises with
      | asked hawaits _ _ _ => exact hawaits (hread.resolve_right fun h => h id since hphase)

/-- A step that receives nothing and leaves the connection as it is. -/
theorem Link.Promises.imp {phase : Phase} (h : L.Promises first filters age phase)
    (hclock : L.clock ≤ L'.clock) (hread : L'.read = L.read)
    (hawaits : L.Awaits first filters age → L'.Awaits first filters age)
    (hmissing : ∀ event, L'.Missing first filters event →
      L.Missing first filters event ∨ L.clock - 30 ≤ event.createdAt)
    (hserved : ∀ id since state, phase = .asked id since → L.Served filters id since state →
      ∃ state', L'.Served filters id since state') : L'.Promises first filters age phase := by
  have hasked : ∀ since, since ≤ L.clock - 30 →
      (∀ event, L.Missing first filters event → since ≤ event.createdAt) →
      ∀ event, L'.Missing first filters event → since ≤ event.createdAt := by
    intro since hle hold event hnew
    rcases hmissing event hnew with hmissing | hfresh
    · exact hold event hmissing
    · omega
  rcases h with hold | ⟨hold, hle, hsince⟩ | ⟨hold, hle, hsince, hold'⟩
  · exact .closed (hawaits hold)
  · exact .opened (hawaits hold) (by omega) (hasked _ hle hsince)
  · obtain ⟨state', hnew⟩ := hserved _ _ _ rfl hold'
    exact .asked (fun hzero => hawaits (hold (hread ▸ hzero))) (by omega) (hasked _ hle hsince) hnew

/-! ### One step -/

/-- A step keeps the invariant if it keeps the promises, and if the relay is
prompt after it. -/
theorem NoGap.of_promises (hsince : L'.LooksBack)
    (hstarted : ∀ listener ∈ L'.listeners, listener.startedAt ≤ L'.clock)
    (hpromises : L'.Promises first filters age L'.phase)
    (htimely : L'.Timely filters age) : NoGap first filters age L' where
  looksBack := hsince
  startedAt_le := hstarted
  promises := hpromises
  fresh hsynced event hmissing :=
    htimely hsynced event hmissing.2.2.2 hmissing.2.1 (hpromises.onItsWay hsynced hmissing)

theorem promises_tick (h : NoGap first filters age L) (seconds : ℕ) :
    Link.Promises first filters age { L with clock := L.clock + seconds } L.phase :=
  h.promises.imp (by dsimp only; omega) rfl id (fun _ => Or.inl) fun _ _ state _ hserved =>
    ⟨state, hserved.queries, hserved.covered, hserved.ended, hserved.read_le, hserved.received⟩

/-- The query of the connection goes on. -/
theorem Link.Served.relay {id : String} {since : ℤ} {state : QueryState}
    (h : L.Served filters id since state) {move : LiveEvents.Move} (hmove : ofClient move = false)
    (hstays : Stays S id (uniqFilters (requested since filters)) 0 L.relay move) :
    ∃ state', Link.Served filters id since { L with relay := (LiveEvents.next S move L.relay).2 }
      state' := by
  have hquery : L.relay.adapter.queries[0]? =
      some ⟨id, uniqFilters (requested since filters), state⟩ := by
    rw [h.queries]
    rfl
  -- the feed stays covered, and the query is the only one of the connection
  obtain ⟨state', hquery', hcovered⟩ := serves_next ⟨state, hquery, h.covered⟩ hstays
  obtain ⟨query', hqueries, hkept, hended⟩ := queries_next (S := S) h.queries hmove
  rw [hqueries] at hquery'
  obtain rfl : query' = _ := Option.some.inj hquery'
  have hsent := Expiry.sent_next (S := S) move L.relay
  refine ⟨state', hqueries, hcovered, fun hend => ?_, ?_, fun event hevent => ?_⟩
  · rw [hsent] at hend
    rcases List.mem_append.mp hend with hold | hnew
    · exact hkept (h.ended hold)
    · exact hended id hnew
  · show L.read ≤ (LiveEvents.next S move L.relay).2.sent.length
    rw [hsent, List.length_append]
    exact h.read_le.trans (Nat.le_add_right _ _)
  · rw [hsent, List.take_append_of_le_length h.read_le] at hevent
    exact h.received event hevent

theorem promises_relay (h : NoGap first filters age L) (hage : age ≤ 30) {move : LiveEvents.Move}
    (hmove : ofClient move = false)
    (hfresh : ∀ row ∈ (LiveEvents.next S move L.relay).2.db.events, row ∉ L.relay.db.events →
      row.deletedAt = none → isClientSubscribedToEvent filters (toNostrEvent row) = true →
        L.clock - age ≤ row.eventCreatedAt)
    (hstays : ∀ id since, L.phase = .asked id since →
      Stays S id (uniqFilters (requested since filters)) 0 L.relay move) :
    Link.Promises first filters age { L with relay := (LiveEvents.next S move L.relay).2 } L.phase := by
  have hmissing : ∀ event,
      Link.Missing first filters { L with relay := (LiveEvents.next S move L.relay).2 } event →
        L.Missing first filters event ∨ L.clock - age ≤ event.createdAt := by
    rintro event ⟨hfirst, hmatch, ⟨row, hrow, hdeleted, rfl⟩, hnew⟩
    -- a row that is new is recent
    by_cases hold : row ∈ L.relay.db.events
    · exact Or.inl ⟨hfirst, hmatch, ⟨row, hold, hdeleted, rfl⟩, hnew⟩
    · exact Or.inr (hfresh row hrow hold hdeleted hmatch)
  refine h.promises.imp le_rfl rfl (fun hawaits event hevent => ?_) (fun event hevent => ?_) ?_
  · rcases hmissing event hevent with hold | hrecent
    · exact hawaits event hold
    · have hsince := h.looksBack.le
      refine ⟨show L.since ≤ _ by omega, fun listener hlistener => ?_⟩
      have hstarted := h.startedAt_le listener hlistener
      omega
  · exact (hmissing event hevent).imp_right fun hrecent => by omega
  · exact fun id since state hphase hserved => hserved.relay hmove (hstays id since hphase)

/-- A listener that accepts its event moves `since`, but not past what is
missing between two connections. -/
theorem promises_finish (h : NoGap first filters age L) (htime : age + latency ≤ 30)
    {listener : Listener} (hlistener : listener ∈ L.listeners)
    (hlatency : L.clock ≤ listener.startedAt + latency) {listeners : List Listener}
    (hrest : ∀ l ∈ listeners, l ∈ L.listeners) (W : Worker) :
    Link.Promises first filters age { L with
      since := if accepts W listener.event then L.clock - 30 else L.since
      listeners := listeners } L.phase := by
  refine h.promises.imp le_rfl rfl (fun hawaits event hmissing => ?_) (fun _ => Or.inl)
    fun _ _ state _ hserved => ⟨state, hserved.queries, hserved.covered, hserved.ended,
      hserved.read_le, hserved.received⟩
  -- half a minute covers the age of the events and the time of the listener
  obtain ⟨hsince, hstarted⟩ := hawaits event hmissing
  have hbefore := hstarted listener hlistener
  refine ⟨?_, fun l hl => hstarted l (hrest l hl)⟩
  dsimp only
  split_ifs
  · omega
  · exact hsince

theorem promises_message (h : NoGap first filters age L) {id : String} {since : ℤ}
    (hphase : L.phase = .asked id since) {message : Outgoing}
    (hmessage : L.relay.sent[L.read]? = some message) {listeners : List Listener}
    {received : List Event} (hkept : ∀ event ∈ L.received, event ∈ received)
    (hreceived : ∀ event, message = .event id event → isClientSubscribedToEvent filters event = true →
      event ∈ received) :
    Link.Promises first filters age
      { L with read := L.read + 1, listeners := listeners, received := received } L.phase := by
  have hpromises := h.promises
  rw [hphase] at hpromises ⊢
  cases hpromises with
  | asked _ hle hsince hserved =>
      have hmissing : ∀ event, Link.Missing first filters
          { L with read := L.read + 1, listeners := listeners, received := received } event →
            L.Missing first filters event :=
        fun event ⟨hfirst, hmatch, hstored, hnew⟩ =>
          ⟨hfirst, hmatch, hstored, fun hold => hnew (hkept event hold)⟩
      have hlt : L.read < L.relay.sent.length := (List.getElem?_eq_some_iff.mp hmessage).1
      refine .asked (fun hread => by cases hread) hle
        (fun event hevent => hsince event (hmissing event hevent))
        ⟨hserved.queries, hserved.covered, hserved.ended, hlt, fun event hevent hmatch => ?_⟩
      rw [List.take_add_one, hmessage] at hevent
      rcases List.mem_append.mp hevent with hold | hnew
      · exact hkept event (hserved.received event hold hmatch)
      · exact hreceived event (List.mem_singleton.mp hnew).symm hmatch

/-- The `REQ` starts a query on the new connection. -/
theorem promises_request (h : NoGap first filters age L) {id : String} {since : ℤ}
    (hphase : L.phase = .opened id since) {limits : Option SubscriptionLimits}
    (haccepted : Accepted connected limits id (requested since filters)) :
    Link.Promises first filters age { L with
      phase := .asked id since
      relay := { L.relay with adapter := connected, sent := [] }.act
        (.req limits id (requested since filters))
      read := 0 } (.asked id since) := by
  have hpromises := h.promises
  rw [hphase] at hpromises
  cases hpromises with
  | opened hawaits hle hsince =>
      have hact : ({ L.relay with adapter := connected, sent := [] } : World).act
          (.req limits id (requested since filters)) = { L.relay with
            adapter := (connected.onSubscribed id (uniqFilters (requested since filters))).fetch id
              (uniqFilters (requested since filters))
            sent := [] } := by
        rw [World.act, step, Adapter.subscribe_of_accepted haccepted, Adapter.heard_of_opened rfl]
        rfl
      rw [hact]
      exact @Link.Promises.asked first filters age _ id since .waiting (fun _ => hawaits) hle hsince
        ⟨rfl, Feed.covered_of_rest_eq_none rfl, fun hend => absurd hend List.not_mem_nil, le_rfl,
          fun _ hread => absurd hread List.not_mem_nil⟩

/-- **Every step keeps the invariant** while the relay and the listeners are
prompt. -/
theorem NoGap.step (h : NoGap first filters age L) (htime : age + latency ≤ 30) {move : Move}
    (hprompt : Prompt S filters age latency L move) :
    NoGap first filters age (next S filters move L).2 := by
  obtain ⟨htimely, howed⟩ := hprompt
  have hchange : Change S filters L move (next S filters move L).2 := change_next move
  have hlooksBack := h.looksBack.change hchange
  generalize (next S filters move L).2 = L' at hchange htimely hlooksBack ⊢
  have hpromises := h.promises
  cases hchange with
  | idle => exact h
  | @tick seconds =>
      refine .of_promises hlooksBack (fun listener hlistener => ?_) (promises_tick h seconds) htimely
      have := h.startedAt_le listener hlistener
      show listener.startedAt ≤ L.clock + seconds
      omega
  | relay hmove =>
      obtain ⟨hfresh, hstays⟩ := howed
      exact .of_promises hlooksBack h.startedAt_le (promises_relay h (by omega) hmove hfresh hstays)
        htimely
  | connect hphase =>
      rw [hphase] at hpromises
      cases hpromises with
      | closed hawaits =>
          exact .of_promises hlooksBack h.startedAt_le
            (.opened hawaits h.looksBack.le fun event hevent => (hawaits event hevent).1) htimely
  | request hphase =>
      exact .of_promises hlooksBack h.startedAt_le (promises_request h hphase (howed _ _ hphase))
        htimely
  | message hphase hmessage hlisteners hkept hnew hreceived =>
      refine .of_promises hlooksBack (fun listener hlistener => ?_)
        (promises_message h hphase hmessage hkept hreceived) htimely
      rcases hlisteners listener hlistener with hold | hstarted
      · exact h.startedAt_le listener hold
      · exact hstarted.le
  | @finish i W listener hlistener =>
      have hrest : ∀ l ∈ L.listeners.eraseIdx i, l ∈ L.listeners := fun l => List.mem_of_mem_eraseIdx
      exact .of_promises hlooksBack (fun l hl => h.startedAt_le l (hrest l hl))
        (promises_finish h htime (List.mem_of_getElem? hlistener) (howed listener hlistener) hrest W)
        htimely
  | close =>
      exact .of_promises hlooksBack h.startedAt_le (.closed (h.awaits (by omega) howed)) htimely

/-! ### Any run -/

/-- **Nothing is missed**, from ten minutes before the worker started, if events
and listeners together take no longer than half a minute: between two
connections, the next one will ask for what is missing, and once a connection
has brought the stored events, what is missing is on its way. -/
theorem nothing_missed {clock : ℤ} {relay : World} {moves : List Move} (htime : age + latency ≤ 30)
    (hprompt : Mealy.Always (next S filters) (Prompt S filters age latency) moves
      (created clock relay))
    (hmissing : (Mealy.after (next S filters) moves (created clock relay)).Missing (clock - 60 * 10)
      filters event) :
    ((Mealy.after (next S filters) moves (created clock relay)).phase = .closed →
      (Mealy.after (next S filters) moves (created clock relay)).since ≤ event.createdAt) ∧
    ((Mealy.after (next S filters) moves (created clock relay)).synced = true →
      (Mealy.after (next S filters) moves (created clock relay)).OnItsWay event) := by
  have hcreated : NoGap (clock - 60 * 10) filters age (created clock relay) := by
    exact ⟨looksBack_created clock relay, nofun, .closed fun event hmissing => ⟨hmissing.1, nofun⟩,
      nofun⟩
  have hgap := hprompt.invariant_after (fun _ _ hinv => hinv.step htime) hcreated
  refine ⟨fun hclosed => ?_, fun hsynced => hgap.promises.onItsWay hsynced hmissing⟩
  have hpromises := hgap.promises
  rw [hclosed] at hpromises
  cases hpromises with
  | closed hawaits => exact (hawaits event hmissing).1

end

/-! ### A link that resumes -/

/-- A relay with one note. -/
def noteRelay : World := ⟨⟨[olderRow], []⟩, [], connected, []⟩

/-- The note comes in and is accepted, the connection breaks, and another note is
published. -/
def resuming : List Move :=
  [.connect "mirror-1", .request (some LiveEvents.limitsOfClient),
    .relay (.connection (.answer 0 (.ok [olderRow]))), .relay (.connection (.stream 0)),
    .relay (.connection (.stream 0)), .message,
    .finish 0 (StaticMirroringWorker.openWorker [olderNote.toEvent]), .message, .close,
    .relay (.create none 0 LiveEvents.publishedNote)]

theorem prompt_resuming : Mealy.Always (next flatSchema noteFilters)
    (Prompt flatSchema noteFilters 20 10) resuming (created 1700000010 noteRelay) := by
  have hearly : ∀ {L : Link}, L.synced = false → L.Timely noteFilters 20 := by
    intro L h hsynced
    rw [h] at hsynced
    cases hsynced
  refine ⟨⟨hearly rfl, trivial⟩, ⟨hearly rfl, ?_⟩,
    ⟨hearly rfl, fun row hrow hnew => absurd hrow hnew, ?_⟩,
    ⟨hearly rfl, fun row hrow hnew => absurd hrow hnew, ?_⟩,
    ⟨hearly rfl, fun row hrow hnew => absurd hrow hnew, ?_⟩, ⟨hearly rfl, trivial⟩,
    ⟨hearly rfl, ?_⟩, ⟨fun _ event _ _ hway => ?_, trivial⟩, ⟨hearly rfl, Or.inl rfl⟩,
    ⟨hearly rfl, by decide +kernel, nofun⟩, trivial⟩
  · rintro id since ⟨⟩
    decide +kernel
  · rintro id since ⟨⟩
    refine ⟨rfl, rfl, ?_⟩
    -- the answer of the database is the one note
    rintro rows ⟨⟩ -
    decide +kernel
  · rintro id since ⟨⟩
    exact ⟨rfl, rfl, nofun⟩
  · rintro id since ⟨⟩
    exact ⟨rfl, rfl, nofun⟩
  · rintro listener ⟨⟩
    decide
  · -- nothing is on its way
    rcases hway with hannounced | ⟨id, hsent⟩
    · cases hannounced
    · cases hsent

/-- The other note will be asked for. -/
theorem nothing_missed_resuming :
    (Mealy.after (next flatSchema noteFilters) resuming (created 1700000010 noteRelay)).since ≤
      newerNote.createdAt := by
  have hmissing : (Mealy.after (next flatSchema noteFilters) resuming
      (created 1700000010 noteRelay)).Missing 1699999410 noteFilters newerNote.toEvent :=
    ⟨by decide, by decide +kernel, ⟨newerRow, List.mem_cons_of_mem _ List.mem_cons_self, rfl,
      by decide +kernel⟩, by decide +kernel⟩
  exact (nothing_missed (by decide) prompt_resuming hmissing).1 rfl

end NostrMesh.Relay.MirrorLink
