/-
NostrMesh/Relay/Connection.lean

One client connection of the relay: its subscriptions, the stored queries
that run for them, and what is sent to the client.

A handler is cut at its awaits.  `REQ` registers the subscription and starts
the stored query in one step; the database answers the query in another, and
each row that the pipeline takes through is a step of its own.  In between the
map of the subscriptions may change, while the query keeps the filters that it
was started with.

A query keeps its place in the list, also when it has ended.
-/
import NostrMesh.Lib.Keyed
import NostrMesh.Lib.Mealy
import NostrMesh.Relay.Subscription

namespace NostrMesh.Relay.Connection

/-! ### State -/

/-- What is sent to the client. -/
inductive Outgoing
  | notice (notice : String)
  | event (subscriptionId : String) (event : Event)
  | endOfStoredEvents (subscriptionId : String)
  deriving DecidableEq, Repr

/-- How far a stored query is: the database has not answered, or these rows
are still in the pipeline, or the pipeline is through, or it threw. -/
inductive QueryState
  | waiting
  | sending (rows : List EventRow)
  | ended
  | failed
  deriving DecidableEq, Repr

/-- A stored query, with the filters that it was started with. -/
structure StoredQuery where
  subscriptionId : String
  filters : List SubscriptionFilter
  state : QueryState
  deriving DecidableEq, Repr

/-- `readyState` of the socket, from the time that the adapter is made. -/
inductive ReadyState
  | opened
  | closing
  | closed
  deriving DecidableEq, Repr

/-- `WebSocketAdapter`, as far as subscriptions go. -/
structure Adapter where
  readyState : ReadyState
  /-- The map of the subscriptions, in the order of insertion. -/
  subscriptions : List (String × List SubscriptionFilter)
  queries : List StoredQuery
  deriving DecidableEq, Repr

/-- A client that has connected. -/
def connected : Adapter := ⟨.opened, [], []⟩

/-- `settings().limits?.client?.subscription`. -/
structure SubscriptionLimits where
  maxSubscriptions : Option ℤ
  maxFilters : Option ℤ
  maxSubscriptionIdLength : Option ℤ
  deriving DecidableEq, Repr

/-! ### Filters -/

/-- `equals` does not mind the order of the keys of an object. -/
def equalFilters (f g : SubscriptionFilter) : Bool :=
  f.ids = g.ids && f.authors = g.authors && f.kinds = g.kinds && f.since = g.since &&
    f.untilTime = g.untilTime && f.limit = g.limit && f.tags.isPerm g.tags

/-- `uniqWith(equals, filters)`. -/
def uniqFilters (filters : List SubscriptionFilter) : List SubscriptionFilter :=
  filters.foldl (fun kept f => if kept.any (equalFilters f) then kept else kept ++ [f]) []

/-- `equals(filters, existingSubscription)`. -/
def equalSubscriptions : List SubscriptionFilter → List SubscriptionFilter → Bool
  | [], [] => true
  | f :: fs, g :: gs => equalFilters f g && equalSubscriptions fs gs
  | _, _ => false

/-- `anyPass(map(isEventMatchingFilter)(filters))`. -/
def isClientSubscribedToEvent (filters : List SubscriptionFilter) (event : Event) : Bool :=
  filters.any fun filter => isEventMatchingFilter filter event

/-! ### Stored queries -/

namespace StoredQuery

/-- The database answers a query, or raises an error; an error may also come
while rows are in the pipeline. -/
def answer (query : StoredQuery) (result : Except DbError (List EventRow)) : StoredQuery :=
  match query.state, result with
  | .waiting, .ok rows => { query with state := .sending rows }
  | .waiting, .error _ => { query with state := .failed }
  | .sending _, .error _ => { query with state := .failed }
  | _, _ => query

/-- One row through the pipeline, or its end. -/
def stream (query : StoredQuery) : List Outgoing × StoredQuery :=
  match query.state with
  | .sending (row :: rows) =>
      (if row.deletedAt.isNone && isClientSubscribedToEvent query.filters (toNostrEvent row) then
        [.event query.subscriptionId (toNostrEvent row)] else [],
        { query with state := .sending rows })
  | .sending [] => ([.endOfStoredEvents query.subscriptionId], { query with state := .ended })
  | _ => ([], query)

end StoredQuery

namespace Adapter

variable (A : Adapter)

/-! ### The adapter -/

/-- `subscriptions.get(subscriptionId)`. -/
def registered (subscriptionId : String) : Option (List SubscriptionFilter) :=
  (Keyed.lookup Prod.fst subscriptionId A.subscriptions).map Prod.snd

def onSubscribed (subscriptionId : String) (filters : List SubscriptionFilter) : Adapter :=
  let entry := (subscriptionId, filters)
  { A with subscriptions := Keyed.upsert Prod.fst entry (fun _ => entry) A.subscriptions }

def onUnsubscribed (subscriptionId : String) : Adapter :=
  { A with subscriptions := Keyed.delete Prod.fst subscriptionId A.subscriptions }

/-- What the client gets of these messages. -/
def sendMessages (messages : List Outgoing) : List Outgoing :=
  match A.readyState with
  | .opened => messages
  | _ => []

def onSendEvent (event : Event) : List Outgoing :=
  A.subscriptions.flatMap fun entry =>
    if isClientSubscribedToEvent entry.2 event then A.sendMessages [.event entry.1 event] else []

/-- What `onBroadcast` of the server does for this client. -/
def onBroadcast (event : Event) : List Outgoing :=
  match A.readyState with
  | .opened => A.onSendEvent event
  | _ => []

/-- The handlers that run are told to abort, which does nothing. -/
def onClientClose : Adapter := { A with readyState := .closed, subscriptions := [] }

/-- The adapter without listeners: `onClientClose` has removed them all, and
nothing that is emitted to the adapter is heard. -/
def heard (next : Adapter) : Adapter :=
  match A.readyState with
  | .closed => A
  | _ => next

/-! ### `SubscribeMessageHandler` -/

/-- The reason for a rejection, if there is one.  Without limits the last check
reads a property of `undefined`. -/
def canSubscribe (limits : Option SubscriptionLimits) (subscriptionId : String)
    (filters : List SubscriptionFilter) : Except String (Option String) :=
  let existing := (A.registered subscriptionId).getD []
  let maxSubscriptions := (limits.bind SubscriptionLimits.maxSubscriptions).getD 0
  let maxFilters := (limits.bind SubscriptionLimits.maxFilters).getD 0
  -- a subscription that replaces another one does not count as a new one
  if existing ≠ [] ∧ equalSubscriptions filters existing then
    .ok (some ("Duplicate subscription " ++ subscriptionId ++ ": Ignoring"))
  else if 0 < maxSubscriptions ∧ existing = [] ∧ maxSubscriptions < A.subscriptions.length + 1 then
    .ok (some ("Too many subscriptions: Number of subscriptions must be less than or equal to " ++
      toString maxSubscriptions))
  else if 0 < maxFilters ∧ maxFilters < filters.length then
    .ok (some ("Too many filters: Number of filters per susbscription must be less then or equal to "
      ++ toString maxFilters))
  else
    match limits with
    | none => .error "Cannot read properties of undefined (reading 'maxSubscriptionIdLength')"
    | some limits =>
        match limits.maxSubscriptionIdLength.filter fun length =>
            length < (Js.length subscriptionId : ℤ) with
        | some length =>
            .ok (some ("Subscription ID too long: Subscription ID must be less or equal to " ++
              toString length))
        | none => .ok none

/-- `findByFilters(filters).stream()`. -/
def fetch (subscriptionId : String) (filters : List SubscriptionFilter) : Adapter :=
  { A with queries := A.queries ++ [⟨subscriptionId, filters, .waiting⟩] }

/-- `handleMessage` up to the query.  What it throws is not told to the client. -/
def subscribe (limits : Option SubscriptionLimits) (subscriptionId : String)
    (message : List SubscriptionFilter) : List Outgoing × Adapter :=
  let filters := uniqFilters message
  match A.canSubscribe limits subscriptionId filters with
  | .error _ => ([], A)
  | .ok (some reason) => (A.sendMessages [.notice ("Subscription rejected: " ++ reason)], A)
  | .ok none =>
      -- the query is started also where nobody listens any more
      ([], (A.heard (A.onSubscribed subscriptionId filters)).fetch subscriptionId filters)

/-- Puts a query back in its place. -/
def setQuery (i : ℕ) (query : StoredQuery) : Adapter := { A with queries := A.queries.set i query }

/-- The database answers the query in this place. -/
def answer (i : ℕ) (result : Except DbError (List EventRow)) : Adapter :=
  match A.queries[i]? with
  | some query => A.setQuery i (query.answer result)
  | none => A

/-- The pipeline of the query in this place goes on. -/
def stream (i : ℕ) : List Outgoing × Adapter :=
  match A.queries[i]? with
  | some query => (A.sendMessages query.stream.1, A.setQuery i query.stream.2)
  | none => ([], A)

end Adapter

/-! ### Steps -/

inductive Action
  | req (limits : Option SubscriptionLimits) (subscriptionId : String)
      (filters : List SubscriptionFilter)
  | close (subscriptionId : String)
  | broadcast (event : Event)
  | answer (i : ℕ) (result : Except DbError (List EventRow))
  | stream (i : ℕ)
  /-- The socket begins to close. -/
  | leave
  | clientClose

/-- The connection as a machine. -/
def step : Mealy.Machine Adapter Action (List Outgoing)
  | .req limits subscriptionId filters, A => A.subscribe limits subscriptionId filters
  | .close subscriptionId, A => ([], A.heard (A.onUnsubscribed subscriptionId))
  | .broadcast event, A => (A.onBroadcast event, A)
  | .answer i result, A => ([], A.answer i result)
  | .stream i, A => A.stream i
  | .leave, A => ([], A.heard { A with readyState := .closing })
  | .clientClose, A => ([], A.onClientClose)

/-- A `REQ` that is not rejected. -/
def Accepted (A : Adapter) (limits : Option SubscriptionLimits) (subscriptionId : String)
    (filters : List SubscriptionFilter) : Prop :=
  A.canSubscribe limits subscriptionId (uniqFilters filters) = .ok none

instance (A : Adapter) (limits : Option SubscriptionLimits) (subscriptionId : String)
    (filters : List SubscriptionFilter) : Decidable (Accepted A limits subscriptionId filters) :=
  inferInstanceAs (Decidable (_ = _))

/-- The event is one that the client asks for under this id. -/
def AsksFor (A : Adapter) (subscriptionId : String) (event : Event) : Prop :=
  ∃ filters, A.registered subscriptionId = some filters ∧
    isClientSubscribedToEvent filters event = true

/-! ### What a query may still send -/

/-- The row is still to come, as far as the query knows. -/
def QueryState.MayHold (row : EventRow) : QueryState → Prop
  | .waiting => True
  | .sending rows => row ∈ rows
  | .ended => False
  | .failed => False

/-- The query may still send the event. -/
def StoredQuery.MaySend (query : StoredQuery) (event : Event) : Prop :=
  isClientSubscribedToEvent query.filters event = true ∧
    ∃ row : EventRow, row.deletedAt = none ∧ toNostrEvent row = event ∧ query.state.MayHold row

/-- A later state of a query. -/
structure StoredQuery.Continues (query' query : StoredQuery) : Prop where
  subscriptionId : query'.subscriptionId = query.subscriptionId
  filters : query'.filters = query.filters
  mayHold : ∀ row, query'.state.MayHold row → query.state.MayHold row

section

variable {query query' : StoredQuery} {event : Event} {subscriptionId : String}

theorem StoredQuery.Continues.refl (query : StoredQuery) : query.Continues query :=
  ⟨rfl, rfl, fun _ => id⟩

theorem StoredQuery.Continues.maySend (h : query'.Continues query) (hsend : query'.MaySend event) :
    query.MaySend event := by
  obtain ⟨hmatch, row, hrow, hevent, hhold⟩ := hsend
  exact ⟨h.filters ▸ hmatch, row, hrow, hevent, h.mayHold row hhold⟩

theorem StoredQuery.continues_answer (query : StoredQuery)
    (result : Except DbError (List EventRow)) : (query.answer result).Continues query := by
  rcases query with ⟨subscriptionId, filters, - | rows | - | -⟩
  · cases result with
    | ok rows => exact ⟨rfl, rfl, fun _ _ => trivial⟩
    | error e => exact ⟨rfl, rfl, fun _ => False.elim⟩
  · cases result with
    | ok rows => exact .refl _
    | error e => exact ⟨rfl, rfl, fun _ => False.elim⟩
  · exact .refl _
  · exact .refl _

theorem StoredQuery.continues_stream (query : StoredQuery) : query.stream.2.Continues query := by
  rcases query with ⟨subscriptionId, filters, - | ⟨- | ⟨row, rows⟩⟩ | - | -⟩
  · exact .refl _
  · exact ⟨rfl, rfl, fun _ => False.elim⟩
  · exact ⟨rfl, rfl, fun _ => List.mem_cons_of_mem row⟩
  · exact .refl _
  · exact .refl _

/-- What the pipeline sends, the query could send. -/
theorem StoredQuery.maySend_of_mem_stream
    (h : Outgoing.event subscriptionId event ∈ query.stream.1) :
    query.subscriptionId = subscriptionId ∧ query.MaySend event := by
  rcases query with ⟨id, filters, - | ⟨- | ⟨row, rows⟩⟩ | - | -⟩
  · cases h
  · -- the end of the stored events is no event
    simp [stream] at h
  · simp only [stream] at h
    split at h
    · next hrow =>
      obtain ⟨hdeleted, hmatch⟩ := Bool.and_eq_true_iff.mp hrow
      obtain ⟨rfl, rfl⟩ := Outgoing.event.inj (List.mem_singleton.mp h)
      exact ⟨rfl, hmatch, row, Option.isNone_iff_eq_none.mp hdeleted, rfl, List.mem_cons_self⟩
    · cases h
  · cases h
  · cases h

end

/-! ### What a step does -/

section

variable {A : Adapter} {action : Action} {subscriptionId : String} {event : Event}

theorem Adapter.heard_of_opened (h : A.readyState = .opened) (next : Adapter) :
    A.heard next = next := by
  rw [Adapter.heard, h]

theorem Adapter.sendMessages_of_opened (h : A.readyState = .opened) (messages : List Outgoing) :
    A.sendMessages messages = messages := by
  rw [Adapter.sendMessages, h]

/-- A client gets messages while its socket is open, and the messages that
were meant for it. -/
theorem Adapter.mem_sendMessages {message : Outgoing} {messages : List Outgoing} :
    message ∈ A.sendMessages messages ↔ A.readyState = .opened ∧ message ∈ messages := by
  rw [Adapter.sendMessages]
  rcases A.readyState with - | - | -
  · simp
  · simp
  · simp

theorem Adapter.registered_onSubscribed (A : Adapter) (subscriptionId id : String)
    (filters : List SubscriptionFilter) : (A.onSubscribed subscriptionId filters).registered id =
      if id = subscriptionId then some filters else A.registered id := by
  rw [Adapter.registered, Adapter.onSubscribed, Keyed.lookup_upsert _ fun _ _ => rfl]
  split
  · cases Keyed.lookup Prod.fst subscriptionId A.subscriptions <;> rfl
  · rfl

theorem Adapter.registered_onUnsubscribed (A : Adapter) (subscriptionId id : String) :
    (A.onUnsubscribed subscriptionId).registered id =
      if id = subscriptionId then none else A.registered id := by
  rw [Adapter.registered, Adapter.onUnsubscribed, Keyed.lookup_delete]
  split
  · rfl
  · rfl

/-- What the map holds is registered. -/
theorem Adapter.registered_of_mem {filters : List SubscriptionFilter}
    (hnodup : (A.subscriptions.map Prod.fst).Nodup)
    (h : (subscriptionId, filters) ∈ A.subscriptions) :
    A.registered subscriptionId = some filters := by
  rw [Adapter.registered, Keyed.lookup_of_mem hnodup h]
  rfl

theorem Adapter.mem_of_registered {filters : List SubscriptionFilter}
    (h : A.registered subscriptionId = some filters) :
    (subscriptionId, filters) ∈ A.subscriptions := by
  obtain ⟨⟨id, filters'⟩, hlookup, rfl⟩ := Option.map_eq_some_iff.mp h
  obtain rfl := Keyed.key_of_lookup hlookup
  exact Keyed.mem_of_lookup hlookup

/-- A `REQ` that is not accepted changes nothing. -/
theorem Adapter.subscribe_of_not_accepted {limits : Option SubscriptionLimits}
    {filters : List SubscriptionFilter} (h : ¬ Accepted A limits subscriptionId filters) :
    (A.subscribe limits subscriptionId filters).2 = A ∧
      ∀ id event, Outgoing.event id event ∉ (A.subscribe limits subscriptionId filters).1 := by
  rw [Accepted] at h
  rw [Adapter.subscribe]
  rcases e : A.canSubscribe limits subscriptionId (uniqFilters filters) with t | - | reason
  · exact ⟨rfl, fun _ _ => List.not_mem_nil⟩
  · exact absurd e h
  · refine ⟨rfl, fun id event hmem => ?_⟩
    have hnotice := (Adapter.mem_sendMessages.mp hmem).2
    simp at hnotice

/-- An accepted `REQ` registers the filters and starts a query with them. -/
theorem Adapter.subscribe_of_accepted {limits : Option SubscriptionLimits}
    {filters : List SubscriptionFilter} (h : Accepted A limits subscriptionId filters) :
    A.subscribe limits subscriptionId filters =
      ([], (A.heard (A.onSubscribed subscriptionId (uniqFilters filters))).fetch subscriptionId
        (uniqFilters filters)) := by
  rw [Adapter.subscribe, h]

theorem Adapter.queries_heard {next : Adapter} (hnext : next.queries = A.queries) :
    (A.heard next).queries = A.queries := by
  rw [Adapter.heard]
  split
  · rfl
  · exact hnext

/-- The database only changes the queries. -/
@[simp] theorem Adapter.readyState_answer (A : Adapter) (i : ℕ)
    (result : Except DbError (List EventRow)) : (A.answer i result).readyState = A.readyState := by
  rw [Adapter.answer]
  split
  · rfl
  · rfl

@[simp] theorem Adapter.subscriptions_answer (A : Adapter) (i : ℕ)
    (result : Except DbError (List EventRow)) :
    (A.answer i result).subscriptions = A.subscriptions := by
  rw [Adapter.answer]
  split
  · rfl
  · rfl

/-- So does a pipeline. -/
@[simp] theorem Adapter.readyState_stream (A : Adapter) (i : ℕ) :
    (A.stream i).2.readyState = A.readyState := by
  rw [Adapter.stream]
  split
  · rfl
  · rfl

@[simp] theorem Adapter.subscriptions_stream (A : Adapter) (i : ℕ) :
    (A.stream i).2.subscriptions = A.subscriptions := by
  rw [Adapter.stream]
  split
  · rfl
  · rfl

/-- The socket does not open again. -/
theorem opened_of_step (h : (step action A).2.readyState = .opened) : A.readyState = .opened := by
  cases action with
  | req limits id filters =>
      by_cases haccepted : Accepted A limits id filters
      · rw [step, Adapter.subscribe_of_accepted haccepted] at h
        rcases e : A.readyState with - | - | -
        · rfl
        · simp [Adapter.fetch, Adapter.heard, e, Adapter.onSubscribed] at h
        · simp [Adapter.fetch, Adapter.heard, e] at h
      · rw [step, (Adapter.subscribe_of_not_accepted haccepted).1] at h
        exact h
  | close id =>
      simp only [step, Adapter.heard, Adapter.onUnsubscribed] at h
      split at h
      · exact h
      · exact h
  | broadcast event => exact h
  | answer i result => exact (A.readyState_answer i result).symm.trans h
  | stream i => exact (A.readyState_stream i).symm.trans h
  | leave =>
      simp only [step, Adapter.heard] at h
      split at h
      · exact h
      · cases h
  | clientClose => cases h

/-- The keys of the map stay unique. -/
theorem nodup_step (h : (A.subscriptions.map Prod.fst).Nodup) :
    ((step action A).2.subscriptions.map Prod.fst).Nodup := by
  have hheard : ∀ next : Adapter, (next.subscriptions.map Prod.fst).Nodup →
      ((A.heard next).subscriptions.map Prod.fst).Nodup := by
    intro next hnext
    rw [Adapter.heard]
    split
    · exact h
    · exact hnext
  cases action with
  | req limits id filters =>
      by_cases haccepted : Accepted A limits id filters
      · rw [step, Adapter.subscribe_of_accepted haccepted]
        exact hheard _ (Keyed.nodup_upsert _ (fun _ _ => rfl) h)
      · rw [step, (Adapter.subscribe_of_not_accepted haccepted).1]
        exact h
  | close id => exact hheard (A.onUnsubscribed id) (Keyed.nodup_delete h)
  | broadcast event => exact h
  | answer i result => rwa [step, Adapter.subscriptions_answer]
  | stream i => rwa [step, Adapter.subscriptions_stream]
  | leave => exact hheard { A with readyState := .closing } h
  | clientClose => exact List.nodup_nil

/-- **What a step does to the queries**: an accepted `REQ` starts one, and the
database and the pipelines take one further. -/
theorem queries_cases (action : Action) (A : Adapter) :
    (step action A).2.queries = A.queries ∨
    (∃ limits id filters, action = .req limits id filters ∧ Accepted A limits id filters ∧
      (step action A).2.queries = A.queries ++ [⟨id, uniqFilters filters, .waiting⟩]) ∨
    (∃ i query result, action = .answer i result ∧ A.queries[i]? = some query ∧
      (step action A).2.queries = A.queries.set i (query.answer result)) ∨
    ∃ i query, action = .stream i ∧ A.queries[i]? = some query ∧
      (step action A).2.queries = A.queries.set i query.stream.2 := by
  cases action with
  | req limits id filters =>
      by_cases haccepted : Accepted A limits id filters
      · refine Or.inr (Or.inl ⟨limits, id, filters, rfl, haccepted, ?_⟩)
        have hbefore : (A.heard (A.onSubscribed id (uniqFilters filters))).queries = A.queries :=
          Adapter.queries_heard rfl
        rw [step, Adapter.subscribe_of_accepted haccepted]
        simp only [Adapter.fetch, hbefore]
      · exact Or.inl (by rw [step, (Adapter.subscribe_of_not_accepted haccepted).1])
  | close id =>
      have hbefore : (A.onUnsubscribed id).queries = A.queries := rfl
      exact Or.inl (Adapter.queries_heard hbefore)
  | broadcast event => exact Or.inl rfl
  | answer i result =>
      rcases hquery : A.queries[i]? with - | query
      · exact Or.inl (by simp only [step, Adapter.answer, hquery])
      · refine Or.inr (Or.inr (Or.inl ⟨i, query, result, rfl, hquery, ?_⟩))
        simp only [step, Adapter.answer, hquery, Adapter.setQuery]
  | stream i =>
      rcases hquery : A.queries[i]? with - | query
      · exact Or.inl (by simp only [step, Adapter.stream, hquery])
      · refine Or.inr (Or.inr (Or.inr ⟨i, query, rfl, hquery, ?_⟩))
        simp only [step, Adapter.stream, hquery, Adapter.setQuery]
  | leave =>
      have hbefore : Adapter.queries { A with readyState := .closing } = A.queries := rfl
      exact Or.inl (Adapter.queries_heard hbefore)
  | clientClose => exact Or.inl rfl

/-- The queries of the next state: one that an accepted `REQ` has started, and
those that were there. -/
theorem queries_step {query' : StoredQuery} (h : query' ∈ (step action A).2.queries) :
    (∃ limits filters, action = .req limits query'.subscriptionId filters ∧
      Accepted A limits query'.subscriptionId filters ∧ query'.filters = uniqFilters filters) ∨
    ∃ query ∈ A.queries, query'.Continues query := by
  have hset : ∀ i (query new : StoredQuery), A.queries[i]? = some query → new.Continues query →
      query' ∈ A.queries.set i new → ∃ query ∈ A.queries, query'.Continues query := by
    intro i query new hquery hcontinues hmem
    rcases List.mem_or_eq_of_mem_set hmem with hmem | rfl
    · exact ⟨query', hmem, .refl query'⟩
    · exact ⟨query, List.mem_of_getElem? hquery, hcontinues⟩
  rcases queries_cases action A with hsame | ⟨limits, id, filters, haction, haccepted, hstarted⟩ |
    ⟨i, query, result, -, hquery, hanswered⟩ | ⟨i, query, -, hquery, hstreamed⟩
  · exact Or.inr ⟨query', hsame ▸ h, .refl query'⟩
  · rw [hstarted] at h
    rcases List.mem_append.mp h with hmem | hnew
    · exact Or.inr ⟨query', hmem, .refl query'⟩
    · obtain rfl := List.mem_singleton.mp hnew
      exact Or.inl ⟨limits, filters, haction, haccepted, rfl⟩
  · exact Or.inr (hset i query _ hquery (query.continues_answer result) (hanswered ▸ h))
  · exact Or.inr (hset i query _ hquery query.continues_stream (hstreamed ▸ h))

/-- A query keeps its place. -/
theorem query_step {i : ℕ} {query : StoredQuery} (h : A.queries[i]? = some query) :
    (step action A).2.queries[i]? = some query ∨
    (∃ result, action = .answer i result ∧
      (step action A).2.queries[i]? = some (query.answer result)) ∨
    action = .stream i ∧ (step action A).2.queries[i]? = some query.stream.2 := by
  have hi : i < A.queries.length := (List.getElem?_eq_some_iff.mp h).1
  rcases queries_cases action A with hsame | ⟨limits, id, filters, -, -, hstarted⟩ |
    ⟨j, query', result, haction, hquery, hanswered⟩ | ⟨j, query', haction, hquery, hstreamed⟩
  · exact Or.inl (hsame ▸ h)
  · rw [hstarted]
    exact Or.inl ((List.getElem?_append_left hi).trans h)
  · rw [hanswered]
    by_cases hj : j = i
    · subst hj
      obtain rfl := Option.some.inj (hquery.symm.trans h)
      exact Or.inr (Or.inl ⟨result, haction, List.getElem?_set_self hi⟩)
    · exact Or.inl ((List.getElem?_set_ne hj).trans h)
  · rw [hstreamed]
    by_cases hj : j = i
    · subst hj
      obtain rfl := Option.some.inj (hquery.symm.trans h)
      exact Or.inr (Or.inr ⟨haction, List.getElem?_set_self hi⟩)
    · exact Or.inl ((List.getElem?_set_ne hj).trans h)

/-- The filters that are registered for an id, after a step that leaves the
socket open. -/
theorem registered_step (h : (step action A).2.readyState = .opened) (id : String) :
    (∃ limits filters, action = .req limits id filters ∧ Accepted A limits id filters ∧
      (step action A).2.registered id = some (uniqFilters filters)) ∨
    (action = .close id ∧ (step action A).2.registered id = none) ∨
    ((∀ limits filters, action = .req limits id filters → ¬ Accepted A limits id filters) ∧
      action ≠ .close id ∧ (step action A).2.registered id = A.registered id) := by
  have hopen := opened_of_step h
  cases action with
  | req limits id' filters =>
      by_cases haccepted : Accepted A limits id' filters
      · have hregistered : (step (.req limits id' filters) A).2.registered id =
            if id = id' then some (uniqFilters filters) else A.registered id := by
          rw [step, Adapter.subscribe_of_accepted haccepted, Adapter.heard_of_opened hopen]
          exact A.registered_onSubscribed id' id (uniqFilters filters)
        rw [hregistered]
        by_cases hid : id = id'
        · subst hid
          exact Or.inl ⟨limits, filters, rfl, haccepted, if_pos rfl⟩
        · refine Or.inr (Or.inr ⟨?_, nofun, if_neg hid⟩)
          rintro limits' filters' ⟨⟩
          exact absurd rfl hid
      · refine Or.inr (Or.inr ⟨?_, nofun, ?_⟩)
        · rintro limits' filters' ⟨⟩
          exact haccepted
        · rw [step, (Adapter.subscribe_of_not_accepted haccepted).1]
  | close id' =>
      have hregistered : (step (.close id') A).2.registered id =
          if id = id' then none else A.registered id := by
        rw [step, Adapter.heard_of_opened hopen, Adapter.registered_onUnsubscribed]
      rw [hregistered]
      by_cases hid : id = id'
      · subst hid
        exact Or.inr (Or.inl ⟨rfl, if_pos rfl⟩)
      · refine Or.inr (Or.inr ⟨nofun, ?_, if_neg hid⟩)
        rintro ⟨⟩
        exact absurd rfl hid
  | broadcast event => exact Or.inr (Or.inr ⟨nofun, nofun, rfl⟩)
  | answer i result =>
      refine Or.inr (Or.inr ⟨nofun, nofun, ?_⟩)
      rw [step, Adapter.registered, Adapter.subscriptions_answer, Adapter.registered]
  | stream i =>
      refine Or.inr (Or.inr ⟨nofun, nofun, ?_⟩)
      rw [step, Adapter.registered, Adapter.subscriptions_stream, Adapter.registered]
  | leave =>
      -- this would not leave the socket open
      rw [step, Adapter.heard_of_opened hopen] at h
      cases h
  | clientClose => cases h

/-- A broadcast reaches the client under each id that asks for the event. -/
theorem event_of_broadcast {filters : List SubscriptionFilter} (hopen : A.readyState = .opened)
    (hregistered : A.registered subscriptionId = some filters)
    (hmatch : isClientSubscribedToEvent filters event = true) :
    Outgoing.event subscriptionId event ∈ (step (.broadcast event) A).1 := by
  rw [step, Adapter.onBroadcast, hopen]
  refine List.mem_flatMap.mpr ⟨(subscriptionId, filters), Adapter.mem_of_registered hregistered, ?_⟩
  rw [if_pos hmatch, Adapter.sendMessages_of_opened hopen]
  exact List.mem_singleton.mpr rfl

/-- **What is sent as an event** comes from a broadcast, for a subscription
that is registered, or from the pipeline of a query. -/
theorem event_of_step (h : Outgoing.event subscriptionId event ∈ (step action A).1) :
    A.readyState = .opened ∧
      ((∃ filters, (subscriptionId, filters) ∈ A.subscriptions ∧
          isClientSubscribedToEvent filters event = true) ∨
        ∃ query ∈ A.queries, query.subscriptionId = subscriptionId ∧ query.MaySend event) := by
  cases action with
  | req limits id filters =>
      by_cases haccepted : Accepted A limits id filters
      · rw [step, Adapter.subscribe_of_accepted haccepted] at h
        cases h
      · exact absurd h ((Adapter.subscribe_of_not_accepted haccepted).2 _ _)
  | close id => cases h
  | broadcast event' =>
      simp only [step, Adapter.onBroadcast] at h
      split at h
      · next hopen =>
        obtain ⟨⟨id, filters⟩, hentry, hsent⟩ := List.mem_flatMap.mp h
        dsimp only at hsent
        split at hsent
        · next hmatch =>
          obtain ⟨-, hmessage⟩ := Adapter.mem_sendMessages.mp hsent
          obtain ⟨rfl, rfl⟩ := Outgoing.event.inj (List.mem_singleton.mp hmessage)
          exact ⟨hopen, Or.inl ⟨filters, hentry, hmatch⟩⟩
        · cases hsent
      · cases h
  | answer i result => cases h
  | stream i =>
      simp only [step, Adapter.stream] at h
      split at h
      · next query hquery =>
        obtain ⟨hopen, hmessage⟩ := Adapter.mem_sendMessages.mp h
        exact ⟨hopen, Or.inr ⟨query, List.mem_of_getElem? hquery,
          StoredQuery.maySend_of_mem_stream hmessage⟩⟩
      · cases h
  | leave => cases h
  | clientClose => cases h

end

end NostrMesh.Relay.Connection
