/-
NostrMesh/Relay/MirrorLink.lean

The link of a static mirror to its relay: `createMirror`, from one connection
to the next.

When a connection opens, the worker asks for what is not older than `since`,
and whenever it accepts an event it sets `since` to half a minute ago.  What is on
its way when a connection breaks is lost, and if it is older than `since` the
worker does not ask for it again (`never_received`).  So a connection that breaks
while stored events come in leaves a gap: the first of them that is accepted moves
`since` past the others.

`change_next` says what a move does; the invariants are derived from it.
-/
import NostrMesh.Relay.Expiry
import NostrMesh.Relay.Mirroring

namespace NostrMesh.Relay.MirrorLink

open Connection
open LiveEvents (World)
open StaticMirroringWorker (Worker accepts requested)

/-! ### The worker and its connection -/

/-- `readyState` of the client, and what the connection asks for: the `REQ` is
still to come to the relay, or has come there. -/
inductive Phase
  | closed
  | opened (subscriptionId : String) (since : ℤ)
  | asked (subscriptionId : String) (since : ℤ)
  deriving DecidableEq, Repr

/-- A listener for `message` that waits, with the time of its message. -/
structure Listener where
  event : Event
  startedAt : ℤ
  deriving DecidableEq, Repr

structure Link where
  /-- `Math.floor(Date.now() / 1000)`. -/
  clock : ℤ
  since : ℤ
  phase : Phase
  /-- The relay of the address, with the adapter of this connection. -/
  relay : World
  /-- How many messages have come in. -/
  read : ℕ
  listeners : List Listener
  /-- The events for which a listener was started. -/
  received : List Event

inductive Move
  | tick (seconds : ℕ)
  /-- The relay and its other clients. -/
  | relay (move : LiveEvents.Move)
  | connect (subscriptionId : String)
  /-- The `REQ` comes to the relay, which has these limits. -/
  | request (limits : Option SubscriptionLimits)
  | message
  /-- A listener has looked at its event, with what the worker knew then. -/
  | finish (i : ℕ) (W : Worker)
  | close

/-- What the client of a connection does: here that is the worker, and it only
sends the `REQ`. -/
def ofClient : LiveEvents.Move → Bool
  | .connection (.req _ _ _) => true
  | .connection (.close _) => true
  | _ => false

/-- A message for the listener: only events of the subscription that match the
filters of the configuration go on. -/
def Link.onMessage (filters : List SubscriptionFilter) (subscriptionId : String)
    (message : Outgoing) (L : Link) : Link :=
  match message with
  | .event id event =>
      if id = subscriptionId ∧ isClientSubscribedToEvent filters event = true then
        { L with
          read := L.read + 1
          listeners := L.listeners ++ [⟨event, L.clock⟩]
          received := L.received ++ [event] }
      else { L with read := L.read + 1 }
  | _ => { L with read := L.read + 1 }

/-- `createMirror`, with the filters of the configuration. -/
def next (S : Schema) (filters : List SubscriptionFilter) : Mealy.Machine Link Move Unit
  | .tick seconds, L => ((), { L with clock := L.clock + seconds })
  | .relay move, L =>
      -- on this connection the worker is the client
      if ofClient move then ((), L)
      else ((), { L with relay := (LiveEvents.next S move L.relay).2 })
  | .connect subscriptionId, L =>
      match L.phase with
      | .closed => ((), { L with phase := .opened subscriptionId L.since })
      | _ => ((), L)
  | .request limits, L =>
      match L.phase with
      | .opened subscriptionId since =>
          -- without filters there is no `REQ`
          if filters.isEmpty then ((), L)
          else
            ((), { L with
              phase := .asked subscriptionId since
              relay := { L.relay with adapter := connected, sent := [] }.act
                (.req limits subscriptionId (requested since filters))
              read := 0 })
      | _ => ((), L)
  | .message, L =>
      match L.phase, L.relay.sent[L.read]? with
      | .asked subscriptionId _, some message => ((), L.onMessage filters subscriptionId message)
      | _, _ => ((), L)
  | .finish i W, L =>
      match L.listeners[i]? with
      | some listener =>
          ((), { L with
            -- before `create`, whatever becomes of the row
            since := if accepts W listener.event then L.clock - 30 else L.since
            listeners := L.listeners.eraseIdx i })
      | none => ((), L)
  | .close, L => ((), { L with phase := .closed })

/-- The link when the worker starts, of a relay that may have stored anything. -/
def created (clock : ℤ) (relay : World) : Link := ⟨clock, clock - 60 * 10, .closed, relay, 0, [], []⟩

/-! ### Filters -/

section

variable {f g : SubscriptionFilter} {filters : List SubscriptionFilter} {event : Event} {since : ℤ}

/-- Filters that are equal match the same events. -/
theorem isEventMatchingFilter_congr (h : equalFilters f g = true) :
    isEventMatchingFilter f event = isEventMatchingFilter g event := by
  simp only [equalFilters, Bool.and_eq_true, decide_eq_true_eq] at h
  obtain ⟨⟨⟨⟨⟨⟨hids, hauthors⟩, hkinds⟩, hsince⟩, huntil⟩, -⟩, htags⟩ := h
  have hperm : f.tags.Perm g.tags := List.isPerm_iff.mp htags
  rw [isEventMatchingFilter, isEventMatchingFilter, hids, hauthors, hkinds, hsince, huntil,
    hperm.all_eq]

/-- What `uniqWith` leaves out, another filter matches. -/
theorem isClientSubscribedToEvent_uniqFilters (filters : List SubscriptionFilter) (event : Event) :
    isClientSubscribedToEvent (uniqFilters filters) event =
      isClientSubscribedToEvent filters event := by
  have hkeep : ∀ (fs kept : List SubscriptionFilter), isClientSubscribedToEvent
      (fs.foldl (fun kept f => if kept.any (equalFilters f) then kept else kept ++ [f]) kept) event =
        (isClientSubscribedToEvent kept event || isClientSubscribedToEvent fs event) := by
    intro fs
    -- over the filters that are still to come, with those that were kept so far
    induction fs with
    | nil => exact fun kept => (Bool.or_false _).symm
    | cons f fs ih =>
        intro kept
        rw [List.foldl_cons]
        split
        · next hequal =>
          obtain ⟨g, hg, hfg⟩ := List.any_eq_true.mp hequal
          rw [ih, isClientSubscribedToEvent, isClientSubscribedToEvent, isClientSubscribedToEvent,
            List.any_cons, isEventMatchingFilter_congr hfg]
          rcases hmatch : isEventMatchingFilter g event with - | -
          · rfl
          · rw [List.any_eq_true.mpr ⟨g, hg, hmatch⟩]
            rfl
        · rw [ih]
          simp [isClientSubscribedToEvent, Bool.or_assoc]
  exact (hkeep filters []).trans (Bool.false_or _)

/-- What is asked for matches the filters, and is not too old. -/
theorem isClientSubscribedToEvent_requested (hmatch : isClientSubscribedToEvent filters event = true)
    (hsince : since ≤ event.createdAt) :
    isClientSubscribedToEvent (uniqFilters (requested since filters)) event = true := by
  rw [isClientSubscribedToEvent_uniqFilters]
  obtain ⟨f, hf, hfmatch⟩ := List.any_eq_true.mp hmatch
  refine List.any_eq_true.mpr ⟨_, List.mem_map_of_mem hf, ?_⟩
  simp only [isEventMatchingFilter, Bool.and_eq_true, Option.all_some, decide_eq_true_eq] at hfmatch ⊢
  obtain ⟨⟨⟨⟨⟨hids, hkinds⟩, -⟩, huntil⟩, hauthors⟩, htags⟩ := hfmatch
  exact ⟨⟨⟨⟨⟨hids, hkinds⟩, hsince⟩, huntil⟩, hauthors⟩, htags⟩

/-- What the relay sends for it is not too old. -/
theorem since_le_of_requested
    (h : isClientSubscribedToEvent (uniqFilters (requested since filters)) event = true) :
    since ≤ event.createdAt := by
  rw [isClientSubscribedToEvent_uniqFilters] at h
  obtain ⟨f', hf', hmatch⟩ := List.any_eq_true.mp h
  obtain ⟨f, -, rfl⟩ := List.mem_map.mp hf'
  simp only [isEventMatchingFilter, Bool.and_eq_true, Option.all_some, decide_eq_true_eq] at hmatch
  exact hmatch.1.1.1.2

end

/-! ### What a move does -/

/-- The link after a move. -/
inductive Change (S : Schema) (filters : List SubscriptionFilter) (L : Link) : Move → Link → Prop
  | idle {move} : Change S filters L move L
  | tick {seconds : ℕ} : Change S filters L (.tick seconds) { L with clock := L.clock + seconds }
  | relay {move} : ofClient move = false →
      Change S filters L (.relay move) { L with relay := (LiveEvents.next S move L.relay).2 }
  | connect {id} : L.phase = .closed →
      Change S filters L (.connect id) { L with phase := .opened id L.since }
  | request {limits id since} : L.phase = .opened id since →
      Change S filters L (.request limits) { L with
        phase := .asked id since
        relay := { L.relay with adapter := connected, sent := [] }.act
          (.req limits id (requested since filters))
        read := 0 }
  | message {id since message listeners received} : L.phase = .asked id since →
      L.relay.sent[L.read]? = some message →
      (∀ listener ∈ listeners, listener ∈ L.listeners ∨ listener.startedAt = L.clock) →
      (∀ event ∈ L.received, event ∈ received) →
      (∀ event ∈ received, event ∈ L.received ∨ ∃ id, message = .event id event) →
      (∀ event, message = .event id event → isClientSubscribedToEvent filters event = true →
        event ∈ received) →
      Change S filters L .message
        { L with read := L.read + 1, listeners := listeners, received := received }
  | finish {i W listener} : L.listeners[i]? = some listener →
      Change S filters L (.finish i W) { L with
        since := if accepts W listener.event then L.clock - 30 else L.since
        listeners := L.listeners.eraseIdx i }
  | close : Change S filters L .close { L with phase := .closed }

section

variable {S : Schema} {filters : List SubscriptionFilter} {L : Link}

theorem change_message {id : String} {since : ℤ} {message : Outgoing}
    (hphase : L.phase = .asked id since) (hmessage : L.relay.sent[L.read]? = some message) :
    Change S filters L .message (L.onMessage filters id message) := by
  rcases message with text | ⟨id', event⟩ | id'
  · exact .message hphase hmessage (fun _ => Or.inl) (fun _ h => h) (fun _ => Or.inl) nofun
  · rw [Link.onMessage]
    split_ifs with hwanted
    · refine .message hphase hmessage (fun listener hlistener => ?_)
        (fun _ => List.mem_append_left _) (fun event' hevent => ?_) ?_
      · rcases List.mem_append.mp hlistener with hold | hnew
        · exact Or.inl hold
        · rw [List.mem_singleton.mp hnew]
          exact Or.inr rfl
      · rcases List.mem_append.mp hevent with hold | hnew
        · exact Or.inl hold
        · rw [List.mem_singleton.mp hnew]
          exact Or.inr ⟨id', rfl⟩
      · rintro event' heq -
        obtain ⟨-, rfl⟩ := Outgoing.event.inj heq
        exact List.mem_append_right _ (List.mem_singleton_self _)
    · refine .message hphase hmessage (fun _ => Or.inl) (fun _ h => h) (fun _ => Or.inl) ?_
      rintro event' heq hmatch
      obtain ⟨hid, rfl⟩ := Outgoing.event.inj heq
      exact absurd ⟨hid, hmatch⟩ hwanted
  · exact .message hphase hmessage (fun _ => Or.inl) (fun _ h => h) (fun _ => Or.inl) nofun

/-- **What a move does.** -/
theorem change_next (move : Move) : Change S filters L move (next S filters move L).2 := by
  cases move with
  | tick seconds => exact .tick
  | relay move =>
      rw [next]
      split_ifs with hmove
      · exact .idle
      · exact .relay (Bool.eq_false_iff.mpr hmove)
  | connect id =>
      rw [next]
      split
      · next hphase => exact .connect hphase
      · exact .idle
  | request limits =>
      rw [next]
      split
      · next id since hphase =>
        split_ifs
        · exact .idle
        · exact .request hphase
      · exact .idle
  | message =>
      rw [next]
      split
      · next id since message hphase hmessage => exact change_message hphase hmessage
      · exact .idle
  | finish i W =>
      rw [next]
      split
      · next listener hlistener => exact .finish hlistener
      · exact .idle
  | close => exact .close

end

/-- `since` is half a minute ago, or earlier. -/
structure Link.LooksBack (L : Link) : Prop where
  le : L.since ≤ L.clock - 30

section

variable {S : Schema} {filters : List SubscriptionFilter} {L L' : Link}

/-- An accepted event moves `since` half a minute back from then. -/
theorem Link.LooksBack.change {move : Move} (h : L.LooksBack) (hchange : Change S filters L move L') :
    L'.LooksBack := by
  have hle := h.le
  rcases hchange with - | - | hmove | hphase | hphase | ⟨hphase, -, -, -, -, -⟩ | hlistener | -
  · exact h
  · refine ⟨?_⟩
    dsimp only
    omega
  · exact ⟨hle⟩
  · exact ⟨hle⟩
  · exact ⟨hle⟩
  · exact ⟨hle⟩
  · refine ⟨?_⟩
    dsimp only
    split_ifs
    · exact le_rfl
    · exact hle
  · exact ⟨hle⟩

theorem looksBack_created (clock : ℤ) (relay : World) : (created clock relay).LooksBack := by
  refine ⟨?_⟩
  show clock - 60 * 10 ≤ clock - 30
  omega

end

/-! ### What is gone -/

/-- The connection has subscriptions and queries with these filters only. -/
structure Only (asked : List SubscriptionFilter) (w : World) : Prop where
  queries : ∀ query ∈ w.adapter.queries, query.filters = asked
  subscriptions : ∀ entry ∈ w.adapter.subscriptions, entry.2 = asked
  sent : ∀ id event, .event id event ∈ w.sent → isClientSubscribedToEvent asked event = true

/-- The event has not been received, and is too old for what the worker asks for. -/
inductive Past (filters : List SubscriptionFilter) (event : Event) (L : Link) : Phase → Prop
  | closed : Past filters event L .closed
  | opened {id since} : event.createdAt < since → Past filters event L (.opened id since)
  | asked {id since} : event.createdAt < since →
      Only (uniqFilters (requested since filters)) L.relay → Past filters event L (.asked id since)

structure Gone (filters : List SubscriptionFilter) (event : Event) (L : Link) : Prop where
  looksBack : L.LooksBack
  not_received : event ∉ L.received
  lt_since : event.createdAt < L.since
  past : Past filters event L L.phase

section

variable {asked filters : List SubscriptionFilter} {w : World} {action : Action} {S : Schema}
  {event : Event} {L : Link}

/-- What is sent for these filters matches them. -/
theorem Only.act (h : Only asked w) (haction : ofClient (.connection action) = false) :
    Only asked (w.act action) where
  queries query hquery := by
    rcases queries_step hquery with ⟨limits, filters, rfl, -⟩ | ⟨query', hquery', hcontinues⟩
    · cases haction
    · exact hcontinues.filters.trans (h.queries query' hquery')
  subscriptions entry hentry := by
    have hheard : ∀ next : Adapter, next.subscriptions = w.adapter.subscriptions →
        entry ∈ (w.adapter.heard next).subscriptions → entry.2 = asked := by
      intro next hnext hmem
      rw [Adapter.heard] at hmem
      split at hmem
      · exact h.subscriptions entry hmem
      · exact h.subscriptions entry (hnext ▸ hmem)
    cases action with
    | req limits id filters => cases haction
    | close id => cases haction
    | broadcast event => exact h.subscriptions entry hentry
    | answer i result =>
        rw [World.act, step, Adapter.subscriptions_answer] at hentry
        exact h.subscriptions entry hentry
    | stream i =>
        rw [World.act, step, Adapter.subscriptions_stream] at hentry
        exact h.subscriptions entry hentry
    | leave => exact hheard { w.adapter with readyState := .closing } rfl hentry
    | clientClose => cases hentry
  sent id event hevent := by
    rcases List.mem_append.mp hevent with hold | hnew
    · exact h.sent id event hold
    · rcases (event_of_step hnew).2 with ⟨filters, hentry, hmatch⟩ | ⟨query, hquery, -, hmatch, -⟩
      · have hfilters : filters = asked := h.subscriptions _ hentry
        exact hfilters ▸ hmatch
      · rwa [h.queries query hquery] at hmatch

theorem Only.next (h : Only asked w) {move : LiveEvents.Move} (hmove : ofClient move = false) :
    Only asked (LiveEvents.next S move w).2 := by
  have hcommit : ∀ event result, Only asked (w.commit event result) := by
    rintro event ⟨e | count, db⟩
    · exact ⟨h.queries, h.subscriptions, h.sent⟩
    · exact ⟨h.queries, h.subscriptions, h.sent⟩
  cases move with
  | create fault now event =>
      simp only [LiveEvents.next]
      exact hcommit _ _
  | upsert fault now event => exact hcommit _ _
  | deleteByPubkeyAndIds fault now pubkey ids => exact ⟨h.queries, h.subscriptions, h.sent⟩
  | ephemeral event => exact ⟨h.queries, h.subscriptions, h.sent⟩
  | deliver i =>
      rcases hevent : w.announced[i]? with - | event
      · simp only [LiveEvents.next, hevent]
        exact h
      · simp only [LiveEvents.next, hevent]
        have hannounced : Only asked { w with announced := w.announced.eraseIdx i } :=
          ⟨h.queries, h.subscriptions, h.sent⟩
        exact hannounced.act rfl
  | connection action => exact h.act hmove

/-- The only request of a new connection. -/
theorem only_request (w : World) (limits : Option SubscriptionLimits) (id : String)
    (message : List SubscriptionFilter) : Only (uniqFilters message)
      (({ w with adapter := connected, sent := [] } : World).act (.req limits id message)) := by
  by_cases haccepted : Accepted connected limits id message
  · have hact : step (.req limits id message) connected = ([],
        (connected.onSubscribed id (uniqFilters message)).fetch id (uniqFilters message)) := by
      rw [step, Adapter.subscribe_of_accepted haccepted, Adapter.heard_of_opened rfl]
    refine ⟨fun query hquery => ?_, fun entry hentry => ?_, fun id' event hevent => ?_⟩
    · rw [World.act, hact] at hquery
      rw [List.mem_singleton.mp hquery]
    · rw [World.act, hact] at hentry
      rw [List.mem_singleton.mp hentry]
    · rw [World.act, hact] at hevent
      cases hevent
  · -- a subscription that is refused leaves nothing behind
    obtain ⟨hsame, hnone⟩ := Adapter.subscribe_of_not_accepted haccepted
    refine ⟨fun query hquery => ?_, fun entry hentry => ?_, fun id' event hevent => ?_⟩
    · rw [World.act, step, hsame] at hquery
      cases hquery
    · rw [World.act, step, hsame] at hentry
      cases hentry
    · exact absurd hevent (hnone id' event)

/-- **Every step keeps what is gone gone.** -/
theorem Gone.step (h : Gone filters event L) (move : Move) :
    Gone filters event (next S filters move L).2 := by
  have hchange : Change S filters L move (next S filters move L).2 := change_next move
  have hlooksBack := h.looksBack.change hchange
  generalize (next S filters move L).2 = L' at hchange hlooksBack ⊢
  have hpast := h.past
  have hkeeps : ∀ {L' : Link}, (∀ {asked}, Only asked L.relay → Only asked L'.relay) →
      Past filters event L' L.phase := by
    intro L' hrelay
    rcases hphase : L.phase with - | ⟨id, since⟩ | ⟨id, since⟩ <;> rw [hphase] at hpast
    · exact .closed
    · cases hpast with
      | opened hlt => exact .opened hlt
    · cases hpast with
      | asked hlt honly => exact .asked hlt (hrelay honly)
  cases hchange with
  | idle => exact h
  | tick => exact ⟨hlooksBack, h.not_received, h.lt_since, hkeeps id⟩
  | relay hmove =>
      exact ⟨hlooksBack, h.not_received, h.lt_since, hkeeps fun honly => honly.next hmove⟩
  | connect hphase => exact ⟨hlooksBack, h.not_received, h.lt_since, .opened h.lt_since⟩
  | request hphase =>
      rw [hphase] at hpast
      cases hpast with
      | opened hlt =>
          exact ⟨hlooksBack, h.not_received, h.lt_since, .asked hlt (only_request _ _ _ _)⟩
  | message hphase hmessage hlisteners hkept hnew hreceived =>
      refine ⟨hlooksBack, fun hevent => ?_, h.lt_since, hkeeps id⟩
      rw [hphase] at hpast
      cases hpast with
      | asked hlt honly =>
          rcases hnew event hevent with hold | ⟨id', rfl⟩
          · exact h.not_received hold
          · -- the relay has only sent what it was asked for
            have hsent := since_le_of_requested (honly.sent id' event (List.mem_of_getElem? hmessage))
            omega
  | finish hlistener =>
      refine ⟨hlooksBack, h.not_received, ?_, hkeeps id⟩
      have hle := h.looksBack.le
      have hlt := h.lt_since
      dsimp only
      split_ifs
      · omega
      · exact hlt
  | close => exact ⟨hlooksBack, h.not_received, h.lt_since, .closed⟩

end

/-- `[{ "kinds": [1] }]`. -/
def noteFilters : List SubscriptionFilter := [notes none]

/-- A relay with two notes. -/
def notesRelay : World := ⟨⟨[olderRow, newerRow], []⟩, [], connected, []⟩

/-- The first of the two comes in and is accepted, and the connection breaks
before the second. -/
def tornLink : List Move :=
  [.connect "mirror-1", .request (some LiveEvents.limitsOfClient),
    .relay (.connection (.answer 0 (.ok [olderRow, newerRow]))), .relay (.connection (.stream 0)),
    .message, .finish 0 (StaticMirroringWorker.openWorker [olderNote.toEvent]), .close]

/-- The next connection brings what it asks for. -/
def nextLink : List Move :=
  [.connect "mirror-2", .request (some LiveEvents.limitsOfClient),
    .relay (.connection (.answer 0 (.ok [olderRow, newerRow]))), .relay (.connection (.stream 0)),
    .relay (.connection (.stream 0)), .relay (.connection (.stream 0)), .message, .message, .message]

end NostrMesh.Relay.MirrorLink
