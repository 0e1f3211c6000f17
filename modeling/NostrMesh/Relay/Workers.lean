/-
NostrMesh/Relay/Workers.lean

How an event that is to be broadcast gets to every worker of the relay.

The processes are the primary, client workers, the maintenance worker and the
mirrors.  A worker sends a message to the primary, and the primary forwards it
to every other worker (`Hub`); on its way a message may be overtaken by any
other one.  There are three paths that announce an event.  `onBroadcast` emits
it on the worker's own adapter and sends it; a mirror has no adapter and sends
it with the address that it comes from; `broadcastEvent` only sends it, in a
client worker too.

For each announcement and each client worker, what has been emitted and what
is still due add up to a number that only depends on the path (`Inv`).
-/
import NostrMesh.Lib.Hub
import NostrMesh.Lib.Mealy
import NostrMesh.Nostr.Event

namespace NostrMesh.Relay.Workers

/-! ### Processes and messages -/

/-- `WORKER_TYPE`, for a mirror with the address in its configuration. -/
inductive WorkerType
  | worker
  | maintenance
  | staticMirroring (address : String)
  deriving DecidableEq, Repr

/-- `WebSocketServerAdapterEvent.Broadcast`. -/
def broadcast : String := "broadcast"

structure Message where
  eventName : String
  event : Event
  source : Option String
  deriving DecidableEq, Repr

/-- A message, and the number of the announcement that it was sent for.  The
number is not sent; it tells announcements of one event apart. -/
structure Envelope where
  announcement : ℕ
  message : Message
  deriving DecidableEq, Repr

/-- Where an event is announced: `WebSocketAdapter.onBroadcast`, the function
`broadcastEvent`, or the mirror that has inserted it. -/
inductive Path
  | onBroadcast
  | broadcastEvent
  | mirrored
  deriving DecidableEq, Repr

structure Announcement where
  worker : ℕ
  path : Path
  message : Message
  deriving DecidableEq, Repr

/-- Something that is emitted on the adapter of a worker. -/
structure Emission where
  worker : ℕ
  announcement : ℕ
  eventName : String
  event : Event
  deriving DecidableEq, Repr

/-- The announcements so far, the messages between the processes, what was
emitted, and what the mirrors have sent to their relays. -/
structure Cluster where
  announcements : List Announcement
  messages : Hub ℕ Envelope
  emitted : List Emission
  relayed : List (ℕ × Envelope)
  deriving DecidableEq

/-- The workers have started. -/
def started : Cluster := ⟨[], .empty, [], []⟩

/-! ### Announcements -/

namespace Cluster

variable (workers : List WorkerType) (C : Cluster)

/-- `process.send`. -/
def send (a : Announcement) : Cluster :=
  { C with
    announcements := C.announcements ++ [a]
    messages := C.messages.post a.worker ⟨C.announcements.length, a.message⟩ }

/-- `WebSocketAdapter.onBroadcast`. -/
def onBroadcast (i : ℕ) (event : Event) : Cluster :=
  { C.send ⟨i, .onBroadcast, ⟨broadcast, event, none⟩⟩ with
    emitted := C.emitted ++ [⟨i, C.announcements.length, broadcast, event⟩] }

def broadcastEvent (i : ℕ) (event : Event) : Cluster :=
  C.send ⟨i, .broadcastEvent, ⟨broadcast, event, none⟩⟩

/-- The mirror has inserted the event. -/
def mirrored (i : ℕ) (address : String) (event : Event) : Cluster :=
  C.send ⟨i, .mirrored, ⟨broadcast, event, some address⟩⟩

/-- A process announces an event, on a path that it has. -/
def announce (i : ℕ) (path : Path) (event : Event) : Cluster :=
  match workers[i]?, path with
  | some .worker, .onBroadcast => C.onBroadcast i event
  | some .worker, .broadcastEvent => C.broadcastEvent i event
  | some .maintenance, .broadcastEvent => C.broadcastEvent i event
  | some (.staticMirroring address), .mirrored => C.mirrored i address event
  | _, _ => C

/-! ### Messages -/

/-- `App.onClusterMessage`, for the message in this place. -/
def onClusterMessage (k : ℕ) : Cluster :=
  { C with messages := C.messages.forward (List.range workers.length) k }

/-- `onMessage` of the worker `j`; the maintenance worker does not listen. -/
def onMessage (j : ℕ) (isOpen : Bool) (envelope : Envelope) : Cluster :=
  match workers[j]? with
  | some .worker =>
      { C with emitted := C.emitted ++
          [⟨j, envelope.announcement, envelope.message.eventName, envelope.message.event⟩] }
  | some (.staticMirroring address) =>
      -- what came from its own relay does not go back there
      if envelope.message.eventName ≠ broadcast ∨ envelope.message.source = some address ∨
          isOpen = false then C
      else { C with relayed := C.relayed ++ [(j, envelope)] }
  | _ => C

/-- The message in this place reaches its worker. -/
def deliver (k : ℕ) (isOpen : Bool) : Cluster :=
  match C.messages.toParty[k]? with
  | some (j, envelope) =>
      { C with messages := C.messages.receive k }.onMessage workers j isOpen envelope
  | none => C

end Cluster

inductive Action
  | announce (i : ℕ) (path : Path) (event : Event)
  | forward (k : ℕ)
  /-- `isOpen` is the state of the mirror's socket. -/
  | deliver (k : ℕ) (isOpen : Bool)

def step (workers : List WorkerType) : Mealy.Machine Cluster Action Unit
  | .announce i path event, C => ((), C.announce workers i path event)
  | .forward k, C => ((), C.onClusterMessage workers k)
  | .deliver k isOpen, C => ((), C.deliver workers k isOpen)

/-! ### The invariant -/

/-- What an announcement says of itself. -/
structure Announcement.Proper (workers : List WorkerType) (a : Announcement) : Prop where
  eventName : a.message.eventName = broadcast
  source : ∀ address, workers[a.worker]? = some (.staticMirroring address) →
    a.message.source = some address
  path : workers[a.worker]? = some .worker → a.path = .onBroadcast ∨ a.path = .broadcastEvent

/-- How often the client worker `j` is to emit the announcement. -/
def Announcement.expected (a : Announcement) (j : ℕ) : ℕ :=
  if a.worker ≠ j ∨ a.path = .onBroadcast then 1 else 0

namespace Cluster

variable (C : Cluster)

/-- The message is that of its announcement. -/
def Genuine (envelope : Envelope) : Prop :=
  ∃ a, C.announcements[envelope.announcement]? = some a ∧ envelope.message = a.message

/-- What a worker has emitted for an announcement. -/
def emissions (j announcement : ℕ) : List Emission :=
  C.emitted.filter fun e => e.worker = j ∧ e.announcement = announcement

end Cluster

structure Inv (workers : List WorkerType) (C : Cluster) : Prop where
  proper : ∀ a ∈ C.announcements, a.Proper workers
  toHub : ∀ p ∈ C.messages.toHub, C.Genuine p.2
  toParty : ∀ p ∈ C.messages.toParty, C.Genuine p.2
  emitted : ∀ e ∈ C.emitted, ∃ a, C.announcements[e.announcement]? = some a ∧
    e.eventName = broadcast ∧ e.event = a.message.event
  relayed : ∀ r ∈ C.relayed, C.Genuine r.2 ∧
    ∀ address, workers[r.1]? = some (.staticMirroring address) → r.2.message.source ≠ some address
  /-- What a client worker has emitted and what is due to it. -/
  counted : ∀ t a, C.announcements[t]? = some a → ∀ j, workers[j]? = some .worker →
    (C.emissions j t).length + C.messages.due j ⟨t, a.message⟩ = a.expected j

/-! ### What a step keeps -/

section

variable {workers : List WorkerType} {C : Cluster} {a b : Announcement} {envelope : Envelope}
  {t : ℕ}

theorem inv_started (workers : List WorkerType) : Inv workers started :=
  ⟨nofun, nofun, nofun, nofun, nofun, nofun⟩

/-- An announcement keeps its number. -/
theorem Cluster.getElem?_send (h : C.announcements[t]? = some b) :
    (C.send a).announcements[t]? = some b :=
  (List.getElem?_append_left (List.getElem?_eq_some_iff.mp h).1).trans h

theorem Cluster.Genuine.send (h : C.Genuine envelope) : (C.send a).Genuine envelope := by
  obtain ⟨b, hb, hmessage⟩ := h
  exact ⟨b, getElem?_send hb, hmessage⟩

theorem Cluster.genuine_send (C : Cluster) (a : Announcement) :
    (C.send a).Genuine ⟨C.announcements.length, a.message⟩ :=
  ⟨a, List.getElem?_concat_length, rfl⟩

theorem Cluster.Genuine.lt (h : C.Genuine envelope) :
    envelope.announcement < C.announcements.length := by
  obtain ⟨b, hb, -⟩ := h
  exact (List.getElem?_eq_some_iff.mp hb).1

theorem Cluster.length_emissions (own : List Emission) (j t : ℕ) :
    (Cluster.emissions { C with emitted := C.emitted ++ own } j t).length =
      (C.emissions j t).length +
        (own.filter fun e => e.worker = j ∧ e.announcement = t).length := by
  rw [Cluster.emissions, List.filter_append, List.length_append]
  rfl

/-- Nothing has been emitted yet for the number that comes next. -/
theorem Inv.emissions_next (h : Inv workers C) (j : ℕ) :
    C.emissions j C.announcements.length = [] := by
  refine List.filter_eq_nil_iff.mpr fun e he => ?_
  obtain ⟨b, hb, -⟩ := h.emitted e he
  have hlt : e.announcement < C.announcements.length := (List.getElem?_eq_some_iff.mp hb).1
  simp [Nat.ne_of_lt hlt]

/-- No message bears the number that comes next. -/
theorem Inv.due_next (h : Inv workers C) (j : ℕ) (message : Message) :
    C.messages.due j ⟨C.announcements.length, message⟩ = 0 := by
  apply Hub.due_eq_zero
  · intro p hp heq
    exact absurd (h.toHub p hp).lt (heq ▸ Nat.lt_irrefl _)
  · intro p hp heq
    exact absurd (h.toParty p hp).lt (heq ▸ Nat.lt_irrefl _)

/-- What a worker emits itself when it makes the announcement `t`. -/
def Announcement.emittedHere (a : Announcement) (t : ℕ) : List Emission :=
  if a.path = .onBroadcast then [⟨a.worker, t, broadcast, a.message.event⟩] else []

theorem Announcement.length_emittedHere (a : Announcement) (t : ℕ) (j u : ℕ) :
    ((a.emittedHere t).filter fun e => e.worker = j ∧ e.announcement = u).length =
      if a.path = .onBroadcast ∧ a.worker = j ∧ t = u then 1 else 0 := by
  rw [emittedHere]
  by_cases hpath : a.path = .onBroadcast
  · by_cases hnew : a.worker = j ∧ t = u
    · simp [hpath, hnew]
    · simp [hpath, hnew]
  · simp [hpath]

/-- The worker of the announcement either emits it itself, or not at all. -/
theorem Inv.counted_send (h : Inv workers C) (hb : (C.send a).announcements[t]? = some b) {j : ℕ}
    (hj : workers[j]? = some .worker) :
    (Cluster.emissions { C.send a with
        emitted := C.emitted ++ a.emittedHere C.announcements.length } j t).length +
      (C.send a).messages.due j ⟨t, b.message⟩ = b.expected j := by
  have hemissions : (Cluster.emissions { C.send a with
      emitted := C.emitted ++ a.emittedHere C.announcements.length } j t).length =
      (C.emissions j t).length +
        if a.path = .onBroadcast ∧ a.worker = j ∧ C.announcements.length = t then 1 else 0 := by
    rw [← a.length_emittedHere]
    exact (C.send a).length_emissions _ j t
  have hdue : Hub.due j ⟨t, b.message⟩ (C.send a).messages =
      C.messages.due j ⟨t, b.message⟩ +
        if a.worker ≠ j ∧ (⟨C.announcements.length, a.message⟩ : Envelope) = ⟨t, b.message⟩ then 1
        else 0 := Hub.due_post
  rw [hemissions, hdue]
  rcases Nat.lt_or_ge t C.announcements.length with hlt | hge
  · -- an announcement of before
    have hold : C.announcements[t]? = some b :=
      (List.getElem?_append_left hlt).symm.trans hb
    have hne : C.announcements.length ≠ t := Nat.ne_of_gt hlt
    simpa [hne] using h.counted t b hold j hj
  · -- this one: nothing has been emitted for it, and no message sent
    have hle : t ≤ C.announcements.length := by
      simpa [Cluster.send, Nat.lt_succ_iff] using (List.getElem?_eq_some_iff.mp hb).1
    obtain rfl : t = C.announcements.length := Nat.le_antisymm hle hge
    obtain rfl : a = b := Option.some.inj (List.getElem?_concat_length.symm.trans hb)
    rw [h.emissions_next, h.due_next, Announcement.expected]
    by_cases hworker : a.worker = j
    · simp [hworker]
    · simp [hworker]

/-- **An announcement** is sent, and emitted where it is made if it comes from
`onBroadcast`. -/
theorem Inv.send (h : Inv workers C) (ha : a.Proper workers) :
    Inv workers { C.send a with
      emitted := C.emitted ++ a.emittedHere C.announcements.length } where
  proper := by
    intro b hb
    rcases List.mem_append.mp hb with hold | hnew
    · exact h.proper b hold
    · exact List.mem_singleton.mp hnew ▸ ha
  toHub := by
    intro p hp
    rcases List.mem_append.mp hp with hold | hnew
    · exact (h.toHub p hold).send
    · exact List.mem_singleton.mp hnew ▸ C.genuine_send a
  toParty := fun p hp => (h.toParty p hp).send
  emitted := by
    intro e he
    rcases List.mem_append.mp he with hold | hnew
    · obtain ⟨b, hb, hcontents⟩ := h.emitted e hold
      exact ⟨b, Cluster.getElem?_send hb, hcontents⟩
    · rw [Announcement.emittedHere] at hnew
      split at hnew
      · obtain rfl := List.mem_singleton.mp hnew
        exact ⟨a, List.getElem?_concat_length, rfl, rfl⟩
      · cases hnew
  relayed := fun r hr => ⟨(h.relayed r hr).1.send, (h.relayed r hr).2⟩
  counted := fun _ _ hb _ hj => h.counted_send hb hj

theorem Inv.announce (h : Inv workers C) (i : ℕ) (path : Path) (event : Event) :
    Inv workers (C.announce workers i path event) := by
  have hplain : ∀ b : Announcement, b.Proper workers → b.path ≠ .onBroadcast →
      Inv workers (C.send b) := by
    intro b hb hpath
    have hsent := h.send hb
    rwa [Announcement.emittedHere, if_neg hpath, List.append_nil] at hsent
  rcases htype : workers[i]? with - | - | - | address
  · simpa only [Cluster.announce, htype] using h
  · cases path with
    | onBroadcast =>
        simp only [Cluster.announce, htype, Cluster.onBroadcast]
        apply h.send (a := ⟨i, .onBroadcast, ⟨broadcast, event, none⟩⟩)
        refine ⟨rfl, fun address haddress => ?_, fun _ => Or.inl rfl⟩
        exact nomatch htype.symm.trans haddress
    | broadcastEvent =>
        simp only [Cluster.announce, htype, Cluster.broadcastEvent]
        refine hplain _ ⟨rfl, fun address haddress => ?_, fun _ => Or.inr rfl⟩ nofun
        exact nomatch htype.symm.trans haddress
    | mirrored => simpa only [Cluster.announce, htype] using h
  · cases path with
    | onBroadcast => simpa only [Cluster.announce, htype] using h
    | broadcastEvent =>
        simp only [Cluster.announce, htype, Cluster.broadcastEvent]
        refine hplain _ ⟨rfl, fun address haddress => ?_, fun _ => Or.inr rfl⟩ nofun
        exact nomatch htype.symm.trans haddress
    | mirrored => simpa only [Cluster.announce, htype] using h
  · cases path with
    | onBroadcast => simpa only [Cluster.announce, htype] using h
    | broadcastEvent => simpa only [Cluster.announce, htype] using h
    | mirrored =>
        simp only [Cluster.announce, htype, Cluster.mirrored]
        refine hplain _ ⟨rfl, fun address' haddress => ?_, fun hworker => ?_⟩ nofun
        · obtain ⟨rfl⟩ := htype.symm.trans haddress
          rfl
        · exact nomatch htype.symm.trans hworker

/-- The primary takes nothing away from what is due, and adds nothing to it. -/
theorem Inv.onClusterMessage (h : Inv workers C) (k : ℕ) :
    Inv workers (C.onClusterMessage workers k) := by
  rcases e : C.messages.toHub[k]? with - | ⟨i, envelope⟩
  · have hsame : C.onClusterMessage workers k = C := by
      simp only [Cluster.onClusterMessage, Hub.forward, e]
    rwa [hsame]
  · refine ⟨h.proper, fun p hp => ?_, fun p hp => ?_, h.emitted, h.relayed, fun t a ha j hj => ?_⟩
    · simp only [Cluster.onClusterMessage, Hub.forward, e] at hp
      exact h.toHub p (List.mem_of_mem_eraseIdx hp)
    · simp only [Cluster.onClusterMessage, Hub.forward, e] at hp
      rcases List.mem_append.mp hp with hold | hnew
      · exact h.toParty p hold
      · obtain ⟨j, -, rfl⟩ := List.mem_map.mp hnew
        exact h.toHub (i, envelope) (List.mem_of_getElem? e)
    · have hmem : j ∈ List.range workers.length :=
        List.mem_range.mpr (List.getElem?_eq_some_iff.mp hj).1
      have hdue : Hub.due j ⟨t, a.message⟩ (C.onClusterMessage workers k).messages =
          C.messages.due j ⟨t, a.message⟩ := Hub.due_forward List.nodup_range hmem
      rw [hdue]
      exact h.counted t a ha j hj

/-- A message that arrives is not due any more to the worker that gets it. -/
theorem Inv.due_deliver (h : Inv workers C) {k i : ℕ}
    (e : C.messages.toParty[k]? = some (i, envelope)) (ha : C.announcements[t]? = some a) (j : ℕ) :
    C.messages.due j ⟨t, a.message⟩ = (C.messages.receive k).due j ⟨t, a.message⟩ +
      if i = j ∧ envelope.announcement = t then 1 else 0 := by
  obtain ⟨b, hb, hmessage⟩ := h.toParty (i, envelope) (List.mem_of_getElem? e)
  have hnumber : envelope = ⟨t, a.message⟩ ↔ envelope.announcement = t := by
    constructor
    · rintro rfl
      rfl
    · -- there is one message for each announcement
      rintro rfl
      obtain rfl := Option.some.inj (hb.symm.trans ha)
      rw [← hmessage]
  rw [Hub.due_receive e]
  congr 1
  exact if_congr (and_congr_right fun _ => hnumber) rfl rfl

/-- A worker that emits nothing for a message is no client worker. -/
theorem Inv.receive (h : Inv workers C) {k i : ℕ}
    (e : C.messages.toParty[k]? = some (i, envelope)) (hi : workers[i]? ≠ some .worker) :
    Inv workers { C with messages := C.messages.receive k } where
  proper := h.proper
  toHub := h.toHub
  toParty := fun p hp => h.toParty p (List.mem_of_mem_eraseIdx hp)
  emitted := h.emitted
  relayed := h.relayed
  counted := by
    intro t a ha j hj
    have hne : i ≠ j := fun heq => hi (heq ▸ hj)
    have hdue := h.due_deliver e ha j
    rw [if_neg fun hboth => hne hboth.1, Nat.add_zero] at hdue
    have hcounted := h.counted t a ha j hj
    rwa [hdue] at hcounted

/-- **A client worker** emits the message that it gets. -/
theorem Inv.emit (h : Inv workers C) {k i : ℕ}
    (e : C.messages.toParty[k]? = some (i, envelope)) :
    Inv workers { C with
      messages := C.messages.receive k
      emitted := C.emitted ++
        [⟨i, envelope.announcement, envelope.message.eventName, envelope.message.event⟩] } where
  proper := h.proper
  toHub := h.toHub
  toParty := fun p hp => h.toParty p (List.mem_of_mem_eraseIdx hp)
  emitted := by
    intro e' he
    rcases List.mem_append.mp he with hold | hnew
    · exact h.emitted e' hold
    · obtain rfl := List.mem_singleton.mp hnew
      obtain ⟨b, hb, hmessage⟩ := h.toParty (i, envelope) (List.mem_of_getElem? e)
      have hname := (h.proper b (List.mem_of_getElem? hb)).eventName
      exact ⟨b, hb, hmessage ▸ hname, hmessage ▸ rfl⟩
  relayed := h.relayed
  counted := by
    intro t a ha j hj
    have hemissions := C.length_emissions
      [⟨i, envelope.announcement, envelope.message.eventName, envelope.message.event⟩] j t
    rw [← h.counted t a ha j hj, h.due_deliver e ha j]
    refine (congrArg (· + _) hemissions).trans ?_
    by_cases hboth : i = j ∧ envelope.announcement = t
    · simp [hboth]
      omega
    · simp [hboth]

/-- A worker that gets a message emits it if it is a client worker, and relays
it if it is a mirror of another relay. -/
theorem Inv.deliver (h : Inv workers C) (k : ℕ) (isOpen : Bool) :
    Inv workers (C.deliver workers k isOpen) := by
  rcases e : C.messages.toParty[k]? with - | ⟨i, envelope⟩
  · simpa only [Cluster.deliver, e] using h
  simp only [Cluster.deliver, e, Cluster.onMessage]
  rcases htype : workers[i]? with - | - | - | address
  · exact h.receive e (by simp [htype])
  · exact h.emit e
  · exact h.receive e (by simp [htype])
  · have hreceived := h.receive e (by simp [htype])
    show Inv workers (if _ then _ else _)
    split
    · exact hreceived
    · next hguard =>
      refine { hreceived with relayed := fun r hr => ?_ }
      rcases List.mem_append.mp hr with hold | hnew
      · exact h.relayed r hold
      · obtain rfl := List.mem_singleton.mp hnew
        refine ⟨h.toParty (i, envelope) (List.mem_of_getElem? e), ?_⟩
        intro address' haddress hsource
        -- the mirror does not relay what comes from its own address
        obtain ⟨rfl⟩ := htype.symm.trans haddress
        exact hguard (Or.inr (Or.inl hsource))

theorem Inv.step (h : Inv workers C) (action : Action) : Inv workers (step workers action C).2 := by
  cases action with
  | announce i path event => exact h.announce i path event
  | forward k => exact h.onClusterMessage k
  | deliver k isOpen => exact h.deliver k isOpen

/-! ### Messages arrive -/

/-- A step that only takes a message further. -/
def Action.IsDelivery : Action → Prop
  | .announce _ _ _ => False
  | .forward _ => True
  | .deliver _ _ => True

theorem messages_deliver {p : ℕ × Envelope} {rest : List (ℕ × Envelope)}
    (h : C.messages.toParty = p :: rest) (isOpen : Bool) :
    (C.deliver workers 0 isOpen).messages = C.messages.receive 0 := by
  have hfirst : C.messages.toParty[0]? = some p := by rw [h]; rfl
  simp only [Cluster.deliver, hfirst, Cluster.onMessage]
  split
  · rfl
  · split
    · rfl
    · rfl
  · rfl

/-- **No message goes round for ever**: deliveries lead to a state where
nothing is on its way. -/
theorem exists_quiet (workers : List WorkerType) (C : Cluster) :
    ∃ later, (∀ action ∈ later, action.IsDelivery) ∧
      (Mealy.after (step workers) later C).messages = .empty := by
  induction hpending : C.messages.pending (List.range workers.length) using Nat.strongRecOn
    generalizing C with
  | ind n ih =>
    subst hpending
    have hfirst : ∀ action : Action, action.IsDelivery →
        (step workers action C).2.messages.pending (List.range workers.length) <
          C.messages.pending (List.range workers.length) →
        ∃ later, (∀ action ∈ later, action.IsDelivery) ∧
          (Mealy.after (step workers) later C).messages = .empty := by
      intro action haction hlt
      obtain ⟨later, hlater, hquiet⟩ := ih _ hlt (step workers action C).2 rfl
      exact ⟨action :: later, List.forall_mem_cons.mpr ⟨haction, hlater⟩, hquiet⟩
    -- the primary forwards first, and then the workers receive
    rcases hHub : C.messages.toHub with - | ⟨p, rest⟩
    · rcases hParty : C.messages.toParty with - | ⟨p, rest⟩
      · exact ⟨[], nofun, Hub.eq_empty_of_nil hHub hParty⟩
      · refine hfirst (.deliver 0 true) trivial ?_
        show (C.deliver workers 0 true).messages.pending _ < _
        rw [messages_deliver hParty]
        exact Hub.pending_receive_lt (by rw [hParty]; exact Nat.succ_pos _)
    · refine hfirst (.forward 0) trivial ?_
      exact Hub.pending_forward_lt (by rw [hHub]; exact Nat.succ_pos _)

/-! ### Once on every worker -/

/-- Every client worker has emitted the announcement once, as a broadcast of
its event, and nothing else for it. -/
def ReachesAll (workers : List WorkerType) (C : Cluster) (t : ℕ) (a : Announcement) : Prop :=
  ∀ j, workers[j]? = some .worker → C.emissions j t = [⟨j, t, broadcast, a.message.event⟩]

theorem Inv.emissions_eq_iff (h : Inv workers C) (ha : C.announcements[t]? = some a) (j : ℕ) :
    C.emissions j t = [⟨j, t, broadcast, a.message.event⟩] ↔ (C.emissions j t).length = 1 := by
  refine ⟨fun heq => by rw [heq]; rfl, fun hlength => ?_⟩
  -- what is emitted for an announcement is a broadcast of its event
  obtain ⟨e, he⟩ := List.length_eq_one_iff.mp hlength
  have hmem : e ∈ C.emissions j t := he ▸ List.mem_cons_self
  obtain ⟨hemitted, hplace⟩ := List.mem_filter.mp hmem
  obtain ⟨rfl, rfl⟩ := of_decide_eq_true hplace
  obtain ⟨b, hb, hname, hevent⟩ := h.emitted e hemitted
  obtain rfl := Option.some.inj (hb.symm.trans ha)
  rw [he, ← hname, ← hevent]

/-- When nothing is on its way, every client worker has emitted an announcement
once, unless it was made by `broadcastEvent` in one of them. -/
theorem Inv.reachesAll_of_quiet (h : Inv workers C) (hquiet : C.messages = .empty)
    (ha : C.announcements[t]? = some a) :
    ReachesAll workers C t a ↔
      ¬ (a.path = .broadcastEvent ∧ workers[a.worker]? = some .worker) := by
  have hcount : ∀ j, workers[j]? = some .worker → (C.emissions j t).length = a.expected j := by
    intro j hj
    rw [← h.counted t a ha j hj, hquiet, Hub.due_empty, Nat.add_zero]
  constructor
  · -- the worker itself is the one that is left out
    rintro hall ⟨hpath, hworker⟩
    have hone := (h.emissions_eq_iff ha a.worker).mp (hall a.worker hworker)
    rw [hcount a.worker hworker, Announcement.expected, hpath] at hone
    simp at hone
  · intro hcondition j hj
    rw [h.emissions_eq_iff ha, hcount j hj, Announcement.expected]
    refine if_pos ?_
    by_cases hworker : a.worker = j
    · subst hworker
      rcases (h.proper a (List.mem_of_getElem? ha)).path hj with hpath | hpath
      · exact Or.inr hpath
      · exact absurd ⟨hpath, hj⟩ hcondition
    · exact Or.inl hworker

end

/-- **Broadcasts reach every worker once**, in any order of the messages.  In
every state no client worker has emitted an announcement twice, and no mirror
has sent an event to the address that it was mirrored from.  Deliveries lead to
a state in which nothing is on its way, and in each state like that every
client worker has emitted an announcement exactly once, unless `broadcastEvent`
has made it in a client worker. -/
theorem reachesAll_iff (workers : List WorkerType) (actions : List Action) :
    (∃ later, (∀ action ∈ later, action.IsDelivery) ∧
      (Mealy.after (step workers) later
        (Mealy.after (step workers) actions started)).messages = .empty) ∧
    (∀ t a, (Mealy.after (step workers) actions started).announcements[t]? = some a →
      (∀ j, workers[j]? = some .worker →
        ((Mealy.after (step workers) actions started).emissions j t).length ≤ 1) ∧
      ((Mealy.after (step workers) actions started).messages = .empty →
        (ReachesAll workers (Mealy.after (step workers) actions started) t a ↔
          ¬ (a.path = .broadcastEvent ∧ workers[a.worker]? = some .worker)))) ∧
    ∀ r ∈ (Mealy.after (step workers) actions started).relayed, ∀ a,
      (Mealy.after (step workers) actions started).announcements[r.2.announcement]? = some a →
        ∀ address, workers[a.worker]? = some (.staticMirroring address) →
          workers[r.1]? ≠ some (.staticMirroring address) := by
  have hinv : Inv workers (Mealy.after (step workers) actions started) :=
    Mealy.invariant_after (fun _ action h => h.step action) (inv_started workers) actions
  generalize Mealy.after (step workers) actions started = C at hinv ⊢
  refine ⟨exists_quiet workers C, fun t a ha => ⟨fun j hj => ?_, fun hquiet =>
    hinv.reachesAll_of_quiet hquiet ha⟩, fun r hr a ha address haddress hsame => ?_⟩
  · -- what is due can only add to what has been emitted
    refine Nat.le_trans (Nat.le_add_right _ (C.messages.due j ⟨t, a.message⟩)) ?_
    rw [hinv.counted t a ha j hj, Announcement.expected]
    split
    · exact Nat.le_refl 1
    · exact Nat.zero_le 1
  · obtain ⟨⟨b, hb, hmessage⟩, hforeign⟩ := hinv.relayed r hr
    obtain rfl := Option.some.inj (hb.symm.trans ha)
    refine hforeign address hsame ?_
    rw [hmessage]
    exact (hinv.proper b (List.mem_of_getElem? hb)).source address haddress

/-- The relay tells a client that an invoice is paid. -/
def invoicePaid : Event where
  id := "51fd2e21bfd61ecea5113ac9db22fe4e263bbc4dbeb76eca13c0aa9cdca792a3"
  pubkey := "5cbdf0646e5db4eaa398f365f2ea7a0e3d419b7e0330e39ce92bddedcac4f9bc"
  createdAt := 1700000000
  kind := 402
  tags := [["p", "f9308a019258c31049344f85f89d5229b531c845836f99b08601f113bce036f9"],
    ["bolt11", "lnbc1"], ["expiration", "1702512000"]]
  content := "Invoice paid: 1000 sats"
  sig := "da619ef41f79a570f245116a9e35a64939066032198bb6a029ea684343ab9ac6" ++
    "570498ad7285b43718d94f556cbdf84f2287d9ac044188440236f29f24f07ea9"

/-- A callback of the payment processor is handled in the first client worker,
and all messages arrive. -/
def paidInWorker : Cluster :=
  Mealy.after (step [.worker, .worker, .maintenance])
    [.announce 0 .broadcastEvent invoicePaid, .forward 0, .deliver 0 true, .deliver 0 true] started

/-- **The worker that handles the callback** does not emit the event. -/
theorem not_reachesAll_invoicePaid : paidInWorker.messages = .empty ∧
    paidInWorker.announcements[0]? = some ⟨0, .broadcastEvent, ⟨broadcast, invoicePaid, none⟩⟩ ∧
    ¬ ReachesAll [.worker, .worker, .maintenance] paidInWorker 0
      ⟨0, .broadcastEvent, ⟨broadcast, invoicePaid, none⟩⟩ := by
  refine ⟨by decide +kernel, by decide +kernel, fun h => ?_⟩
  have hnone : paidInWorker.emissions 0 0 = [] := by decide +kernel
  exact nomatch hnone.symm.trans (h 0 rfl)

end NostrMesh.Relay.Workers
