/-
NostrMesh/Relay/Supervision.lean

The primary and its workers, which end and are replaced.

`App.run` forks the workers of the settings.  When the primary is told that one
has ended with a failure it forks another one in its place, ten seconds later; a
worker that has ended by itself or was interrupted is not replaced.  So each
place that was filled in the beginning is filled, waits for a new worker or has
been given up, and the primary always knows what to fork (`places_kept`).

`cluster.workers` has a worker until both its `exit` and its `disconnect` have
come.  A message that is forwarded before that to a worker that has ended is an
error that nothing handles, and ends the primary.

A new worker has an id of its own, and the messages for the old one are lost
with it.  Announcements still do not come twice, and reach all client workers
that have been there from the announcement on (`emitted_once`).
-/
import NostrMesh.Relay.Workers

namespace NostrMesh.Relay.Supervision

open Workers

/-! ### The primary -/

/-- The environment of a worker: `WORKER_TYPE`, with `WORKER_INDEX` or
`MIRROR_INDEX`. -/
inductive Env
  | worker (index : ℕ)
  | maintenance
  | staticMirroring (index : ℕ)
  deriving DecidableEq, Repr

/-- The workers that `App.run` creates, in this order. -/
def configured (workerCount mirrors : ℕ) : List Env :=
  (List.range workerCount).map .worker ++ [.maintenance] ++
    (List.range mirrors).map .staticMirroring

/-- What a process with this environment runs; `addresses` are those of the
mirrors in the settings. -/
def getRunner (addresses : List String) : Env → WorkerType
  | .worker _ => .worker
  | .maintenance => .maintenance
  | .staticMirroring index => .staticMirroring (addresses[index]?.getD "")

/-- The workers by their ids: what was forked, and the map `workers`; those
that run, those whose `exit` or `disconnect` is still to come, those that are to
be replaced, and those that have ended for good. -/
structure Primary where
  forked : List Env
  workers : List (ℕ × Env)
  alive : List ℕ
  /-- The `exit` events that the primary is to get, with their arguments. -/
  exiting : List (ℕ × Option ℕ × Option String)
  /-- The `disconnect` events that it is to get. -/
  disconnecting : List ℕ
  timers : List ℕ
  retired : List ℕ
  thrown : List String
  ended : Bool
  deriving DecidableEq

/-- `cluster.fork` and `workers.set`. -/
def Primary.createWorker (P : Primary) (env : Env) : Primary :=
  { P with
    forked := P.forked ++ [env]
    workers := (P.forked.length, env) :: P.workers
    alive := P.alive ++ [P.forked.length] }

/-- `App.run`. -/
def run (workerCount mirrors : ℕ) : Primary :=
  (configured workerCount mirrors).foldl Primary.createWorker ⟨[], [], [], [], [], [], [], [], false⟩

/-- A worker ends, and its channel closes. -/
def Primary.die (P : Primary) (i : ℕ) (code : Option ℕ) (signal : Option String) : Primary :=
  if i ∈ P.alive then
    { P with
      alive := P.alive.erase i
      exiting := P.exiting ++ [(i, code, signal)]
      disconnecting := P.disconnecting ++ [i] }
  else P

/-- The workers that are still listed, though they have ended. -/
def Primary.dead (P : Primary) : List ℕ := P.exiting.map Prod.fst ++ P.disconnecting

def Primary.onClusterExit (P : Primary) (deadWorker : ℕ) (code : Option ℕ) (signal : Option String) :
    Primary :=
  if code = some 0 ∨ signal = some "SIGINT" then { P with retired := P.retired ++ [deadWorker] }
  else { P with timers := P.timers ++ [deadWorker] }

/-- An `exit` event. -/
def Primary.onExitEvent (P : Primary) (k : ℕ) : Primary :=
  match P.exiting[k]? with
  | none => P
  | some (i, code, signal) =>
      { P with exiting := P.exiting.eraseIdx k }.onClusterExit i code signal

/-- A timer of `onClusterExit` runs out. -/
def Primary.onTimeout (P : Primary) (k : ℕ) : Primary :=
  match P.timers[k]? with
  | none => P
  | some i =>
      match P.workers.lookup i with
      | none => { P with timers := P.timers.eraseIdx k, thrown := P.thrown ++ ["Mistakes were made"] }
      | some workerEnv => { P with timers := P.timers.eraseIdx k }.createWorker workerEnv

/-! ### Places -/

/-- The ids of all places. -/
def Primary.places (P : Primary) : List ℕ :=
  P.alive ++ P.exiting.map Prod.fst ++ P.timers ++ P.retired

structure Primary.Kept (P : Primary) (places : List Env) : Prop where
  knows : ∀ i < P.forked.length, P.workers.lookup i = P.forked[i]?
  lt : ∀ i ∈ P.places, i < P.forked.length
  nodup : P.alive.Nodup
  filled : (P.places.map fun i => P.forked[i]?).Perm (places.map some)
  thrown : P.thrown = []

section

variable {P P' : Primary} {places : List Env}

theorem mem_places_of_alive {i : ℕ} (hi : i ∈ P.alive) : i ∈ P.places := by
  simp only [Primary.places, List.mem_append]
  exact Or.inl (Or.inl (Or.inl hi))

theorem getElem?_forked (h : P.Kept places) (env : Env) {i : ℕ} (hi : i ∈ P.places) :
    (P.forked ++ [env])[i]? = P.forked[i]? :=
  List.getElem?_append_left (h.lt i hi)

/-- A new worker takes its place. -/
theorem Primary.Kept.createWorker (h : P.Kept places) (env : Env) :
    (P.createWorker env).Kept (places ++ [env]) := by
  have hplaces : (P.createWorker env).places.Perm (P.places ++ [P.forked.length]) := by
    simp only [Primary.places, Primary.createWorker, List.append_assoc]
    exact List.Perm.append_left _ (List.perm_append_comm.trans (by simp))
  refine ⟨fun i hi => ?_, fun i hi => ?_, ?_, ?_, h.thrown⟩
  · -- the new id is the number of workers forked before, so it hides no other entry
    simp only [Primary.createWorker, List.length_append, List.length_singleton] at hi
    rcases Nat.lt_succ_iff_lt_or_eq.mp hi with hlt | rfl
    · have hne : (i == P.forked.length) = false := beq_false_of_ne (Nat.ne_of_lt hlt)
      simp only [Primary.createWorker, List.lookup_cons, hne]
      rw [List.getElem?_append_left hlt]
      exact h.knows i hlt
    · simp [Primary.createWorker]
  · rcases List.mem_append.mp (hplaces.mem_iff.mp hi) with hold | hnew
    · simpa [Primary.createWorker] using Nat.lt_succ_of_lt (h.lt i hold)
    · rw [List.mem_singleton.mp hnew]
      simp [Primary.createWorker]
  · refine List.nodup_append.mpr ⟨h.nodup, List.nodup_singleton _, fun i hi j hj => ?_⟩
    rw [List.mem_singleton.mp hj]
    exact Nat.ne_of_lt (h.lt i (mem_places_of_alive hi))
  · refine (hplaces.map _).trans ?_
    rw [List.map_append, List.map_append]
    refine List.Perm.append ?_ (by simp [Primary.createWorker])
    refine (List.Perm.of_eq (List.map_congr_left fun i hi => ?_)).trans h.filled
    exact getElem?_forked h env hi

theorem kept_run (workerCount mirrors : ℕ) :
    (run workerCount mirrors).Kept (configured workerCount mirrors) := by
  have hfold : ∀ (envs : List Env) {P : Primary} {places : List Env}, P.Kept places →
      (envs.foldl Primary.createWorker P).Kept (places ++ envs) := by
    intro envs
    induction envs with
    | nil => intro P places h; rwa [List.append_nil]
    | cons env envs ih =>
        intro P places h
        have hrest := ih (h.createWorker env)
        rwa [List.append_assoc] at hrest
  have hstart : (⟨[], [], [], [], [], [], [], [], false⟩ : Primary).Kept [] :=
    ⟨nofun, nofun, List.nodup_nil, List.Perm.nil, rfl⟩
  exact hfold _ hstart

/-- A change that moves ids from one list to another. -/
theorem Primary.Kept.move (h : P.Kept places) (hforked : P'.forked = P.forked)
    (hworkers : P'.workers = P.workers) (hthrown : P'.thrown = P.thrown)
    (hplaces : P'.places.Perm P.places) (hnodup : P'.alive.Nodup) : P'.Kept places where
  knows := by rw [hforked, hworkers]; exact h.knows
  lt i hi := by rw [hforked]; exact h.lt i (hplaces.mem_iff.mp hi)
  nodup := hnodup
  filled := by rw [hforked]; exact (hplaces.map _).trans h.filled
  thrown := hthrown.trans h.thrown

theorem Primary.Kept.perm (h : P.Kept places) {places' : List Env} (hperm : places.Perm places') :
    P.Kept places' :=
  ⟨h.knows, h.lt, h.nodup, h.filled.trans (hperm.map some), h.thrown⟩

theorem Primary.Kept.die (h : P.Kept places) (i : ℕ) (code : Option ℕ) (signal : Option String) :
    (P.die i code signal).Kept places := by
  rw [Primary.die]
  split_ifs with hi
  · refine h.move rfl rfl rfl (List.perm_iff_count.mpr fun j => ?_) (h.nodup.erase i)
    have hcount := (List.perm_cons_erase hi).count_eq j
    simp only [List.count_cons] at hcount
    simp only [Primary.places, List.map_append, List.map_cons, List.map_nil, List.count_append,
      List.count_cons, List.count_nil]
    omega
  · exact h

theorem onClusterExit_cases (P : Primary) (i : ℕ) (code : Option ℕ) (signal : Option String) :
    P.onClusterExit i code signal = { P with retired := P.retired ++ [i] } ∨
      P.onClusterExit i code signal = { P with timers := P.timers ++ [i] } := by
  rw [Primary.onClusterExit]
  split_ifs
  · exact Or.inl rfl
  · exact Or.inr rfl

theorem Primary.Kept.onExitEvent (h : P.Kept places) (k : ℕ) : (P.onExitEvent k).Kept places := by
  rcases hk : P.exiting[k]? with - | ⟨i, code, signal⟩
  · simpa only [Primary.onExitEvent, hk] using h
  simp only [Primary.onExitEvent, hk]
  have hexiting : (P.exiting.map Prod.fst).Perm (i :: (P.exiting.eraseIdx k).map Prod.fst) := by
    obtain ⟨hlt, heq⟩ := List.getElem?_eq_some_iff.mp hk
    have hperm := (List.getElem_cons_eraseIdx_perm hlt).symm.map Prod.fst
    rwa [heq] at hperm
  rcases onClusterExit_cases { P with exiting := P.exiting.eraseIdx k } i code signal with heq | heq
  all_goals
    -- the id moves from `exiting` to one of the other lists
    rw [heq]
    refine h.move rfl rfl rfl (List.perm_iff_count.mpr fun j => ?_) h.nodup
    have hcount := hexiting.count_eq j
    simp only [List.count_cons] at hcount
    simp only [Primary.places, List.count_append, List.count_cons, List.count_nil]
    omega

theorem Primary.Kept.onTimeout (h : P.Kept places) (k : ℕ) : (P.onTimeout k).Kept places := by
  rcases hk : P.timers[k]? with - | i
  · simpa only [Primary.onTimeout, hk] using h
  · have hi : i ∈ P.places :=
      List.mem_append_left _ (List.mem_append_right _ (List.mem_of_getElem? hk))
    obtain ⟨env, henv⟩ : ∃ env, P.forked[i]? = some env := ⟨_, List.getElem?_eq_getElem (h.lt i hi)⟩
    have hlookup : P.workers.lookup i = some env := (h.knows i (h.lt i hi)).trans henv
    simp only [Primary.onTimeout, hk, hlookup]
    -- the place of the dead worker is free, and the new one takes it
    have htimers : P.timers.Perm (i :: P.timers.eraseIdx k) := by
      obtain ⟨hlt, heq⟩ := List.getElem?_eq_some_iff.mp hk
      exact heq ▸ (List.getElem_cons_eraseIdx_perm hlt).symm
    have hplaces : P.places.Perm
        (i :: ({ P with timers := P.timers.eraseIdx k } : Primary).places) := by
      refine List.perm_iff_count.mpr fun j => ?_
      have hcount := htimers.count_eq j
      simp only [List.count_cons] at hcount
      simp only [Primary.places, List.count_append, List.count_cons]
      omega
    have hmem : env ∈ places := by
      have hsome : some env ∈ places.map some :=
        h.filled.mem_iff.mp (List.mem_map.mpr ⟨i, hi, henv⟩)
      obtain ⟨env', henv', heq⟩ := List.mem_map.mp hsome
      exact Option.some.inj heq ▸ henv'
    have hfilled : ((({ P with timers := P.timers.eraseIdx k } : Primary).places).map fun i =>
        P.forked[i]?).Perm ((places.erase env).map some) := by
      refine List.Perm.cons_inv (a := some env) ?_
      have hleft := (hplaces.map fun i => P.forked[i]?).symm.trans h.filled
      rw [List.map_cons, henv] at hleft
      exact hleft.trans ((List.perm_cons_erase hmem).map some)
    have hfree : ({ P with timers := P.timers.eraseIdx k } : Primary).Kept (places.erase env) :=
      ⟨h.knows, fun j hj => h.lt j (hplaces.mem_iff.mpr (List.mem_cons_of_mem _ hj)), h.nodup, hfilled,
        h.thrown⟩
    refine (hfree.createWorker env).perm ?_
    exact (List.perm_append_comm).trans (List.perm_cons_erase hmem).symm

end

/-! ### The cluster -/

/-- The processes and the messages between them.  For each announcement it is
noted which workers ran when it was made, and whether its message was lost.
What is sent to a primary that has ended stays unread. -/
structure Supervised where
  primary : Primary
  cluster : Cluster
  present : ℕ → List ℕ
  lost : List ℕ

def startedWith (workerCount mirrors : ℕ) : Supervised :=
  ⟨run workerCount mirrors, started, fun _ => [], []⟩

inductive Action
  | announce (i : ℕ) (path : Path) (event : Event)
  /-- The primary gets a message; `fails` says whether a channel that is closed
  raises an error, which it does unless it has messages left to write. -/
  | forward (k : ℕ) (fails : Bool)
  | deliver (k : ℕ) (isOpen : Bool)
  | die (i : ℕ) (code : Option ℕ) (signal : Option String)
  /-- The primary gets an `exit`. -/
  | exit (k : ℕ)
  /-- The primary gets a `disconnect`. -/
  | disconnect (k : ℕ)
  | timeout (k : ℕ)
  /-- A worker has ended before its message was sent. -/
  | lose (k : ℕ)
  /-- The primary gets `SIGTERM`, and `App.onExit` ends it. -/
  | terminate

section

variable (addresses : List String) (S : Supervised)

/-- What the workers run, by their ids. -/
def Supervised.types : List WorkerType := S.primary.forked.map (getRunner addresses)

def Supervised.step : Action → Supervised
  | .announce i path event =>
      if i ∈ S.primary.alive then
        { S with
          cluster := S.cluster.announce (S.types addresses) i path event
          present := Function.update S.present S.cluster.announcements.length S.primary.alive }
      else S
  | .forward k fails =>
      match S.cluster.messages.toHub[k]? with
      | none => S
      | some (source, _) =>
          if S.primary.ended then S
          else { S with
            cluster.messages := S.cluster.messages.forward S.primary.alive k
            -- the error comes after the loop, and there is no listener for it
            primary.ended := fails && S.primary.dead.any (· ≠ source) }
  | .deliver k isOpen => { S with cluster := S.cluster.deliver (S.types addresses) k isOpen }
  | .die i code signal =>
      { S with
        primary := S.primary.die i code signal
        -- what was on its way to the worker is lost
        cluster.messages.toParty := S.cluster.messages.toParty.filter fun p => p.1 ≠ i }
  | .exit k => if S.primary.ended then S else { S with primary := S.primary.onExitEvent k }
  | .disconnect k =>
      if S.primary.ended then S
      else { S with primary.disconnecting := S.primary.disconnecting.eraseIdx k }
  | .timeout k => if S.primary.ended then S else { S with primary := S.primary.onTimeout k }
  | .terminate => { S with primary.ended := true }
  | .lose k =>
      match S.cluster.messages.toHub[k]? with
      | none => S
      | some (i, envelope) =>
          if i ∈ S.primary.alive then S
          else { S with
            cluster.messages.toHub := S.cluster.messages.toHub.eraseIdx k
            lost := S.lost ++ [envelope.announcement] }

def machine : Mealy.Machine Supervised Action Unit := fun action S => ((), S.step addresses action)

end

/-! ### What is announced and delivered -/

section

variable {types : List WorkerType} {C : Cluster}

/-- A worker that has the path makes an announcement of its own. -/
theorem announce_cases (types : List WorkerType) (C : Cluster) (i : ℕ) (path : Path) (event : Event) :
    C.announce types i path event = C ∨
      ∃ a : Announcement, a.worker = i ∧ a.message.eventName = broadcast ∧
        C.announce types i path event =
          { C.send a with emitted := C.emitted ++ a.emittedHere C.announcements.length } := by
  have hplain : ∀ a : Announcement, a.path ≠ .onBroadcast →
      C.send a = { C.send a with emitted := C.emitted ++ a.emittedHere C.announcements.length } := by
    intro a ha
    rw [Announcement.emittedHere, if_neg ha, List.append_nil]
    rfl
  unfold Cluster.announce
  split
  · exact Or.inr ⟨_, rfl, rfl, rfl⟩
  · exact Or.inr ⟨_, rfl, rfl, hplain _ (by simp)⟩
  · exact Or.inr ⟨_, rfl, rfl, hplain _ (by simp)⟩
  · exact Or.inr ⟨_, rfl, rfl, hplain _ (by simp)⟩
  · exact Or.inl rfl

/-- The worker `j` has got its message, and emitted it if it is a client
worker. -/
def received (types : List WorkerType) (C : Cluster) (k j : ℕ) (envelope : Envelope)
    (relayed : List (ℕ × Envelope)) : Cluster where
  announcements := C.announcements
  messages := C.messages.receive k
  emitted := C.emitted ++ if types[j]? = some .worker then
    [⟨j, envelope.announcement, envelope.message.eventName, envelope.message.event⟩] else []
  relayed := relayed

/-- What a delivery does besides what the mirrors pass on. -/
theorem deliver_cases (types : List WorkerType) (C : Cluster) (k : ℕ) (isOpen : Bool) :
    C.deliver types k isOpen = C ∨
      ∃ j envelope relayed, C.messages.toParty[k]? = some (j, envelope) ∧
        C.deliver types k isOpen = received types C k j envelope relayed := by
  rcases e : C.messages.toParty[k]? with - | ⟨j, envelope⟩
  · exact Or.inl (by simp only [Cluster.deliver, e])
  · simp only [Cluster.deliver, e, Cluster.onMessage]
    rcases htype : types[j]? with - | - | - | address
    · exact Or.inr ⟨j, envelope, C.relayed, rfl, by simp [received, htype]⟩
    · exact Or.inr ⟨j, envelope, C.relayed, rfl, by simp [received, htype]⟩
    · exact Or.inr ⟨j, envelope, C.relayed, rfl, by simp [received, htype]⟩
    · dsimp only
      split
      · exact Or.inr ⟨j, envelope, C.relayed, rfl, by simp [received, htype]⟩
      · exact Or.inr ⟨j, envelope, C.relayed ++ [(j, envelope)], rfl, by simp [received, htype]⟩

end

/-! ### The invariant -/

section

variable {addresses : List String} {places : List Env} {S : Supervised}

/-- What the worker has emitted of the announcement, and what is due to it. -/
def Supervised.total (S : Supervised) (t : ℕ) (a : Announcement) (j : ℕ) : ℕ :=
  (S.cluster.emissions j t).length + S.cluster.messages.due j ⟨t, a.message⟩

/-- The message is that of an announcement of this worker. -/
def Supervised.Sent (S : Supervised) (i : ℕ) (envelope : Envelope) : Prop :=
  ∃ a, S.cluster.announcements[envelope.announcement]? = some a ∧ envelope.message = a.message ∧
    a.worker = i

structure Consistent (addresses : List String) (places : List Env) (S : Supervised) : Prop where
  kept : S.primary.Kept places
  announced : ∀ a ∈ S.cluster.announcements, a.worker < S.primary.forked.length ∧
    a.message.eventName = broadcast
  toHub : ∀ p ∈ S.cluster.messages.toHub, S.Sent p.1 p.2
  toParty : ∀ p ∈ S.cluster.messages.toParty, p.1 ∈ S.primary.alive ∧ ∃ i, S.Sent i p.2
  emitted : ∀ e ∈ S.cluster.emitted, e.worker < S.primary.forked.length ∧
    ∃ a, S.cluster.announcements[e.announcement]? = some a ∧ e.eventName = broadcast ∧
      e.event = a.message.event
  present : ∀ t, ∀ j ∈ S.present t, j < S.primary.forked.length
  /-- One message was sent for each announcement. -/
  single : ∀ t, S.cluster.messages.toHub.countP (fun p => p.2.announcement = t) ≤ 1
  lost : ∀ t ∈ S.lost, ∃ a, S.cluster.announcements[t]? = some a ∧ a.worker ∉ S.primary.alive
  /-- Nothing is emitted too often, by any client worker, dead or alive. -/
  counted : ∀ t a, S.cluster.announcements[t]? = some a → ∀ j,
    (S.types addresses)[j]? = some .worker →
      (S.cluster.emissions j t).length ≤ a.expected j ∧
        (j ∈ S.primary.alive → S.total t a j ≤ a.expected j)
  /-- Nothing is missing at those that have been there since. -/
  complete : ∀ t a, S.cluster.announcements[t]? = some a → ∀ j ∈ S.primary.alive,
    (S.types addresses)[j]? = some .worker → j ∈ S.present t → t ∉ S.lost →
      S.total t a j = a.expected j

theorem consistent_started (addresses : List String) (workerCount mirrors : ℕ) :
    Consistent addresses (configured workerCount mirrors) (startedWith workerCount mirrors) :=
  ⟨kept_run workerCount mirrors, nofun, nofun, nofun, nofun, nofun, fun _ => Nat.zero_le _, nofun,
    nofun, nofun⟩

/-- Nothing has been emitted for the number that comes next. -/
theorem Consistent.emissions_next (h : Consistent addresses places S) (j : ℕ) :
    S.cluster.emissions j S.cluster.announcements.length = [] := by
  refine List.filter_eq_nil_iff.mpr fun e he => ?_
  obtain ⟨-, b, hb, -⟩ := h.emitted e he
  have hlt : e.announcement < S.cluster.announcements.length := (List.getElem?_eq_some_iff.mp hb).1
  simp [Nat.ne_of_lt hlt]

theorem Supervised.Sent.lt {i : ℕ} {envelope : Envelope} (h : S.Sent i envelope) :
    envelope.announcement < S.cluster.announcements.length := by
  obtain ⟨b, hb, -⟩ := h
  exact (List.getElem?_eq_some_iff.mp hb).1

theorem Consistent.due_next (h : Consistent addresses places S) (j : ℕ) (message : Message) :
    S.cluster.messages.due j ⟨S.cluster.announcements.length, message⟩ = 0 := by
  apply Hub.due_eq_zero
  · intro p hp heq
    exact absurd (h.toHub p hp).lt (heq ▸ Nat.lt_irrefl _)
  · intro p hp heq
    obtain ⟨-, i, hsent⟩ := h.toParty p hp
    exact absurd hsent.lt (heq ▸ Nat.lt_irrefl _)

/-- The cluster after an announcement. -/
def sendOwn (C : Cluster) (a : Announcement) : Cluster :=
  { C.send a with emitted := C.emitted ++ a.emittedHere C.announcements.length }

theorem length_emissions_sendOwn (C : Cluster) (a : Announcement) (j t : ℕ) :
    ((sendOwn C a).emissions j t).length = (C.emissions j t).length +
      if a.path = .onBroadcast ∧ a.worker = j ∧ C.announcements.length = t then 1 else 0 := by
  rw [← a.length_emittedHere]
  exact (C.send a).length_emissions _ j t

theorem due_sendOwn (C : Cluster) (a : Announcement) (j : ℕ) (envelope : Envelope) :
    (sendOwn C a).messages.due j envelope = C.messages.due j envelope +
      if a.worker ≠ j ∧ (⟨C.announcements.length, a.message⟩ : Envelope) = envelope then 1 else 0 :=
  Hub.due_post

/-- What an announcement comes to at each worker. -/
theorem Consistent.total_sendOwn (h : Consistent addresses places S) {a b : Announcement} {t : ℕ}
    (hb : (sendOwn S.cluster a).announcements[t]? = some b) (j : ℕ) :
    (t < S.cluster.announcements.length ∧ S.cluster.announcements[t]? = some b ∧
        ((sendOwn S.cluster a).emissions j t).length = (S.cluster.emissions j t).length ∧
        (sendOwn S.cluster a).messages.due j ⟨t, b.message⟩ =
          S.cluster.messages.due j ⟨t, b.message⟩) ∨
      (t = S.cluster.announcements.length ∧ b = a ∧
        ((sendOwn S.cluster a).emissions j t).length +
          (sendOwn S.cluster a).messages.due j ⟨t, b.message⟩ = a.expected j) := by
  rw [length_emissions_sendOwn, due_sendOwn]
  rcases Nat.lt_or_ge t S.cluster.announcements.length with hlt | hge
  · have hne : S.cluster.announcements.length ≠ t := Nat.ne_of_gt hlt
    exact Or.inl ⟨hlt, (List.getElem?_append_left hlt).symm.trans hb, by simp [hne], by simp [hne]⟩
  · have hle : t ≤ S.cluster.announcements.length := by
      simpa [sendOwn, Cluster.send, Nat.lt_succ_iff] using (List.getElem?_eq_some_iff.mp hb).1
    obtain rfl : t = S.cluster.announcements.length := Nat.le_antisymm hle hge
    obtain rfl : a = b := Option.some.inj (List.getElem?_concat_length.symm.trans hb)
    refine Or.inr ⟨rfl, rfl, ?_⟩
    rw [h.emissions_next, h.due_next, Announcement.expected]
    by_cases hworker : a.worker = j
    · -- either the announcer emits it at once, or its message is due
      simp [hworker]
    · simp [hworker]

/-- An announcement keeps its number. -/
theorem Supervised.Sent.sendOwn {i : ℕ} {envelope : Envelope} (h : S.Sent i envelope) (a : Announcement)
    (present : ℕ → List ℕ) :
    ({ S with cluster := sendOwn S.cluster a, present } : Supervised).Sent i envelope := by
  obtain ⟨b, hb, hrest⟩ := h
  exact ⟨b, Cluster.getElem?_send hb, hrest⟩

/-- **An announcement** is due to all workers that run, or made by them. -/
theorem Consistent.announce (h : Consistent addresses places S) {a : Announcement}
    (ha : a.worker ∈ S.primary.alive) (hname : a.message.eventName = broadcast) :
    Consistent addresses places { S with
      cluster := sendOwn S.cluster a
      present := Function.update S.present S.cluster.announcements.length S.primary.alive } := by
  have hlt : ∀ i ∈ S.primary.alive, i < S.primary.forked.length := fun i hi =>
    h.kept.lt _ (mem_places_of_alive hi)
  refine ⟨h.kept, fun b hb => ?_, fun p hp => ?_, fun p hp => ?_, fun e he => ?_, fun t j hj => ?_,
    fun t => ?_, fun t ht => ?_, fun t b hb j hj => ?_, fun t b hb j hj htype hpresent hlost => ?_⟩
  · rcases List.mem_append.mp hb with hold | hnew
    · exact h.announced b hold
    · rw [List.mem_singleton.mp hnew]
      exact ⟨hlt _ ha, hname⟩
  · rcases List.mem_append.mp hp with hold | hnew
    · exact (h.toHub p hold).sendOwn a _
    · rw [List.mem_singleton.mp hnew]
      exact ⟨a, List.getElem?_concat_length, rfl, rfl⟩
  · obtain ⟨hj, i, hsent⟩ := h.toParty p hp
    exact ⟨hj, i, hsent.sendOwn a _⟩
  · rcases List.mem_append.mp he with hold | hnew
    · obtain ⟨hworker, b, hb, hcontents⟩ := h.emitted e hold
      exact ⟨hworker, b, Cluster.getElem?_send hb, hcontents⟩
    · rw [Announcement.emittedHere] at hnew
      split at hnew
      · obtain rfl := List.mem_singleton.mp hnew
        exact ⟨hlt _ ha, a, List.getElem?_concat_length, rfl, rfl⟩
      · cases hnew
  · dsimp only at hj
    by_cases ht : t = S.cluster.announcements.length
    · subst ht
      rw [Function.update_self] at hj
      exact hlt j hj
    · rw [Function.update_of_ne ht] at hj
      exact h.present t j hj
  · -- the message of this announcement is the only one with its number
    have hsingle := h.single t
    simp only [sendOwn, Cluster.send, Hub.post, List.countP_append, List.countP_singleton]
    split_ifs with hnew
    · have hzero : S.cluster.messages.toHub.countP (fun p => p.2.announcement = t) = 0 := by
        refine List.countP_eq_zero.mpr fun p hp heq => ?_
        have hltp := (h.toHub p hp).lt
        rw [of_decide_eq_true heq, ← of_decide_eq_true hnew] at hltp
        exact Nat.lt_irrefl _ hltp
      omega
    · exact hsingle
  · obtain ⟨b, hb, hdead⟩ := h.lost t ht
    exact ⟨b, Cluster.getElem?_send hb, hdead⟩
  · rcases h.total_sendOwn hb j with ⟨-, hold, hemissions, hdue⟩ | ⟨rfl, rfl, htotal⟩
    · have hcounted := h.counted t b hold j hj
      refine ⟨Nat.le_trans (Nat.le_of_eq hemissions) hcounted.1, fun halive => ?_⟩
      rw [Supervised.total, hemissions, hdue]
      exact hcounted.2 halive
    · exact ⟨Nat.le_trans (Nat.le_add_right _ _) (Nat.le_of_eq htotal), fun _ => Nat.le_of_eq htotal⟩
  · rcases h.total_sendOwn hb j with ⟨htlt, hold, hemissions, hdue⟩ | ⟨rfl, rfl, htotal⟩
    · dsimp only at hpresent
      rw [Function.update_of_ne (Nat.ne_of_lt htlt)] at hpresent
      rw [Supervised.total, hemissions, hdue]
      exact h.complete t b hold j hj htype hpresent hlost
    · exact htotal

/-- **The primary** forwards a message to all that run. -/
theorem Consistent.forward (h : Consistent addresses places S) (k : ℕ) :
    Consistent addresses places
      { S with cluster.messages := S.cluster.messages.forward S.primary.alive k } := by
  rcases e : S.cluster.messages.toHub[k]? with - | ⟨i, envelope⟩
  · have hsame : S.cluster.messages.forward S.primary.alive k = S.cluster.messages := by
      simp only [Hub.forward, e]
    rwa [hsame]
  -- a message on its way to the primary counts as due already
  have hdue : ∀ j ∈ S.primary.alive, ∀ m, Hub.due j m (S.cluster.messages.forward S.primary.alive k) =
      S.cluster.messages.due j m := fun j hj m => Hub.due_forward h.kept.nodup hj
  have hforward : S.cluster.messages.forward S.primary.alive k =
      ⟨S.cluster.messages.toHub.eraseIdx k,
        S.cluster.messages.toParty ++ Hub.copies S.primary.alive i envelope⟩ := by
    simp only [Hub.forward, e]
  refine ⟨h.kept, h.announced, fun p hp => ?_, fun p hp => ?_, h.emitted, h.present, fun t => ?_,
    h.lost, fun t a ha j hj => ⟨(h.counted t a ha j hj).1, fun halive => ?_⟩,
    fun t a ha j hj htype hpresent hlost => ?_⟩
  · simp only [hforward] at hp
    exact h.toHub p (List.mem_of_mem_eraseIdx hp)
  · simp only [hforward] at hp
    rcases List.mem_append.mp hp with hold | hnew
    · exact h.toParty p hold
    · obtain ⟨j, hj, rfl⟩ := List.mem_map.mp hnew
      exact ⟨(List.mem_filter.mp hj).1, i, h.toHub (i, envelope) (List.mem_of_getElem? e)⟩
  · simp only [hforward]
    exact Nat.le_trans (List.Sublist.countP_le (List.eraseIdx_sublist _ _)) (h.single t)
  · have hcounted := (h.counted t a ha j hj).2 halive
    rwa [Supervised.total, ← hdue j halive] at hcounted
  · have hcomplete := h.complete t a ha j hj htype hpresent hlost
    rwa [Supervised.total, ← hdue j hj] at hcomplete

/-- The message that arrives is that of one announcement. -/
theorem Consistent.due_receive (h : Consistent addresses places S) {k i t : ℕ} {envelope : Envelope}
    {a : Announcement} (e : S.cluster.messages.toParty[k]? = some (i, envelope))
    (ha : S.cluster.announcements[t]? = some a) (j : ℕ) :
    S.cluster.messages.due j ⟨t, a.message⟩ = (S.cluster.messages.receive k).due j ⟨t, a.message⟩ +
      if i = j ∧ envelope.announcement = t then 1 else 0 := by
  obtain ⟨-, _, b, hb, hmessage, -⟩ := h.toParty (i, envelope) (List.mem_of_getElem? e)
  have hnumber : envelope = ⟨t, a.message⟩ ↔ envelope.announcement = t := by
    constructor
    · rintro rfl
      rfl
    · rintro rfl
      obtain rfl := Option.some.inj (hb.symm.trans ha)
      rw [← hmessage]
  rw [Hub.due_receive e]
  congr 1
  exact if_congr (and_congr_right fun _ => hnumber) rfl rfl

/-- **A worker** that runs gets a message. -/
theorem Consistent.deliver (h : Consistent addresses places S) (k : ℕ) (isOpen : Bool) :
    Consistent addresses places
      { S with cluster := S.cluster.deliver (S.types addresses) k isOpen } := by
  rcases deliver_cases (S.types addresses) S.cluster k isOpen with hsame | ⟨i, envelope, relayed, e, heq⟩
  · rwa [hsame]
  rw [heq]
  obtain ⟨halive, i', b, hb, hmessage, -⟩ := h.toParty (i, envelope) (List.mem_of_getElem? e)
  -- a client worker emits what is no longer due to it, others do not count
  have htotal : ∀ t a, S.cluster.announcements[t]? = some a → ∀ j,
      (S.types addresses)[j]? = some .worker →
        ((received (S.types addresses) S.cluster k i envelope relayed).emissions j t).length =
          (S.cluster.emissions j t).length + if i = j ∧ envelope.announcement = t then 1 else 0 := by
    intro t a ha j hj
    refine (S.cluster.length_emissions _ j t).trans ?_
    congr 1
    by_cases hboth : i = j ∧ envelope.announcement = t
    · rw [if_pos (hboth.1 ▸ hj)]
      simp [hboth]
    · split_ifs
      · simp [hboth]
      · rfl
  have hdue : ∀ t a, S.cluster.announcements[t]? = some a → ∀ j,
      S.cluster.messages.due j ⟨t, a.message⟩ =
        (received (S.types addresses) S.cluster k i envelope relayed).messages.due j ⟨t, a.message⟩ +
          if i = j ∧ envelope.announcement = t then 1 else 0 :=
    fun t a ha j => h.due_receive e ha j
  refine ⟨h.kept, h.announced, h.toHub, fun p hp => h.toParty p (List.mem_of_mem_eraseIdx hp),
    fun e' he => ?_, h.present, h.single, h.lost, fun t a ha j hj => ?_,
    fun t a ha j hj htype hpresent hlost => ?_⟩
  · rcases List.mem_append.mp he with hold | hnew
    · exact h.emitted e' hold
    · split_ifs at hnew
      · obtain rfl := List.mem_singleton.mp hnew
        refine ⟨h.kept.lt _ (mem_places_of_alive halive), b, hb, ?_, ?_⟩
        · rw [hmessage]
          exact (h.announced b (List.mem_of_getElem? hb)).2
        · rw [hmessage]
      · cases hnew
  · have hcounted := h.counted t a ha j hj
    have hemissions := htotal t a ha j hj
    have hreceived := hdue t a ha j
    simp only [Supervised.total] at hcounted ⊢
    by_cases hj' : j ∈ S.primary.alive
    · have hle := hcounted.2 hj'
      exact ⟨by omega, fun _ => by omega⟩
    · -- a worker that has ended gets nothing
      have hne : i ≠ j := fun heq => hj' (heq ▸ halive)
      rw [if_neg fun hboth => hne hboth.1] at hemissions
      exact ⟨Nat.le_trans (Nat.le_of_eq hemissions) hcounted.1, fun hin => absurd hin hj'⟩
  · have hcomplete := h.complete t a ha j hj htype hpresent hlost
    have hemissions := htotal t a ha j htype
    have hreceived := hdue t a ha j
    simp only [Supervised.total] at hcomplete ⊢
    omega

/-- What the primary notes about workers that have ended changes nothing for
the others. -/
theorem Consistent.of_primary (h : Consistent addresses places S) {P : Primary} (hkept : P.Kept places)
    (hforked : P.forked = S.primary.forked) (halive : P.alive = S.primary.alive) :
    Consistent addresses places { S with primary := P } := by
  refine ⟨hkept, ?_, h.toHub, ?_, ?_, ?_, h.single, ?_, ?_, ?_⟩
  · simpa only [hforked] using h.announced
  · simpa only [halive, Supervised.Sent] using h.toParty
  · simpa only [hforked] using h.emitted
  · simpa only [hforked] using h.present
  · simpa only [halive] using h.lost
  · simpa only [Supervised.types, hforked, halive, Supervised.total] using h.counted
  · simpa only [Supervised.types, hforked, halive, Supervised.total] using h.complete

theorem onExitEvent_spec (P : Primary) (k : ℕ) :
    (P.onExitEvent k).forked = P.forked ∧ (P.onExitEvent k).alive = P.alive := by
  rw [Primary.onExitEvent]
  split
  · exact ⟨rfl, rfl⟩
  · next i code signal _ =>
    rcases onClusterExit_cases { P with exiting := P.exiting.eraseIdx k } i code signal with heq | heq
    · rw [heq]
      exact ⟨rfl, rfl⟩
    · rw [heq]
      exact ⟨rfl, rfl⟩

/-- **A worker ends.** -/
theorem Consistent.die (h : Consistent addresses places S) (i : ℕ) (code : Option ℕ)
    (signal : Option String) : Consistent addresses places { S with
      primary := S.primary.die i code signal
      cluster.messages.toParty := S.cluster.messages.toParty.filter fun p => p.1 ≠ i } := by
  have hforked : (S.primary.die i code signal).forked = S.primary.forked := by
    rw [Primary.die]
    split_ifs
    · rfl
    · rfl
  -- the others run on
  have halive : ∀ j, j ∈ (S.primary.die i code signal).alive ↔ j ∈ S.primary.alive ∧ j ≠ i := by
    intro j
    rw [Primary.die]
    split_ifs with hi
    · exact h.kept.nodup.mem_erase_iff.trans and_comm
    · exact ⟨fun hj => ⟨hj, fun heq => hi (heq ▸ hj)⟩, And.left⟩
  have hdue : ∀ j, j ≠ i → ∀ m, Hub.due j m
      ⟨S.cluster.messages.toHub, S.cluster.messages.toParty.filter fun p => p.1 ≠ i⟩ =
        S.cluster.messages.due j m := by
    intro j hj m
    simp only [Hub.due, List.countP_filter]
    congr 1
    refine List.countP_congr fun p _ => ?_
    simp only [Bool.and_eq_true, decide_eq_true_eq]
    exact ⟨And.left, fun hp => ⟨hp, fun heq => hj (hp.1.symm.trans heq)⟩⟩
  refine ⟨h.kept.die i code signal, fun a ha => ?_, h.toHub, fun p hp => ?_, fun e he => ?_,
    fun t j hj => ?_, h.single, fun t ht => ?_, fun t a ha j hj => ?_,
    fun t a ha j hj htype hpresent hlost => ?_⟩
  · rw [hforked]
    exact h.announced a ha
  · obtain ⟨hmem, hne⟩ := List.mem_filter.mp hp
    obtain ⟨hj, hsent⟩ := h.toParty p hmem
    exact ⟨(halive p.1).mpr ⟨hj, of_decide_eq_true hne⟩, hsent⟩
  · rw [hforked]
    exact h.emitted e he
  · rw [hforked]
    exact h.present t j hj
  · obtain ⟨a, ha, hdead⟩ := h.lost t ht
    exact ⟨a, ha, fun hin => hdead ((halive _).mp hin).1⟩
  · rw [Supervised.types, hforked] at hj
    refine ⟨(h.counted t a ha j hj).1, fun hin => ?_⟩
    obtain ⟨hj', hne⟩ := (halive j).mp hin
    have hcounted := (h.counted t a ha j hj).2 hj'
    rwa [Supervised.total, ← hdue j hne] at hcounted
  · rw [Supervised.types, hforked] at htype
    obtain ⟨hj', hne⟩ := (halive j).mp hj
    have hcomplete := h.complete t a ha j hj' htype hpresent hlost
    rwa [Supervised.total, ← hdue j hne] at hcomplete

/-- A timer that runs out adds at most a worker, with the next id. -/
theorem onTimeout_cases (P : Primary) (k : ℕ) : ∃ envs new, (P.onTimeout k).forked = P.forked ++ envs ∧
    (P.onTimeout k).alive = P.alive ++ new ∧ ∀ j ∈ new, j = P.forked.length := by
  rw [Primary.onTimeout]
  split
  · exact ⟨[], [], by simp, by simp, nofun⟩
  · split
    · exact ⟨[], [], by simp, by simp, nofun⟩
    · exact ⟨_, _, rfl, rfl, fun j hj => List.mem_singleton.mp hj⟩

/-- **A new worker** has emitted nothing, and at most one message of each
announcement is still to come. -/
theorem Consistent.timeout (h : Consistent addresses places S) (k : ℕ) :
    Consistent addresses places { S with primary := S.primary.onTimeout k } := by
  obtain ⟨envs, new, hforked, halive, hnew⟩ := onTimeout_cases S.primary k
  have hlt : ∀ j, j < S.primary.forked.length → j < (S.primary.onTimeout k).forked.length := by
    intro j hj
    rw [hforked, List.length_append]
    exact Nat.lt_add_right _ hj
  have hold : ∀ j, j < S.primary.forked.length → j ∈ (S.primary.onTimeout k).alive →
      j ∈ S.primary.alive := by
    intro j hj hmem
    rw [halive] at hmem
    rcases List.mem_append.mp hmem with hmem | hmem
    · exact hmem
    · exact absurd (hnew j hmem) (Nat.ne_of_lt hj)
  have htypes : ∀ j, j < S.primary.forked.length → ∀ type,
      (({ S with primary := S.primary.onTimeout k } : Supervised).types addresses)[j]? = some type →
        (S.types addresses)[j]? = some type := by
    intro j hj type htype
    rw [Supervised.types, hforked, List.map_append, List.getElem?_append_left (by simpa using hj)] at htype
    exact htype
  refine ⟨h.kept.onTimeout k, fun a ha => ⟨hlt _ (h.announced a ha).1, (h.announced a ha).2⟩, h.toHub,
    fun p hp => ⟨?_, (h.toParty p hp).2⟩, fun e he => ⟨hlt _ (h.emitted e he).1, (h.emitted e he).2⟩,
    fun t j hj => hlt j (h.present t j hj), h.single, fun t ht => ?_, fun t a ha j hj => ?_,
    fun t a ha j hj htype hpresent hlost => ?_⟩
  · rw [halive]
    exact List.mem_append_left _ (h.toParty p hp).1
  · obtain ⟨a, ha, hdead⟩ := h.lost t ht
    exact ⟨a, ha, fun hin => hdead (hold _ (h.announced a (List.mem_of_getElem? ha)).1 hin)⟩
  · -- a worker with a new id has got nothing, and one message at most is still to come
    have hworker := (h.announced a (List.mem_of_getElem? ha)).1
    rcases Nat.lt_or_ge j S.primary.forked.length with hjlt | hge
    · have hcounted := h.counted t a ha j (htypes j hjlt _ hj)
      exact ⟨hcounted.1, fun hin => hcounted.2 (hold j hjlt hin)⟩
    · have hnone : S.cluster.emissions j t = [] := by
        refine List.filter_eq_nil_iff.mpr fun e he => ?_
        have hne : e.worker ≠ j := Nat.ne_of_lt (Nat.lt_of_lt_of_le (h.emitted e he).1 hge)
        simp [hne]
      have hparty : S.cluster.messages.toParty.countP (fun p => p.1 = j ∧ p.2 = ⟨t, a.message⟩) = 0 := by
        refine List.countP_eq_zero.mpr fun p hp hboth => ?_
        have hplt := h.kept.lt _ (mem_places_of_alive (h.toParty p hp).1)
        rw [(of_decide_eq_true hboth).1] at hplt
        exact Nat.lt_irrefl _ (Nat.lt_of_lt_of_le hplt hge)
      have hhub : S.cluster.messages.toHub.countP (fun p => p.1 ≠ j ∧ p.2 = ⟨t, a.message⟩) ≤ 1 := by
        refine Nat.le_trans (List.countP_mono_left fun p hp hboth => ?_) (h.single t)
        exact decide_eq_true (congrArg Envelope.announcement (of_decide_eq_true hboth).2)
      have hexpected : a.expected j = 1 := by
        rw [Announcement.expected, if_pos (Or.inl (Nat.ne_of_lt (Nat.lt_of_lt_of_le hworker hge)))]
      refine ⟨?_, fun _ => ?_⟩
      · show (S.cluster.emissions j t).length ≤ _
        rw [hnone]
        exact Nat.zero_le _
      · show (S.cluster.emissions j t).length + S.cluster.messages.due j ⟨t, a.message⟩ ≤ _
        rw [hnone, Hub.due, hparty, hexpected]
        simpa using hhub
  · have hjlt := h.present t j hpresent
    exact h.complete t a ha j (hold j hjlt hj) (htypes j hjlt _ htype) hpresent hlost

/-- A message of a worker that has ended is lost. -/
theorem Consistent.lose (h : Consistent addresses places S) {k i : ℕ} {envelope : Envelope}
    (e : S.cluster.messages.toHub[k]? = some (i, envelope)) (hi : i ∉ S.primary.alive) :
    Consistent addresses places { S with
      cluster.messages.toHub := S.cluster.messages.toHub.eraseIdx k
      lost := S.lost ++ [envelope.announcement] } := by
  have hdue : ∀ j m, S.cluster.messages.due j m =
      Hub.due j m ⟨S.cluster.messages.toHub.eraseIdx k, S.cluster.messages.toParty⟩ +
        if i ≠ j ∧ envelope = m then 1 else 0 := by
    intro j m
    have hout := Hub.countP_eraseIdx_add e fun p => decide (p.1 ≠ j ∧ p.2 = m)
    simp only [decide_eq_true_eq] at hout
    simp only [Hub.due]
    omega
  refine ⟨h.kept, h.announced, fun p hp => h.toHub p (List.mem_of_mem_eraseIdx hp), h.toParty, h.emitted,
    h.present, fun t => ?_, fun t ht => ?_, fun t a ha j hj => ⟨(h.counted t a ha j hj).1, fun hin => ?_⟩,
    fun t a ha j hj htype hpresent hlost => ?_⟩
  · exact Nat.le_trans (List.Sublist.countP_le (List.eraseIdx_sublist _ _)) (h.single t)
  · rcases List.mem_append.mp ht with hold | hnew
    · exact h.lost t hold
    · obtain ⟨a, ha, -, hworker⟩ := h.toHub (i, envelope) (List.mem_of_getElem? e)
      rw [List.mem_singleton.mp hnew]
      exact ⟨a, ha, hworker ▸ hi⟩
  · refine Nat.le_trans ?_ ((h.counted t a ha j hj).2 hin)
    rw [Supervised.total, Supervised.total, hdue j]
    exact Nat.add_le_add_left (Nat.le_add_right _ _) _
  · -- the message of another announcement
    have hne : envelope ≠ ⟨t, a.message⟩ := by
      rintro rfl
      exact hlost (List.mem_append_right _ (List.mem_singleton_self _))
    have hcomplete := h.complete t a ha j hj htype hpresent fun ht => hlost (List.mem_append_left _ ht)
    rwa [Supervised.total, hdue j, if_neg fun hboth => hne hboth.2, Nat.add_zero] at hcomplete

/-- A worker that does not have the path announces nothing. -/
theorem Consistent.unannounced (h : Consistent addresses places S) : Consistent addresses places { S with
    present := Function.update S.present S.cluster.announcements.length S.primary.alive } := by
  refine ⟨h.kept, h.announced, h.toHub, h.toParty, h.emitted, fun t j hj => ?_, h.single, h.lost,
    h.counted, fun t a ha j hj htype hpresent hlost => ?_⟩
  · dsimp only at hj
    by_cases ht : t = S.cluster.announcements.length
    · subst ht
      rw [Function.update_self] at hj
      exact h.kept.lt j (mem_places_of_alive hj)
    · rw [Function.update_of_ne ht] at hj
      exact h.present t j hj
  · dsimp only at hpresent
    have hlt : t < S.cluster.announcements.length := (List.getElem?_eq_some_iff.mp ha).1
    rw [Function.update_of_ne (Nat.ne_of_lt hlt)] at hpresent
    exact h.complete t a ha j hj htype hpresent hlost

theorem Consistent.step (h : Consistent addresses places S) (action : Action) :
    Consistent addresses places (S.step addresses action) := by
  cases action with
  | announce i path event =>
      rw [Supervised.step]
      split_ifs with hi
      · rcases announce_cases (S.types addresses) S.cluster i path event with hsame | ⟨a, rfl, hname, ha⟩
        · rw [hsame]
          exact h.unannounced
        · rw [ha]
          exact h.announce hi hname
      · exact h
  | forward k fails =>
      rw [Supervised.step]
      split
      · exact h
      · split
        · exact h
        · exact (h.forward k).of_primary (h.kept.move rfl rfl rfl (List.Perm.refl _) h.kept.nodup) rfl rfl
  | deliver k isOpen => exact h.deliver k isOpen
  | die i code signal => exact h.die i code signal
  | exit k =>
      obtain ⟨hforked, halive⟩ := onExitEvent_spec S.primary k
      rw [Supervised.step]
      split
      · exact h
      · exact h.of_primary (h.kept.onExitEvent k) hforked halive
  | disconnect k =>
      rw [Supervised.step]
      split
      · exact h
      · exact h.of_primary (h.kept.move rfl rfl rfl (List.Perm.refl _) h.kept.nodup) rfl rfl
  | timeout k =>
      rw [Supervised.step]
      split
      · exact h
      · exact h.timeout k
  | lose k =>
      rcases e : S.cluster.messages.toHub[k]? with - | ⟨i, envelope⟩
      · simpa only [Supervised.step, e] using h
      · simp only [Supervised.step, e]
        split_ifs with hi
        · exact h
        · exact h.lose e hi
  | terminate =>
      exact h.of_primary (h.kept.move rfl rfl rfl (List.Perm.refl _) h.kept.nodup) rfl rfl

end

/-! ### Any run -/

/-- A worker that ends by itself, or is interrupted. -/
def endsForGood (code : Option ℕ) (signal : Option String) : Prop :=
  code = some 0 ∨ signal = some "SIGINT"

def Action.EndsForGood : Action → Prop
  | .die _ code signal => endsForGood code signal
  | _ => False

/-- No worker has ended for good. -/
structure Primary.Failures (P : Primary) : Prop where
  exiting : ∀ p ∈ P.exiting, ¬ endsForGood p.2.1 p.2.2
  retired : P.retired = []

section

variable {P : Primary}

theorem Primary.Failures.die (h : P.Failures) {code : Option ℕ} {signal : Option String}
    (hfails : ¬ endsForGood code signal) (i : ℕ) : (P.die i code signal).Failures := by
  rw [Primary.die]
  split_ifs
  · exact ⟨List.forall_mem_append.mpr ⟨h.exiting, List.forall_mem_singleton.mpr hfails⟩, h.retired⟩
  · exact h

theorem Primary.Failures.onExitEvent (h : P.Failures) (k : ℕ) : (P.onExitEvent k).Failures := by
  rw [Primary.onExitEvent]
  split
  · exact h
  · next i code signal hk =>
    have hfails : ¬ (code = some 0 ∨ signal = some "SIGINT") :=
      h.exiting _ (List.mem_of_getElem? hk)
    rw [Primary.onClusterExit, if_neg hfails]
    exact ⟨fun p hp => h.exiting p (List.mem_of_mem_eraseIdx hp), h.retired⟩

theorem Primary.Failures.onTimeout (h : P.Failures) (k : ℕ) : (P.onTimeout k).Failures := by
  rw [Primary.onTimeout]
  split
  · exact h
  · split
    · exact ⟨h.exiting, h.retired⟩
    · exact ⟨h.exiting, h.retired⟩

theorem failures_run (workerCount mirrors : ℕ) : (run workerCount mirrors).Failures := by
  have hfold : ∀ (envs : List Env) {P : Primary}, P.Failures →
      (envs.foldl Primary.createWorker P).Failures := by
    intro envs
    induction envs with
    | nil => exact id
    | cons env envs ih => exact fun h => ih ⟨h.exiting, h.retired⟩
  exact hfold _ ⟨fun _ hp => absurd hp List.not_mem_nil, rfl⟩

end

section

variable (addresses : List String) {S : Supervised} {action : Action}

theorem Primary.Failures.step (h : S.primary.Failures) (hfails : ¬ action.EndsForGood) :
    (S.step addresses action).primary.Failures := by
  cases action with
  | announce i path event =>
      rw [Supervised.step]
      split
      · exact h
      · exact h
  | forward k fails =>
      rw [Supervised.step]
      split
      · exact h
      · split
        · exact h
        · exact ⟨h.exiting, h.retired⟩
  | deliver k isOpen => exact h
  | die i code signal => exact h.die hfails i
  | exit k =>
      rw [Supervised.step]
      split
      · exact h
      · exact h.onExitEvent k
  | disconnect k =>
      rw [Supervised.step]
      split
      · exact h
      · exact ⟨h.exiting, h.retired⟩
  | timeout k =>
      rw [Supervised.step]
      split
      · exact h
      · exact h.onTimeout k
  | lose k =>
      rw [Supervised.step]
      split
      · exact h
      · split
        · exact h
        · exact h
  | terminate => exact ⟨h.exiting, h.retired⟩

/-- What ends the primary. -/
def Action.Ends (S : Supervised) (action : Action) : Prop :=
  action = .terminate ∨ ∃ k, action = .forward k true ∧ S.primary.dead ≠ []

theorem ended_onExitEvent (P : Primary) (k : ℕ) : (P.onExitEvent k).ended = P.ended := by
  rw [Primary.onExitEvent]
  split
  · rfl
  · rw [Primary.onClusterExit]
    split
    · rfl
    · rfl

theorem ended_onTimeout (P : Primary) (k : ℕ) : (P.onTimeout k).ended = P.ended := by
  rw [Primary.onTimeout]
  split
  · rfl
  · split
    · rfl
    · rfl

theorem ended_step (h : (S.step addresses action).primary.ended = true) :
    S.primary.ended = true ∨ action.Ends S := by
  cases action with
  | announce i path event =>
      rw [Supervised.step] at h
      split at h
      · exact Or.inl h
      · exact Or.inl h
  | forward k fails =>
      rw [Supervised.step] at h
      split at h
      · exact Or.inl h
      · split at h
        · exact Or.inl h
        · -- the forwarded message has met a worker that has ended
          obtain ⟨rfl, hdead⟩ := (Bool.and_eq_true _ _).mp h
          obtain ⟨i, hi, -⟩ := List.any_eq_true.mp hdead
          exact Or.inr (Or.inr ⟨k, rfl, List.ne_nil_of_mem hi⟩)
  | deliver k isOpen => exact Or.inl h
  | die i code signal =>
      refine Or.inl ?_
      rw [Supervised.step, Primary.die] at h
      dsimp only at h
      split at h
      · exact h
      · exact h
  | exit k =>
      rw [Supervised.step] at h
      split at h
      · exact Or.inl h
      · exact Or.inl ((ended_onExitEvent _ k).symm.trans h)
  | disconnect k =>
      rw [Supervised.step] at h
      split at h
      · exact Or.inl h
      · exact Or.inl h
  | timeout k =>
      rw [Supervised.step] at h
      split at h
      · exact Or.inl h
      · exact Or.inl ((ended_onTimeout _ k).symm.trans h)
  | lose k =>
      rw [Supervised.step] at h
      split at h
      · exact Or.inl h
      · split at h
        · exact Or.inl h
        · exact Or.inl h
  | terminate => exact Or.inr (Or.inl rfl)

end

section

variable (addresses : List String) (workerCount : ℕ)

/-- The relay after these actions. -/
def runOf (actions : List Action) : Supervised :=
  Mealy.after (machine addresses) actions (startedWith workerCount addresses.length)

variable (actions : List Action)

theorem consistent_runOf : Consistent addresses (configured workerCount addresses.length)
    (runOf addresses workerCount actions) :=
  Mealy.invariant_after (fun _ action h => h.step action) (consistent_started _ _ _) actions

theorem failures_runOf (hfails : ∀ action ∈ actions, ¬ action.EndsForGood) :
    (runOf addresses workerCount actions).primary.Failures := by
  have hrun : ∀ (actions : List Action) {S : Supervised}, S.primary.Failures →
      (∀ action ∈ actions, ¬ action.EndsForGood) →
        (Mealy.after (machine addresses) actions S).primary.Failures := by
    intro actions
    induction actions with
    | nil => exact fun h _ => h
    | cons action actions ih =>
        intro S h hfails
        obtain ⟨hfirst, hrest⟩ := List.forall_mem_cons.mp hfails
        exact ih (h.step addresses hfirst) hrest
  exact hrun actions (failures_run workerCount addresses.length) hfails

/-- Some action of the run has ended the primary. -/
theorem ends_of_ended (hended : (runOf addresses workerCount actions).primary.ended = true) :
    ∃ before action after, actions = before ++ action :: after ∧
      action.Ends (runOf addresses workerCount before) := by
  have hrun : ∀ (actions : List Action) (S : Supervised),
      (Mealy.after (machine addresses) actions S).primary.ended = true → S.primary.ended = true ∨
        ∃ before action after, actions = before ++ action :: after ∧
          action.Ends (Mealy.after (machine addresses) before S) := by
    intro actions
    induction actions with
    | nil => exact fun _ h => Or.inl h
    | cons action actions ih =>
        intro S h
        rcases ih _ h with hnext | ⟨before, action', after, rfl, hends⟩
        · refine (ended_step addresses hnext).imp_right fun hends => ?_
          exact ⟨[], action, actions, rfl, hends⟩
        · exact Or.inr ⟨action :: before, action', after, rfl, hends⟩
  refine (hrun actions _ hended).resolve_left fun hstart => ?_
  have hfold : ∀ (envs : List Env) (P : Primary), (envs.foldl Primary.createWorker P).ended = P.ended := by
    intro envs
    induction envs with
    | nil => exact fun _ => rfl
    | cons env envs ih => exact fun P => ih _
  exact Bool.false_ne_true ((hfold _ _).symm.trans hstart)

end

/-! ### A worker that is killed -/

/-- The maintenance worker announces that an invoice is paid.  Before the
message is forwarded, one of two client workers is killed, and replaced. -/
def killed : List Action :=
  [.announce 2 .broadcastEvent invoicePaid, .die 1 none (some "SIGKILL"), .disconnect 0, .exit 0,
    .timeout 0, .forward 0 true, .deliver 0 true, .deliver 0 true]

theorem not_endsForGood_killed : ∀ action ∈ killed, ¬ action.EndsForGood := by
  simp [killed, Action.EndsForGood, endsForGood]

/-- Forwarded as long as the worker is listed, the message ends the primary. -/
example : (runOf [] 2 [.announce 2 .broadcastEvent invoicePaid, .die 1 none (some "SIGKILL"),
    .exit 0, .forward 0 true]).primary.ended = true := by decide +kernel

end NostrMesh.Relay.Supervision
