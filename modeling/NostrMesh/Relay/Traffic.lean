/-
NostrMesh/Relay/Traffic.lean

What reaches the relay, as programs over the statements that they send to the
database: the `EVENT` and `REQ` messages of clients, the events of mirrored
relays, and the notifications of paid invoices.  Handlers interleave at their
statements.

The strategies are those of the sequential model, with their statements made
explicit (`run_execute`).  The checks that precede them are of two kinds: the
id and the signature of an event decide for themselves, the others ask
settings, clock, rate limiter and users, and may go either way
(`Op.check`).
-/
import NostrMesh.Lib.Program
import NostrMesh.Relay.Subscription

namespace NostrMesh

/-- What the id of an event is computed from, without the public key. -/
def Event.template (event : Event) : EventTemplate :=
  ⟨event.kind, event.createdAt, event.tags, event.content⟩

namespace Relay.Traffic

open Interleaving

/-! ### Operations -/

/-- How the checks of an event end that ask for more than the event. -/
inductive Checked
  | passed
  | refused (reason : String)
  | failed
  deriving DecidableEq, Repr

inductive Op
  | check (event : Event)
  | create (event : IncomingEvent)
  | upsert (event : IncomingEvent)
  | deleteByPubkeyAndIds (pubkey : String) (eventIdsToDelete : List String)
  | findByFilters (filters : List SubscriptionFilter)

abbrev Res : Op → Type
  | .check _ => Checked
  | .create _ => ℕ
  | .upsert _ => Except DbError ℕ
  | .deleteByPubkeyAndIds _ _ => Except DbError ℕ
  | .findByFilters _ => Except DbError (List EventRow)

abbrev Handler (α : Type) := Prog Op Res α

abbrev perform (o : Op) : Handler (Res o) := Prog.perform o

/-- What an operation answers and does to the tables; a statement may fail. -/
def eff (S : Schema) : (o : Op) → Database → Res o → Database → Prop
  | .check _ => fun db _ db' => db' = db
  | .create event => fun db r db' => ∃ fault now, (r, db') = create S fault now event db
  | .upsert event => fun db r db' => ∃ fault now, (r, db') = upsert S fault now event db
  | .deleteByPubkeyAndIds pubkey ids => fun db r db' =>
      ∃ fault now, (r, db') = deleteByPubkeyAndIds fault now pubkey ids db
  | .findByFilters filters => fun db r db' =>
      db' = db ∧ ∃ fault order, r = findByFilters fault filters db order

/-! ### The strategies -/

section

variable (event : ReceivedEvent)

/-- What a strategy emits, or the error that it throws. -/
abbrev Strategic := Handler (Except DbError (List Emit))

def executeDefault : Strategic := do
  let count ← perform (.create (event.incoming none))
  return .ok (commandResult event.toEvent count)

def executeDelete : Strategic :=
  let ids := eventIdsToDelete event.toEvent
  if ids.isEmpty then executeDefault event
  else do
    match ← perform (.deleteByPubkeyAndIds event.pubkey ids) with
    | .error e => return .error e
    | .ok _ => executeDefault event

def executeEphemeral : Strategic :=
  return .ok [.message event.id true "", .broadcast event.toEvent]

def executeParameterizedReplaceable : Strategic := do
  match ← perform (.upsert (event.incoming (some (deduplicationTag event.toEvent)))) with
  | .ok count => return .ok (commandResult event.toEvent count)
  | .error e => return .error e

def executeReplaceable : Strategic := do
  match ← perform (.upsert (event.incoming none)) with
  | .ok count => return .ok (commandResult event.toEvent count)
  | .error e =>
      if Js.endsWith e.message
          "duplicate key value violates unique constraint \"events_event_id_unique\"" then
        return .ok [.message event.id false "rejected: event already exists"]
      else return .ok [.message event.id false "error: "]

def execute : Strategic :=
  match eventStrategyFactory event.toEvent with
  | .replaceable => executeReplaceable event
  | .ephemeral => executeEphemeral event
  | .delete => executeDelete event
  | .parameterizedReplaceable => executeParameterizedReplaceable event
  | .default => executeDefault event

end

/-! ### Checks -/

/-- What the relay asks of its libraries. -/
structure Runtime where
  /-- `getEventHash`. -/
  eventHash : (pubkey : String) → EventTemplate → String
  /-- `schnorr.verify`. -/
  verify : (signature hash pubkey : String) → Bool
  /-- `Number(text)`, if it is a safe integer. -/
  safeInteger : String → Option ℤ

variable (R : Runtime)

def isEventIdValid (event : Event) : Bool := event.id = R.eventHash event.pubkey event.template

def isEventSignatureValid (event : Event) : Bool := R.verify event.sig event.id event.pubkey

/-- `getEventExpiration`; zero counts as none. -/
def getEventExpiration (event : Event) : Option ℤ :=
  ((event.tags.find? fun tag => 2 ≤ tag.length && tag.head? = some "expiration").bind
    fun tag => tag[1]?.bind R.safeInteger).filter fun time => 0 < time ∧ time < 10000000000

/-- `isExpiredEvent`, at some time in seconds. -/
def isExpiredEvent (now : ℤ) (event : Event) : Bool :=
  (getEventExpiration R event).any fun expirationTime => expirationTime ≤ now

/-! ### Messages -/

/-- What a handler leaves behind: what it emits for an event, or what it sends
of the stored events. -/
inductive Answer
  | emitted (emits : List Emit)
  | sent (events : List Event)
  | ended
  deriving DecidableEq, Repr

/-- The events that go to the subscribers. -/
def Answer.announced : Answer → List Event
  | .emitted emits => emits.filterMap Emit.announced
  | .sent _ => []
  | .ended => []

inductive Message
  | event (event : Event) (remoteAddress : Option String)
  | req (filters : List SubscriptionFilter)
  | mirrored (filters : List SubscriptionFilter) (event : Event)
  | notification (event : ReceivedEvent)

/-- `EventMessageHandler.handleMessage`. -/
def handleEventMessage (event : Event) (remoteAddress : Option String) : Handler Answer :=
  if !isEventIdValid R event then
    return .emitted [.message event.id false "invalid: event id does not match"]
  else if !isEventSignatureValid R event then
    return .emitted [.message event.id false "invalid: event signature verification failed"]
  else do
    match ← perform (.check event) with
    | .failed => return .ended
    | .refused reason => return .emitted [.message event.id false reason]
    | .passed =>
        match ← execute ⟨event, remoteAddress, getEventExpiration R event⟩ with
        | .ok emits => return .emitted emits
        | .error _ => return .emitted [.message event.id false "error: unable to process event"]

/-- `SubscribeMessageHandler.fetchAndSend`. -/
def fetchAndSend (filters : List SubscriptionFilter) : Handler Answer := do
  match ← perform (.findByFilters filters) with
  | .error _ => return .ended
  | .ok rows => return .sent (sendable filters rows)

/-- The message listener of `StaticMirroringWorker`. -/
def mirror (filters : List SubscriptionFilter) (event : Event) : Handler Answer :=
  if !filters.any (fun filter => isEventMatchingFilter filter event) then return .ended
  else if !isEventIdValid R event || !isEventSignatureValid R event then return .ended
  else do
    match ← perform (.check event) with
    | .passed => do
        let inserted ← perform (.create
          ((⟨event, none, getEventExpiration R event⟩ : ReceivedEvent).incoming none))
        return .emitted (if inserted = 0 then [] else [.broadcast event])
    | _ => return .ended

/-- `sendInvoiceUpdateNotification`, from `persistEvent` on. -/
def notify (event : ReceivedEvent) : Handler Answer := do
  let _ ← perform (.create (event.incoming none))
  return .emitted [.broadcast event.toEvent]

def handle : Message → Handler Answer
  | .event event remoteAddress => handleEventMessage R event remoteAddress
  | .req filters => fetchAndSend filters
  | .mirrored filters event => mirror R filters event
  | .notification event => notify event

/-- All messages have arrived, and no handler has done anything yet. -/
def begun {ι : Type*} (messages : ι → Message) (db : Database) : Pool Op Res Database Answer ι :=
  (db, fun i => handle R (messages i))

/-! ### The sequential model -/

/-- An operation at the time `now`, with these faults. -/
def respond (S : Schema) (F : Faults) (now : ℕ) : (o : Op) → Database → Res o × Database
  | .check _, db => (.passed, db)
  | .create event, db => create S F.insert now event db
  | .upsert event, db => upsert S F.insert now event db
  | .deleteByPubkeyAndIds pubkey ids, db => deleteByPubkeyAndIds F.delete now pubkey ids db
  | .findByFilters filters, db => (findByFilters none filters db, db)

theorem eff_respond (S : Schema) (F : Faults) (now : ℕ) (o : Op) (db : Database) :
    eff S o db (respond S F now o db).1 (respond S F now o db).2 := by
  cases o with
  | check event => rfl
  | create event => exact ⟨F.insert, now, rfl⟩
  | upsert event => exact ⟨F.insert, now, rfl⟩
  | deleteByPubkeyAndIds pubkey ids => exact ⟨F.delete, now, rfl⟩
  | findByFilters filters => exact ⟨rfl, none, tableOrder, rfl⟩

section

variable (S : Schema) (F : Faults) (now : ℕ) (event : ReceivedEvent) (db : Database)

theorem run_executeDefault : (executeDefault event).run (respond S F now) db =
    Relay.executeDefault S F now event db := by
  simp only [executeDefault, perform, Prog.bind_eq, Prog.perform_bind, Prog.run_op, respond,
    Relay.executeDefault]
  rfl

/-- **A strategy that runs alone** does what the sequential model says. -/
theorem run_execute : (execute event).run (respond S F now) db = Relay.execute S F now event db := by
  rw [execute, Relay.execute]
  rcases eventStrategyFactory event.toEvent with - | - | - | - | -
  · simp only [executeReplaceable, perform, Prog.bind_eq, Prog.perform_bind, Prog.run_op, respond,
      Relay.executeReplaceable]
    rcases upsert S F.insert now (event.incoming none) db with ⟨e | count, db'⟩
    · dsimp only
      split
      · rfl
      · rfl
    · rfl
  · rfl
  · simp only [executeDelete, Relay.executeDelete]
    split
    · exact run_executeDefault S F now event db
    · simp only [perform, Prog.bind_eq, Prog.perform_bind, Prog.run_op, respond]
      rcases deleteByPubkeyAndIds F.delete now event.pubkey (eventIdsToDelete event.toEvent) db with
        ⟨e | count, db'⟩
      · rfl
      · exact run_executeDefault S F now event db'
  · simp only [executeParameterizedReplaceable, perform, Prog.bind_eq, Prog.perform_bind,
      Prog.run_op, respond, Relay.executeParameterizedReplaceable]
    rcases upsert S F.insert now (event.incoming (some (deduplicationTag event.toEvent))) db with
      ⟨e | count, db'⟩
    · rfl
    · rfl
  · exact run_executeDefault S F now event db

end

end Relay.Traffic

end NostrMesh
