/-
NostrMesh/Relay/Strategies.lean

The event strategies: what the relay does with an accepted event, and what it
replies.  `eventStrategyFactory` picks the strategy by kind, `handleEvent` is
the end of the message handler, which turns an error into a reply.

An acknowledged event should be stored.  The replaceable strategies keep to
this whatever the database does.  The default and the delete strategy insert
with `create`, which answers 0 for an insert that raised an error, and then
acknowledge the event as a duplicate.
-/
import NostrMesh.Relay.EventRepository

namespace NostrMesh.Relay

open Tables

/-! ### Replies -/

/-- What a strategy emits to its web socket. -/
inductive Emit
  | message (eventId : String) (successful : Bool) (message : String)
  | broadcast (event : Event)
  deriving DecidableEq, Repr

/-- The event that goes to the subscribers. -/
def Emit.announced : Emit → Option Event
  | .message _ _ _ => none
  | .broadcast event => some event

/-- The reply to a statement that ended with a row count. -/
def commandResult (event : Event) (count : ℕ) : List Emit :=
  if count = 0 then [.message event.id true "duplicate:"]
  else [.message event.id true "", .broadcast event]

/-- Errors of the statements other than those of the parameters. -/
structure Faults where
  delete : Option DbError
  insert : Option DbError
  deriving DecidableEq, Repr

/-- The two layouts of the table `events`. -/
inductive Layout
  | flat
  | partitioned
  deriving DecidableEq, Repr

/-- The schema after some restarts of the deployment, each of which runs the
migrate job with nothing pending. -/
def deployed (layout : Layout) : ℕ → Schema
  | 0 =>
      match layout with
      | .flat => flatSchema
      | .partitioned => partitionedSchema
  | restarts + 1 => migrate [] (deployed layout restarts)

/-! ### The strategies -/

/-- An event as the message handler passes it on: a client cannot attach a
deduplication value. -/
structure ReceivedEvent extends Event where
  remoteAddress : Option String
  expiration : Option ℤ
  deriving DecidableEq, Repr

/-- The event that a strategy hands to the repository. -/
def ReceivedEvent.incoming (event : ReceivedEvent) (deduplication : Option (List String)) :
    IncomingEvent :=
  { event with deduplication }

inductive Strategy
  | replaceable
  | ephemeral
  | delete
  | parameterizedReplaceable
  | default
  deriving DecidableEq, Repr

def eventStrategyFactory (event : Event) : Strategy :=
  if event.isReplaceableEvent then .replaceable
  else if event.isEphemeralEvent then .ephemeral
  else if event.isDeleteEvent then .delete
  else if event.isParameterizedReplaceableEvent then .parameterizedReplaceable
  else .default

section

variable (S : Schema) (F : Faults) (now : ℕ) (event : ReceivedEvent) (db : Database)

/-- What a strategy emits, or the error that it throws, and the tables. -/
abbrev Executed := Except DbError (List Emit) × Database

def executeDefault : Executed :=
  match create S F.insert now (event.incoming none) db with
  | (count, db') => (.ok (commandResult event.toEvent count), db')

/-- `["e", <64 lower-case hexadecimal digits>, …]`. -/
def isValidETag (tag : List String) : Bool :=
  match tag with
  | "e" :: value :: _ => value.toList.length = 64 && value.toList.all Bytes.isLowerHex
  | _ => false

def eventIdsToDelete (event : Event) : List String :=
  event.tags.filterMap fun tag => if isValidETag tag then tag[1]? else none

def executeDelete : Executed :=
  let ids := eventIdsToDelete event.toEvent
  if ids.isEmpty then executeDefault S F now event db
  else
    match deleteByPubkeyAndIds F.delete now event.pubkey ids db with
    | (.error e, db') => (.error e, db')
    | (.ok _, db') => executeDefault S F now event db'

def executeEphemeral : Executed :=
  (.ok [.message event.id true "", .broadcast event.toEvent], db)

/-- The values that follow `d` in the first tag of that name, `[""]` without
one. -/
def deduplicationTag (event : Event) : List String :=
  match event.tags.find? fun tag => 2 ≤ tag.length && tag.head? = some "d" with
  | some tag => tag.tail
  | none => [""]

def executeParameterizedReplaceable : Executed :=
  let deduplication := deduplicationTag event.toEvent
  match upsert S F.insert now (event.incoming (some deduplication)) db with
  | (.ok count, db') => (.ok (commandResult event.toEvent count), db')
  | (.error e, db') => (.error e, db')

/-- The strategy catches its own errors. -/
def executeReplaceable : Executed :=
  match upsert S F.insert now (event.incoming none) db with
  | (.ok count, db') => (.ok (commandResult event.toEvent count), db')
  | (.error e, db') =>
      if Js.endsWith e.message
          "duplicate key value violates unique constraint \"events_event_id_unique\"" then
        (.ok [.message event.id false "rejected: event already exists"], db')
      else (.ok [.message event.id false "error: "], db')

def execute : Executed :=
  match eventStrategyFactory event.toEvent with
  | .replaceable => executeReplaceable S F now event db
  | .ephemeral => executeEphemeral event db
  | .delete => executeDelete S F now event db
  | .parameterizedReplaceable => executeParameterizedReplaceable S F now event db
  | .default => executeDefault S F now event db

/-- The end of `handleMessage`: an error of the strategy becomes a reply. -/
def handleEvent : List Emit × Database :=
  match execute S F now event db with
  | (.ok emits, db') => (emits, db')
  | (.error _, db') => ([.message event.id false "error: unable to process event"], db')

end

/-! ### What the unique indexes say about ids and addresses -/

/-- The deduplication value of the row that the strategy of a replaceable
event writes. -/
def addressOf (event : Event) : Option Deduplication :=
  match eventStrategyFactory event with
  | .replaceable => some (.ofPubkeyKind event.pubkey event.kind)
  | .parameterizedReplaceable => some (.ofStrings (deduplicationTag event))
  | _ => none

/-- The row has the replaceable address of the event. -/
def SameAddress (event : Event) (row : EventRow) : Prop :=
  (addressOf event).isSome ∧ row.eventPubkey = toBuffer event.pubkey ∧
    row.eventKind = event.kind ∧ row.eventDeduplication = addressOf event

theorem columns_of_deployed (layout : Layout) (restarts : ℕ) :
    ∀ ix ∈ (deployed layout restarts).onTable ++ (deployed layout restarts).onPartition,
      ix.columns = [.eventId] ∨ ix.columns = addressColumns := by
  induction restarts with
  | zero => cases layout <;> decide
  | succ n ih =>
      intro ix hix
      refine ih ix ?_
      simp only [deployed, migrate, Schema.dropIndex, List.foldl_nil, List.mem_append,
        List.mem_filter] at hix ⊢
      exact hix.imp And.left And.left

/-- Rows that clash under an index on the id have the same id. -/
theorem eventId_of_clash {ix : IndexDef} (hix : ix.columns = [.eventId]) {r s : EventRow}
    (h : ix.toUniqueIndex.Clash r s) : r.eventId = s.eventId := by
  obtain ⟨hne, heq⟩ := h
  simp only [IndexDef.toUniqueIndex, IndexDef.key, hix] at hne heq
  split at hne
  · next hr =>
    rw [if_pos hr] at heq
    split at heq
    · simpa [EventRow.column] using heq
    · simp [EventRow.column] at heq
  · exact absurd rfl hne

/-- Rows that clash under an index on the address have the same address. -/
theorem address_of_clash {ix : IndexDef} (hix : ix.columns = addressColumns) {r s : EventRow}
    (h : ix.toUniqueIndex.Clash r s) :
    r.eventPubkey = s.eventPubkey ∧ r.eventKind = s.eventKind ∧
      r.eventDeduplication = s.eventDeduplication ∧ r.eventDeduplication ≠ none := by
  obtain ⟨hne, heq⟩ := h
  simp only [IndexDef.toUniqueIndex, IndexDef.key, hix, addressColumns] at hne heq
  split at hne
  · next hr =>
    rw [if_pos hr] at heq
    rcases hd : r.eventDeduplication with - | d
    · simp [EventRow.column, hd] at hne
    · split at heq
      · rcases hd' : s.eventDeduplication with - | d'
        · simp [EventRow.column, hd, hd'] at heq
        · simpa [EventRow.column, hd, hd'] using heq
      · simp [EventRow.column, hd] at heq
  · exact absurd rfl hne

/-! ### What `create` and `upsert` leave behind -/

/-- The ids that the table holds. -/
def Database.ids (db : Database) : List Bytes := db.events.map EventRow.eventId

/-- The insert of `create` raises an error. -/
def insertRaises (fault : Option DbError) (now : ℕ) (event : IncomingEvent) : Bool :=
  (fault <|> (insertRow now event).columnError).isSome

/-- **`create`**: an insert that raises an error changes nothing and counts
0; any other leaves the id in the table. -/
theorem create_spec (layout : Layout) (restarts : ℕ) (fault : Option DbError) (now : ℕ)
    (event : IncomingEvent) (db : Database) :
    (insertRaises fault now event = true ∧
      create (deployed layout restarts) fault now event db = (0, db)) ∨
    (insertRaises fault now event = false ∧
      toBuffer event.id ∈ (create (deployed layout restarts) fault now event db).2.ids) := by
  rcases he : fault <|> (insertRow now event).columnError with - | e
  · refine Or.inr ⟨by rw [insertRaises, he, Option.isSome_none], ?_⟩
    simp only [create, insert, guarded, he, Statement.exec]
    rcases insertIgnore_cases (deployed layout restarts).enforced (insertRow now event)
      db.events with ⟨hc, -⟩ | ⟨hc, u, hu, r, hr, hclash⟩
    · rw [hc]
      simp [Database.ids, Change.apply, insertRow]
    · -- the row that suppressed the insert has the same id
      rw [hc]
      obtain ⟨ix, hix, rfl⟩ := List.mem_map.mp hu
      rcases columns_of_deployed layout restarts ix hix with hcol | hcol
      · exact List.mem_map.mpr ⟨r, hr, eventId_of_clash hcol hclash⟩
      · obtain ⟨-, -, heq, hne⟩ := address_of_clash hcol hclash
        exact absurd heq hne
  · refine Or.inl ⟨by rw [insertRaises, he, Option.isSome_some], ?_⟩
    simp only [create, insert, guarded, he, Statement.exec]

/-- **`upsert`**: if it answers a count, the table holds the event's id or a
row of its address that is at least as new. -/
theorem upsert_spec {S : Schema} {fault : Option DbError} {now : ℕ} {event : IncomingEvent}
    {db db' : Database} {count : ℕ} (h : upsert S fault now event db = (.ok count, db')) :
    toBuffer event.id ∈ db'.ids ∨
      ∃ r ∈ db'.events, r.eventPubkey = toBuffer event.pubkey ∧ r.eventKind = event.kind ∧
        r.eventDeduplication = some (deduplicationOf event) ∧
        event.createdAt ≤ r.eventCreatedAt := by
  simp only [upsert, upsertStatement, guarded] at h
  rcases he : fault <|> (upsertRow now event).columnError with - | e
  · rcases ha : S.infer addressColumns replaceableKinds with - | arbiter
    · simp [he, ha, Statement.exec] at h
    · have hcol : arbiter.columns = addressColumns := by
        have := List.find?_some ha
        simp only [decide_eq_true_eq] at this
        exact this.1
      rcases hu : Tables.upsert S.enforced arbiter.toUniqueIndex
          (fun old => old.eventCreatedAt < (upsertRow now event).eventCreatedAt)
          (mergeRow (upsertRow now event)) (upsertRow now event) db.events with constraint | c
      · simp [he, ha, hu, Statement.exec] at h
      · simp only [he, ha, hu, Statement.exec, Prod.mk.injEq] at h
        obtain ⟨-, rfl⟩ := h
        rcases upsert_cases hu with ⟨rfl, -⟩ | ⟨old, hold, -, -, rfl, -⟩ | ⟨rfl, old, hold, hclash, hg⟩
        · exact Or.inl (by simp [Database.ids, Change.apply, upsertRow, insertRow])
        · refine Or.inl (List.mem_map.mpr ⟨mergeRow (upsertRow now event) old, ?_, rfl⟩)
          exact (mem_apply_update hold).mpr (Or.inl rfl)
        · obtain ⟨hpubkey, hkind, hdedup, -⟩ := address_of_clash hcol hclash
          refine Or.inr ⟨old, hold, hpubkey, hkind, hdedup, ?_⟩
          exact not_lt.mp (of_decide_eq_false hg)
  · simp [he, Statement.exec] at h

/-- Marking rows as deleted keeps the ids. -/
theorem ids_markDeleted (now : ℕ) (targets : List EventRow) (db : Database) :
    (markDeleted now targets db).ids = db.ids := by
  induction targets generalizing db with
  | nil => rfl
  | cons row targets ih =>
      rw [markDeleted, List.foldl_cons]
      refine (ih _).trans ?_
      simp only [Database.ids, Database.change_events, Change.apply, List.map_map]
      refine List.map_congr_left fun r _ => ?_
      simp only [Function.comp]
      split
      · next hr => rw [hr]
      · rfl

/-! ### An acknowledged event is stored -/

/-- The relay replied `["OK", id, true, …]`. -/
def Acknowledged (event : Event) (emits : List Emit) : Prop :=
  ∃ message, Emit.message event.id true message ∈ emits

/-- The table holds the event's id or, for a replaceable address, a row of
that address that is at least as new. -/
def Stored (event : Event) (db : Database) : Prop :=
  toBuffer event.id ∈ db.ids ∨
    ∃ r ∈ db.events, SameAddress event r ∧ event.createdAt ≤ r.eventCreatedAt

/-- What the relay owes the publisher of an event that is meant to be
stored. -/
def AcknowledgedIsStored (S : Schema) (F : Faults) (now : ℕ) (event : ReceivedEvent)
    (db : Database) : Prop :=
  eventStrategyFactory event.toEvent ≠ .ephemeral →
    Acknowledged event.toEvent (handleEvent S F now event db).1 →
      Stored event.toEvent (handleEvent S F now event db).2

/-- The event goes to a strategy that ends with `create`, and gets there. -/
def ReachesCreate (F : Faults) (event : Event) : Prop :=
  eventStrategyFactory event = .default ∨
    eventStrategyFactory event = .delete ∧ (eventIdsToDelete event = [] ∨ F.delete = none)

/-- The insert of `create` raises an error, and the table does not hold the
event yet. -/
def SilentlyDropped (F : Faults) (now : ℕ) (event : ReceivedEvent) (db : Database) : Prop :=
  ReachesCreate F event.toEvent ∧ insertRaises F.insert now (event.incoming none) = true ∧
    toBuffer event.id ∉ db.ids

theorem acknowledged_commandResult (event : Event) (count : ℕ) :
    Acknowledged event (commandResult event count) := by
  unfold commandResult
  split
  · exact ⟨"duplicate:", List.mem_cons_self⟩
  · exact ⟨"", List.mem_cons_self⟩

theorem not_acknowledged_of_refused (event : Event) (message : String) :
    ¬ Acknowledged event [Emit.message event.id false message] := by
  rintro ⟨m, hm⟩
  simp at hm

/-- What `create` leaves behind, for an event that has no address. -/
theorem stored_create_iff (layout : Layout) (restarts : ℕ) (fault : Option DbError) (now : ℕ)
    {event : ReceivedEvent} (haddr : addressOf event.toEvent = none) (db : Database) :
    Stored event.toEvent (create (deployed layout restarts) fault now (event.incoming none) db).2 ↔
      ¬ (insertRaises fault now (event.incoming none) = true ∧ toBuffer event.id ∉ db.ids) := by
  have hstored : ∀ db', Stored event.toEvent db' ↔ toBuffer event.id ∈ db'.ids := fun db' =>
    ⟨fun h => h.resolve_right fun ⟨_, _, hsame, _⟩ => by simp [SameAddress, haddr] at hsame, Or.inl⟩
  rw [hstored]
  rcases create_spec layout restarts fault now (event.incoming none) db with ⟨hr, hc⟩ | ⟨hr, hmem⟩
  · simp [hr, hc]
  · have hid : toBuffer event.id ∈
        (create (deployed layout restarts) fault now (event.incoming none) db).2.ids := hmem
    simp [hr, hid]

section

variable (layout : Layout) (restarts : ℕ) (F : Faults) (now : ℕ) (event : ReceivedEvent)
variable (db : Database)

theorem acknowledgedIsStored_default (hs : eventStrategyFactory event.toEvent = .default) :
    AcknowledgedIsStored (deployed layout restarts) F now event db ↔
      ¬ SilentlyDropped F now event db := by
  have haddr : addressOf event.toEvent = none := by rw [addressOf, hs]
  have hiff := stored_create_iff layout restarts F.insert now haddr db
  simp only [AcknowledgedIsStored, SilentlyDropped, ReachesCreate, handleEvent, execute, hs,
    executeDefault, acknowledged_commandResult, hiff, ne_eq, reduceCtorEq, not_false_eq_true,
    true_or, true_and, true_implies]

theorem acknowledgedIsStored_delete (hs : eventStrategyFactory event.toEvent = .delete) :
    AcknowledgedIsStored (deployed layout restarts) F now event db ↔
      ¬ SilentlyDropped F now event db := by
  have haddr : addressOf event.toEvent = none := by rw [addressOf, hs]
  by_cases hids : eventIdsToDelete event.toEvent = []
  · have hiff := stored_create_iff layout restarts F.insert now haddr db
    simp only [AcknowledgedIsStored, SilentlyDropped, ReachesCreate, handleEvent, execute, hs,
      executeDelete, executeDefault, hids, List.isEmpty_nil, if_true, acknowledged_commandResult,
      hiff, ne_eq, reduceCtorEq, not_false_eq_true, true_or, or_true, true_and, true_implies]
  · have hne : (eventIdsToDelete event.toEvent).isEmpty = false := by simpa using hids
    rcases hd : F.delete with - | e
    · -- the update runs first, and keeps the ids
      have hiff := stored_create_iff layout restarts F.insert now haddr
        (markDeleted now (db.events.filter
          (deletable event.pubkey (eventIdsToDelete event.toEvent))) db)
      rw [ids_markDeleted] at hiff
      simp only [AcknowledgedIsStored, SilentlyDropped, ReachesCreate, handleEvent, execute, hs,
        executeDelete, executeDefault, hne, hd, deleteByPubkeyAndIds, Bool.false_eq_true, if_false,
        acknowledged_commandResult, hiff, ne_eq, reduceCtorEq, not_false_eq_true, or_true,
        true_and, true_implies]
    · -- the error of the update ends the strategy
      simp [AcknowledgedIsStored, SilentlyDropped, ReachesCreate, handleEvent, execute, hs,
        executeDelete, hids, hne, hd, deleteByPubkeyAndIds, not_acknowledged_of_refused]

theorem acknowledgedIsStored_parameterizedReplaceable
    (hs : eventStrategyFactory event.toEvent = .parameterizedReplaceable) :
    AcknowledgedIsStored (deployed layout restarts) F now event db := by
  intro _ hack
  have haddr : addressOf event.toEvent = some (.ofStrings (deduplicationTag event.toEvent)) := by
    rw [addressOf, hs]
  simp only [handleEvent, execute, hs, executeParameterizedReplaceable] at hack ⊢
  rcases hu : upsert (deployed layout restarts) F.insert now
      (event.incoming (some (deduplicationTag event.toEvent))) db with ⟨e | count, db'⟩
  · rw [hu] at hack
    exact absurd hack (not_acknowledged_of_refused _ _)
  · rcases upsert_spec hu with hid | ⟨r, hr, hpubkey, hkind, hdedup, hle⟩
    · exact Or.inl hid
    · exact Or.inr ⟨r, hr, ⟨by simp [haddr], hpubkey, hkind, by rw [hdedup, haddr]; rfl⟩, hle⟩

theorem acknowledgedIsStored_replaceable
    (hs : eventStrategyFactory event.toEvent = .replaceable) :
    AcknowledgedIsStored (deployed layout restarts) F now event db := by
  intro _ hack
  have haddr : addressOf event.toEvent = some (.ofPubkeyKind event.pubkey event.kind) := by
    rw [addressOf, hs]
  simp only [handleEvent, execute, hs, executeReplaceable] at hack ⊢
  rcases hu : upsert (deployed layout restarts) F.insert now (event.incoming none) db with
    ⟨e | count, db'⟩
  · simp only [hu] at hack
    split_ifs at hack
    · exact absurd hack (not_acknowledged_of_refused _ _)
    · exact absurd hack (not_acknowledged_of_refused _ _)
  · rcases upsert_spec hu with hid | ⟨r, hr, hpubkey, hkind, hdedup, hle⟩
    · exact Or.inl hid
    · refine Or.inr ⟨r, hr, ⟨by simp [haddr], hpubkey, hkind, ?_⟩, hle⟩
      rw [hdedup, haddr]
      rfl

/-- **An acknowledged event is stored**, except for what `create` swallows:
an event of the default or the delete strategy whose insert raises an error
and that the table does not hold already. -/
theorem acknowledgedIsStored_iff :
    AcknowledgedIsStored (deployed layout restarts) F now event db ↔
      ¬ SilentlyDropped F now event db := by
  rcases hs : eventStrategyFactory event.toEvent with - | - | - | - | -
  · refine iff_of_true (acknowledgedIsStored_replaceable layout restarts F now event db hs) ?_
    simp [SilentlyDropped, ReachesCreate, hs]
  · refine iff_of_true (fun hne => absurd hs hne) ?_
    simp [SilentlyDropped, ReachesCreate, hs]
  · exact acknowledgedIsStored_delete layout restarts F now event db hs
  · refine iff_of_true
      (acknowledgedIsStored_parameterizedReplaceable layout restarts F now event db hs) ?_
    simp [SilentlyDropped, ReachesCreate, hs]
  · exact acknowledgedIsStored_default layout restarts F now event db hs

end

/-- An event whose kind the schema of messages admits and the column
`event_kind` does not take. -/
def wideKindEvent : ReceivedEvent where
  id := "2f331803c932b9cd9f3f30ec2b7511371ee7b8b4fb6881043d716f718aa39600"
  pubkey := "87ba3a258367ea438900a86e70924f0446e7ef120a3d5b668f3ba56910ec993f"
  createdAt := 1700000000
  kind := 3000000000
  tags := []
  content := "hello"
  sig := "95011228f66fa971c28f0685dc740acc253abca09be222e5629dc11447e0464d" ++
    "707d8ddeeab69f65f3be3a456771211378c17ae48330a73daf73d72696c0055a"
  remoteAddress := some "::1"
  expiration := none

/-- The relay acknowledges the event as a duplicate and stores nothing. -/
theorem wideKindEvent_dropped :
    ¬ AcknowledgedIsStored (deployed .flat 0) ⟨none, none⟩ 0 wideKindEvent ⟨[], []⟩ := by
  intro h
  have hdb : (handleEvent (deployed .flat 0) ⟨none, none⟩ 0 wideKindEvent ⟨[], []⟩).2
      = ⟨[], []⟩ := by decide
  have hstored := h (by decide) ⟨"duplicate:", by decide⟩
  rw [hdb] at hstored
  rcases hstored with hid | ⟨r, hr, -⟩
  · cases hid
  · cases hr

end NostrMesh.Relay
