/-
NostrMesh/Relay/Mirroring.lean

The events of a mirrored relay, from the message listener of
`StaticMirroringWorker` to the table `events`, against what the strategies
make of the same events.

The worker hands every event that it accepts to `create`.  That is what the
default strategy does, and what the delete strategy does after it has marked
rows.  The other strategies write a deduplication value, or write nothing at
all, so there the tables agree only where `create` writes nothing either
(`MirrorsPublishing`).

Main result: `storesAlike_iff`.
-/
import NostrMesh.Relay.AdmissionPolicy
import NostrMesh.Relay.Partition
import NostrMesh.Relay.StoreInvariant

namespace NostrMesh.Relay

open Tables Traffic

/-! ### The message listener -/

namespace StaticMirroringWorker

/-- `config.filters.map((filter) => ({ ...filter, since }))`. -/
def requested (since : ℤ) (filters : List SubscriptionFilter) : List SubscriptionFilter :=
  filters.map fun filter => { filter with since := some since }

/-- What the worker knows when an event arrives. -/
structure Worker where
  runtime : Runtime
  relayPublicKey : String
  settings : Settings
  config : Mirror
  users : Users
  clock : ℤ

variable (W : Worker)

/-- The event gets to `create`.  Anything that throws on the way ends the
listener. -/
def accepts (event : Event) : Bool :=
  W.config.filters.any (fun filters =>
      filters.any fun filter => isEventMatchingFilter filter event) &&
    isEventIdValid W.runtime event && isEventSignatureValid W.runtime event &&
    !isExpiredEvent W.runtime W.clock event &&
    canAcceptEvent W.relayPublicKey W.clock W.settings W.config event = .ok true &&
    isUserAdmitted W.settings W.config W.users event

/-- The event with its expiration; a mirrored event has no address of a
client. -/
def mirrored (event : Event) : ReceivedEvent := ⟨event, none, getEventExpiration W.runtime event⟩

/-- The tables after the listener has handled an event. -/
def onEvent (S : Schema) (now : ℕ) (event : Event) (db : Database) : Database :=
  -- whatever its kind, the event is inserted
  if accepts W event then (create S none now ((mirrored W event).incoming none) db).2 else db

/-- The table `events` after the listener is the one after the strategy. -/
def StoresAlike (S : Schema) (now : ℕ) (event : Event) (db : Database) : Prop :=
  (onEvent W S now event db).events = (execute S ⟨none, none⟩ now (mirrored W event) db).2.events

instance (S : Schema) (now : ℕ) (event : Event) (db : Database) :
    Decidable (StoresAlike W S now event db) :=
  inferInstanceAs (Decidable (_ = _))

/-! ### Where the two agree -/

/-- A parameter of the insert does not fit its column. -/
def Unfit (now : ℕ) (event : ReceivedEvent) : Prop :=
  (insertRow now (event.incoming none)).columnError ≠ none

/-- The table has a row with the id of the event. -/
def Known (event : Event) (db : Database) : Prop := toBuffer event.id ∈ db.ids

instance (event : Event) (db : Database) : Decidable (Known event db) :=
  inferInstanceAs (Decidable (_ ∈ _))

/-- `upsert` replaces a row that has the very id of the event: it is there
with an earlier time. -/
def Restamped (S : Schema) (now : ℕ) (event : ReceivedEvent) (db : Database) : Prop :=
  S.infer addressColumns replaceableKinds ≠ none ∧
    (upsertRow now (event.incoming (attached event.toEvent))).columnError = none ∧
    ∃ old ∈ db.events, old.eventId = toBuffer event.id ∧ SameAddress event.toEvent old ∧
      old.eventCreatedAt < event.createdAt

/-- The events that the worker stores as the strategies do: those of the
default strategy, deletions that mark nothing, and of the others those that
neither of the two writes. -/
def MirrorsPublishing (S : Schema) (now : ℕ) (event : ReceivedEvent) (db : Database) : Prop :=
  match eventStrategyFactory event.toEvent with
  | .default => True
  | .delete => ∀ row ∈ db.events,
      deletable event.pubkey (eventIdsToDelete event.toEvent) row = false
  | .ephemeral => Unfit now event ∨ Known event.toEvent db
  | .replaceable | .parameterizedReplaceable =>
      Unfit now event ∨ Known event.toEvent db ∧ ¬ Restamped S now event db

variable {W} {S : Schema} {now : ℕ} {event : ReceivedEvent} {db : Database}

theorem onEvent_of_accepts {e : Event} (h : accepts W e = true) :
    onEvent W S now e db = (create S none now ((mirrored W e).incoming none) db).2 := by
  rw [onEvent, if_pos h]

/-- The rows after `create`: what has no deduplication value is only stopped
by its parameters and its id. -/
theorem events_create (hS : IdIndexed S) (now : ℕ) (event : ReceivedEvent) (db : Database) :
    ((Unfit now event ∨ Known event.toEvent db) ∧
        (create S none now (event.incoming none) db).2.events = db.events) ∨
      (¬ (Unfit now event ∨ Known event.toEvent db) ∧
        (create S none now (event.incoming none) db).2.events
          = db.events ++ [insertRow now (event.incoming none)]) := by
  have hinsert : insertIgnore S.enforced (insertRow now (event.incoming none)) db.events
      = if Known event.toEvent db then .none else .insert (insertRow now (event.incoming none)) :=
    insertIgnore_of_idIndexed hS rfl db.events
  simp only [create, insert, guarded, Unfit, hinsert]
  -- the parameters are looked at before the id
  rcases (insertRow now (event.incoming none)).columnError with - | e
  · by_cases hknown : Known event.toEvent db
    · exact Or.inl ⟨Or.inr hknown, by rw [if_pos hknown]; rfl⟩
    · refine Or.inr ⟨fun h => h.elim (fun h => h rfl) hknown, ?_⟩
      rw [if_neg hknown]
      rfl
  · exact Or.inl ⟨Or.inl (Option.some_ne_none e), rfl⟩

/-- A row is no longer there if one more is. -/
theorem append_singleton_ne (rows : List EventRow) (row : EventRow) : rows ++ [row] ≠ rows := by
  intro h
  have := congrArg List.length h
  simp at this

/-! ### Deletions -/

theorem events_markDeleted_filter (now : ℕ) (pubkey : String) (ids : List String) (db : Database) :
    (markDeleted now (db.events.filter (deletable pubkey ids)) db).events
      = db.events.map (markRow now pubkey ids) := by
  rw [events_markDeleted _ fun row hrow => (deletable_iff.mp (List.mem_filter.mp hrow).2).2.2]
  refine List.map_congr_left fun row hrow => ?_
  simp only [List.mem_filter, hrow, true_and, markRow]

theorem map_markRow_eq_iff {pubkey : String} {ids : List String} {rows : List EventRow} :
    rows = rows.map (markRow now pubkey ids) ↔ ∀ row ∈ rows, deletable pubkey ids row = false := by
  have hself : rows = rows.map (markRow now pubkey ids) ↔
      ∀ row ∈ rows, row = markRow now pubkey ids row := by
    conv_lhs => lhs; rw [← List.map_id rows]
    exact List.map_inj_left
  rw [hself]
  refine forall₂_congr fun row _ => ?_
  rcases markRow_cases now pubkey ids row with ⟨hdel, heq⟩ | ⟨hdel, heq⟩
  · -- a row that is marked was not marked before
    rw [heq, hdel]
    refine iff_of_false (fun h => ?_) Bool.noConfusion
    have hmark : row.deletedAt = some now := congrArg EventRow.deletedAt h
    rw [(deletable_iff.mp hdel).2.2] at hmark
    cases hmark
  · exact iff_of_true heq.symm hdel

theorem storesAlike_delete (hS : IdIndexed S) (hs : eventStrategyFactory event.toEvent = .delete) :
    (create S none now (event.incoming none) db).2.events
        = (execute S ⟨none, none⟩ now event db).2.events ↔
      ∀ row ∈ db.events, deletable event.pubkey (eventIdsToDelete event.toEvent) row = false := by
  rcases hids : eventIdsToDelete event.toEvent with - | ⟨id, ids⟩
  · simp only [execute, hs, executeDelete, hids, List.isEmpty_nil, if_true, executeDefault]
    refine iff_of_true trivial fun row _ => ?_
    simp [deletable]
  · simp only [execute, hs, executeDelete, hids, List.isEmpty_cons, Bool.false_eq_true, if_false,
      deleteByPubkeyAndIds, executeDefault]
    have hmarked := events_markDeleted_filter now event.pubkey (id :: ids) db
    have hknown : Known event.toEvent (markDeleted now (db.events.filter
        (deletable event.pubkey (id :: ids))) db) ↔ Known event.toEvent db := by
      rw [Known, ids_markDeleted, Known]
    generalize markDeleted now (db.events.filter (deletable event.pubkey (id :: ids))) db = marked
      at hmarked hknown
    rw [← @map_markRow_eq_iff now, ← hmarked]
    -- the insert does the same to both tables
    rcases events_create hS now event db with ⟨hstop, he⟩ | ⟨hstop, he⟩ <;>
      rcases events_create hS now event marked with ⟨hstop', he'⟩ | ⟨hstop', he'⟩ <;>
        rw [hknown] at hstop'
    · rw [he, he']
    · exact absurd hstop hstop'
    · exact absurd hstop' hstop
    · rw [he, he', List.append_left_inj]

/-! ### Events with an address -/

/-- The strategies of addressed events upsert. -/
theorem execute_addressed (h : (addressOf event.toEvent).isSome) (S : Schema) (now : ℕ)
    (db : Database) : (execute S ⟨none, none⟩ now event db).2
      = (upsert S none now (event.incoming (attached event.toEvent)) db).2 := by
  rcases hs : eventStrategyFactory event.toEvent with - | - | - | - | -
  · simp only [execute, hs, executeReplaceable, attached]
    rcases upsert S none now (event.incoming none) db with ⟨e | count, db'⟩
    · dsimp only
      split_ifs
      · rfl
      · rfl
    · rfl
  · simp [addressOf, hs] at h
  · simp [addressOf, hs] at h
  · simp only [execute, hs, executeParameterizedReplaceable, attached]
    rcases upsert S none now (event.incoming (some (deduplicationTag event.toEvent))) db with
      ⟨e | count, db'⟩
    · rfl
    · rfl
  · simp [addressOf, hs] at h

/-- A deployment has lost the conflict index, or it is the flat table as it
was created. -/
theorem infer_deployed (layout : Layout) (restarts : ℕ) :
    (deployed layout restarts).infer addressColumns replaceableKinds = none ∨
      deployed layout restarts = flatSchema := by
  cases layout with
  | partitioned => exact Or.inl (infer_partitioned restarts)
  | flat =>
      rcases restarts with - | restarts
      · exact Or.inr rfl
      · refine Or.inl ?_
        have hdropped : (deployed .flat (restarts + 1)).onTable = [eventIdUnique] := by
          induction restarts with
          | zero => decide
          | succ n ih =>
              have hstep : (deployed .flat (n + 1 + 1)).onTable
                  = (deployed .flat (n + 1)).onTable.filter fun ix =>
                    ix.name ≠ "replaceable_events_idx" := rfl
              rw [hstep, ih]
              decide
        rw [Schema.infer, hdropped]
        decide

/-- What does not fit the columns of an insert does not fit those of an
upsert. -/
theorem Unfit.upsertRow (h : Unfit now event) (deduplication : Option (List String)) :
    (upsertRow now (event.incoming deduplication)).columnError ≠ none := by
  intro hnone
  refine h ?_
  simp only [EventRow.columnError, Relay.upsertRow, insertRow, ReceivedEvent.incoming,
    Option.orElse_eq_orElse, Option.orElse_eq_or, Option.or_eq_none_iff, Option.bind_none]
    at hnone ⊢
  exact ⟨hnone.1, hnone.2.1, trivial, hnone.2.2.2⟩

/-- An upsert that succeeds has a row that fits the columns. -/
theorem columnError_of_upsert {S : Schema} {incoming : IncomingEvent} {count : ℕ} {db' : Database}
    (h : upsert S none now incoming db = (.ok count, db')) :
    (upsertRow now incoming).columnError = none := by
  rcases he : (upsertRow now incoming).columnError with - | e
  · rfl
  · rw [upsert_of_columnError he] at h
    cases congrArg Prod.fst h

/-- A row that a newer one replaces is not there any more. -/
theorem apply_update_ne {old new : EventRow} (hold : old ∈ db.events)
    (hlt : old.eventCreatedAt < new.eventCreatedAt) :
    (Change.update old new).apply db.events ≠ db.events := by
  intro heq
  have hself := List.map_inj_left.mp (heq.trans (List.map_id db.events).symm) old hold
  rw [if_pos rfl] at hself
  exact absurd (congrArg EventRow.eventCreatedAt hself) (ne_of_gt hlt)

/-- If the id of the event is stored, then in the row that the upsert
replaces. -/
theorem eventId_of_replaced {old new : EventRow} (hunique : Unique flatSchema.enforced db.events)
    (hkeeps : Unique flatSchema.enforced ((Change.update old new).apply db.events))
    (hold : old ∈ db.events) (hsame : SameAddress event.toEvent old)
    (haddress : SameAddress event.toEvent new) (hid : new.eventId = toBuffer event.id)
    (hknown : Known event.toEvent db) : old.eventId = toBuffer event.id := by
  obtain ⟨r, hr, hrid⟩ := List.mem_map.mp hknown
  by_contra hne
  -- another row with the id stays beside the new one
  have hro : r ≠ old := fun heq => hne (heq ▸ hrid)
  have hr' : r ∈ (Change.update old new).apply db.events :=
    (mem_apply_update hold).mpr (Or.inr ⟨hr, hro⟩)
  have hnew : new ∈ (Change.update old new).apply db.events :=
    (mem_apply_update hold).mpr (Or.inl rfl)
  obtain rfl := uniqueIds_of_unique hkeeps r hr' new hnew (hrid.trans hid.symm)
  exact hro (eq_of_sameAddress hunique hr hold haddress hsame)

/-- A row that is appended has an id that was not stored. -/
theorem not_known_of_inserted {new : EventRow}
    (hkeeps : Unique flatSchema.enforced (db.events ++ [new]))
    (hid : new.eventId = toBuffer event.id) : ¬ Known event.toEvent db := by
  intro hknown
  obtain ⟨r, hr, hrid⟩ := List.mem_map.mp hknown
  have hpair := hkeeps _ eventIdUnique_mem_enforced
  exact (List.pairwise_append.mp hpair).2.2 r hr new (List.mem_singleton.mpr rfl)
    (clash_eventIdUnique_iff.mpr (hrid.trans hid.symm))

/-- An upsert that changes the rows of the flat table replaces a row, or
appends one that has a deduplication value. -/
theorem events_upsert_flat (h : (addressOf event.toEvent).isSome)
    (hunique : Unique flatSchema.enforced db.events) :
    let db' := (upsert flatSchema none now (event.incoming (attached event.toEvent)) db).2
    (db'.events = db.events ∧ ¬ (Known event.toEvent db ∧ Restamped flatSchema now event db)) ∨
      (∃ new, db'.events = db.events ++ [new] ∧ new.eventDeduplication ≠ none ∧
        ¬ Known event.toEvent db) ∨
      (db'.events.length = db.events.length ∧ db'.events ≠ db.events ∧
        (Known event.toEvent db → Restamped flatSchema now event db)) := by
  intro db'
  rcases upsert_flat_change event none now db h with ⟨e, he⟩ | ⟨c, hc, hchange, hkeeps⟩
  · -- a row with the id and the address of the event would have been replaced
    refine Or.inl ⟨by simp only [db', he], ?_⟩
    rintro ⟨-, -, hfits, old, hold, hid, hsame, -⟩
    obtain ⟨c, hc⟩ := exists_upsert_flat event now h hunique hfits <| Or.inl fun r hr heq => by
      rwa [uniqueIds_of_unique hunique r hr old hold (heq.trans hid.symm)]
    rw [he] at hc
    cases congrArg Prod.fst hc
  · have hevents : db'.events = c.apply db.events := by simp only [db', hc, Database.change_events]
    have hfits := columnError_of_upsert hc
    cases hchange with
    | inserted new hrow hno =>
        have hnew := not_known_of_inserted (hkeeps hunique) hrow.eventId
        refine Or.inr (Or.inl ⟨new, hevents, ?_, hnew⟩)
        rw [hrow.eventDeduplication]
        exact Option.isSome_iff_ne_none.mp h
    | replaced old new hold hsame hlt hrow =>
        have hnewer : old.eventCreatedAt < new.eventCreatedAt := hrow.eventCreatedAt ▸ hlt
        have haddress : SameAddress event.toEvent new := hrow.written.sameAddress h
        refine Or.inr (Or.inr ⟨?_, ?_, fun hknown => ?_⟩)
        · rw [hevents]
          exact List.length_map _
        · rw [hevents]
          exact apply_update_ne hold hnewer
        · have hid := eventId_of_replaced hunique (hkeeps hunique) hold hsame haddress
            hrow.eventId hknown
          exact ⟨by rw [infer_flatSchema]; simp, hfits, old, hold, hid, hsame, hlt⟩
    | kept old hold hsame hle =>
        refine Or.inl ⟨hevents, ?_⟩
        rintro ⟨-, -, -, old', hold', -, hsame', hlt⟩
        rw [eq_of_sameAddress hunique hold' hold hsame' hsame] at hlt
        exact absurd hlt (not_lt.mpr hle)

/-- Without an index to refer to, an upsert changes nothing. -/
theorem upsert_of_infer_eq_none {S : Schema}
    (hnone : S.infer addressColumns replaceableKinds = none) (now : ℕ) (incoming : IncomingEvent)
    (db : Database) : (upsert S none now incoming db).2 = db := by
  simp only [upsert, upsertStatement, guarded, hnone]
  rcases (none <|> (upsertRow now incoming).columnError : Option DbError) with - | e
  · rfl
  · rfl

/-- The insert of the worker, beside an upsert that writes nothing. -/
theorem storesAlike_unindexed {S : Schema} (hS : IdIndexed S)
    (hnone : S.infer addressColumns replaceableKinds = none) :
    (create S none now (event.incoming none) db).2.events = db.events ↔
      Unfit now event ∨ Known event.toEvent db ∧ ¬ Restamped S now event db := by
  have hno : ¬ Restamped S now event db := fun hr => hr.1 hnone
  rcases events_create hS now event db with ⟨hstop, he⟩ | ⟨hstop, he⟩
  · exact iff_of_true he (hstop.imp_right fun hknown => ⟨hknown, hno⟩)
  · refine iff_of_false (fun heq => append_singleton_ne _ _ (he.symm.trans heq)) fun hor => ?_
    exact hstop (hor.imp_right And.left)

/-- The insert of the worker, beside the upsert into the flat table. -/
theorem storesAlike_flat (h : (addressOf event.toEvent).isSome)
    (hunique : Unique flatSchema.enforced db.events) :
    (create flatSchema none now (event.incoming none) db).2.events
        = (upsert flatSchema none now (event.incoming (attached event.toEvent)) db).2.events ↔
      Unfit now event ∨ Known event.toEvent db ∧ ¬ Restamped flatSchema now event db := by
  have hS : IdIndexed flatSchema := idIndexed_deployed .flat 0
  have hcreate := events_create hS now event db
  by_cases hunfit : Unfit now event
  · -- neither statement gets past its parameters
    refine iff_of_true ?_ (Or.inl hunfit)
    obtain ⟨e, he⟩ := Option.ne_none_iff_exists'.mp (hunfit.upsertRow (attached event.toEvent))
    rw [upsert_of_columnError he]
    exact (hcreate.resolve_right fun hr => hr.1 (Or.inl hunfit)).2
  · rw [or_iff_right hunfit] at hcreate ⊢
    rcases @events_upsert_flat now _ _ h hunique with ⟨hu, hno⟩ | ⟨new, hu, hd, hnew⟩ |
      ⟨hlen, hne, hre⟩
    · -- the upsert keeps the table as it is
      rw [hu]
      rcases hcreate with ⟨hknown, he⟩ | ⟨hknown, he⟩
      · exact iff_of_true he ⟨hknown, fun hr => hno ⟨hknown, hr⟩⟩
      · exact iff_of_false (fun heq => append_singleton_ne _ _ (he.symm.trans heq)) fun hr =>
          hknown hr.1
    · -- both append a row, and the two differ in their deduplication value
      refine iff_of_false (fun heq => ?_) fun hr => hnew hr.1
      rcases hcreate with ⟨hknown, -⟩ | ⟨-, he⟩
      · exact hnew hknown
      · rw [he, hu, List.append_right_inj, List.singleton_inj] at heq
        exact hd (heq ▸ rfl)
    · -- the upsert replaces a row, and the insert never does
      refine iff_of_false (fun heq => ?_) fun hr => hr.2 (hre hr.1)
      rcases hcreate with ⟨-, he⟩ | ⟨-, he⟩
      · exact hne (heq.symm.trans he)
      · rw [← heq, he, List.length_append, List.length_singleton] at hlen
        omega

/-- **Events with an address** are stored alike only where neither copy
writes. -/
theorem storesAlike_addressed (layout : Layout) (restarts : ℕ)
    (hunique : Unique (deployed layout restarts).enforced db.events)
    (h : (addressOf event.toEvent).isSome) :
    (create (deployed layout restarts) none now (event.incoming none) db).2.events
        = (execute (deployed layout restarts) ⟨none, none⟩ now event db).2.events ↔
      Unfit now event ∨
        Known event.toEvent db ∧ ¬ Restamped (deployed layout restarts) now event db := by
  rw [execute_addressed h]
  rcases infer_deployed layout restarts with hnone | hflat
  · rw [upsert_of_infer_eq_none hnone]
    exact storesAlike_unindexed (idIndexed_deployed layout restarts) hnone
  · rw [hflat] at hunique ⊢
    exact storesAlike_flat h hunique

/-! ### The table after the worker and after the strategy -/

/-- **Mirroring stores an event like publishing it** exactly where the two
agree: all events of the default strategy, deletions that mark nothing, and
of the ephemeral and the replaceable events those that neither of the two
writes. -/
theorem storesAlike_iff (W : Worker) (layout : Layout) (restarts now : ℕ) (event : Event)
    (db : Database) (hunique : Unique (deployed layout restarts).enforced db.events)
    (haccepts : accepts W event = true) :
    StoresAlike W (deployed layout restarts) now event db ↔
      MirrorsPublishing (deployed layout restarts) now (mirrored W event) db := by
  rw [StoresAlike, onEvent_of_accepts haccepts, MirrorsPublishing]
  rcases hs : eventStrategyFactory (mirrored W event).toEvent with - | - | - | - | -
  · exact storesAlike_addressed layout restarts hunique (by simp [addressOf, hs])
  · -- the strategy of ephemeral events stores nothing
    simp only [execute, hs, executeEphemeral]
    rcases events_create (idIndexed_deployed layout restarts) now (mirrored W event) db with
      ⟨hstop, he⟩ | ⟨hstop, he⟩
    · exact iff_of_true he hstop
    · exact iff_of_false (fun heq => append_singleton_ne _ _ (he.symm.trans heq)) hstop
  · exact storesAlike_delete (idIndexed_deployed layout restarts) hs
  · exact storesAlike_addressed layout restarts hunique (by simp [addressOf, hs])
  · simp only [execute, hs, executeDefault]

/-- A worker that mirrors notes and profiles for a relay without
restrictions. -/
def openWorker (events : List Event) : Worker where
  runtime := runtimeFor events
  relayPublicKey := relayKey
  settings := ⟨none, none, none⟩
  config := ⟨"wss://relay.example", some [⟨none, none, some [0, 1], none, none, none, []⟩], none,
    some ⟨none⟩, none⟩
  users := fun _ => none
  clock := 1700000060

/-- A note is stored like any other. -/
theorem storesAlike_shortNote :
    StoresAlike (openWorker [shortNote]) (deployed .flat 0) 1700000060 shortNote ⟨[], []⟩ := by
  refine (storesAlike_iff (openWorker [shortNote]) .flat 0 1700000060 shortNote ⟨[], []⟩ unique_nil
    (by decide +kernel)).mpr ?_
  have hs : eventStrategyFactory (mirrored (openWorker [shortNote]) shortNote).toEvent =
      .default := by decide
  rw [MirrorsPublishing, hs]
  trivial

/-- A mirrored profile is stored without a deduplication value. -/
theorem not_storesAlike_profile :
    accepts (openWorker [profileA.event.toEvent]) profileA.event.toEvent = true ∧
      ¬ StoresAlike (openWorker [profileA.event.toEvent]) (deployed .flat 0) 1700000060
        profileA.event.toEvent ⟨[], []⟩ := by
  decide +kernel

end StaticMirroringWorker

end NostrMesh.Relay
