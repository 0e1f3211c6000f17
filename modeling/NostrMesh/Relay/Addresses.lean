/-
NostrMesh/Relay/Addresses.lean

A replaceable address is a register that keeps its newest value.

On the flat table, an event with an address either changes nothing and is
refused, or is acknowledged, and then the table has gone one of three ways
(`Upserted`): the address was free and the event's row is new, or the row of
the address was older and is replaced, or it was not older and stays.  The
reply is `OK true` in all three.
-/
import NostrMesh.Relay.Subscription

namespace NostrMesh.Relay

open Tables

/-- The row is what `upsert` leaves for an event. -/
structure RowOf (event : Event) (row : EventRow) : Prop where
  eventId : row.eventId = toBuffer event.id
  eventPubkey : row.eventPubkey = toBuffer event.pubkey
  eventKind : row.eventKind = event.kind
  eventCreatedAt : row.eventCreatedAt = event.createdAt
  eventContent : row.eventContent = event.content
  eventTags : row.eventTags = event.tags
  eventDeduplication : row.eventDeduplication = addressOf event
  deletedAt : row.deletedAt = none

/-- What an acknowledged event with an address has done to the tables. -/
inductive Upserted (event : Event) (db : Database) : Database → Prop
  | inserted (new : EventRow) :
      RowOf event new → (∀ r ∈ db.events, ¬ SameAddress event r) →
      Upserted event db (db.change (.insert new))
  | replaced (old new : EventRow) :
      old ∈ db.events → SameAddress event old → old.eventCreatedAt < event.createdAt →
      RowOf event new → Upserted event db (db.change (.update old new))
  | kept (old : EventRow) :
      old ∈ db.events → SameAddress event old → event.createdAt ≤ old.eventCreatedAt →
      Upserted event db db

/-- The change that `upsert` makes for an event with an address. -/
inductive UpsertChange (event : Event) (db : Database) : Change EventRow → Prop
  | inserted (new : EventRow) :
      RowOf event new → (∀ r ∈ db.events, ¬ SameAddress event r) →
      UpsertChange event db (.insert new)
  | replaced (old new : EventRow) :
      old ∈ db.events → SameAddress event old → old.eventCreatedAt < event.createdAt →
      RowOf event new → UpsertChange event db (.update old new)
  | kept (old : EventRow) :
      old ∈ db.events → SameAddress event old → event.createdAt ≤ old.eventCreatedAt →
      UpsertChange event db .none

theorem UpsertChange.upserted {event : Event} {db : Database} {c : Change EventRow}
    (h : UpsertChange event db c) : Upserted event db (db.change c) := by
  cases h with
  | inserted new hrow hno => exact .inserted new hrow hno
  | replaced old new hold hsame hlt hrow => exact .replaced old new hold hsame hlt hrow
  | kept old hold hsame hle => exact .kept old hold hsame hle

/-! ### Addresses and the index -/

/-- An event with an address has a kind of the index. -/
theorem holds_replaceableKinds {event : Event} (h : (addressOf event).isSome) :
    KindRanges.holds replaceableKinds event.kind = true := by
  have hkind : event.isReplaceableEvent = true ∨ event.isParameterizedReplaceableEvent = true := by
    simp only [addressOf, eventStrategyFactory] at h
    by_contra hno
    obtain ⟨hrep, hparam⟩ := not_or.mp hno
    simp only [hrep, hparam, Bool.false_eq_true, if_false] at h
    split_ifs at h <;> simp_all
  simp only [Event.isReplaceableEvent, Event.isParameterizedReplaceableEvent, Bool.or_eq_true,
    Bool.and_eq_true, decide_eq_true_eq] at hkind
  simp only [EventKinds.setMetadata, EventKinds.contactList, EventKinds.channelMetadata,
    EventKinds.replaceableFirst, EventKinds.replaceableLast,
    EventKinds.parameterizedReplaceableFirst, EventKinds.parameterizedReplaceableLast] at hkind
  simp only [KindRanges.holds, replaceableKinds, List.any_cons, List.any_nil, Bool.or_false,
    Bool.or_eq_true, Bool.and_eq_true, decide_eq_true_eq]
  omega

theorem key_replaceableEventsIdx (row : EventRow)
    (hkind : KindRanges.holds replaceableKinds row.eventKind = true) {d : Deduplication}
    (hd : row.eventDeduplication = some d) :
    replaceableEventsIdx.key row
      = some [.bytea row.eventPubkey, .integer row.eventKind, .jsonb d] := by
  simp [IndexDef.key, replaceableEventsIdx, addressColumns, EventRow.column, hkind, hd]

/-- A row clashes with the event's row exactly if it has its address. -/
theorem clash_iff_sameAddress {event : Event} (h : (addressOf event).isSome) {row r : EventRow}
    (hpubkey : row.eventPubkey = toBuffer event.pubkey) (hkind : row.eventKind = event.kind)
    (hd : row.eventDeduplication = addressOf event) :
    replaceableEventsIdx.toUniqueIndex.Clash r row ↔ SameAddress event r := by
  constructor
  · intro hclash
    obtain ⟨hp, hk, hdedup, -⟩ := address_of_clash rfl hclash
    exact ⟨h, hp.trans hpubkey, hk.trans hkind, hdedup.trans hd⟩
  · rintro ⟨-, hp, hk, hdedup⟩
    obtain ⟨d, haddr⟩ := Option.isSome_iff_exists.mp h
    have hholds := holds_replaceableKinds h
    have hr := key_replaceableEventsIdx r (hk ▸ hholds) (hdedup.trans haddr)
    have hrow := key_replaceableEventsIdx row (hkind ▸ hholds) (hd.trans haddr)
    refine ⟨by simp only [IndexDef.toUniqueIndex, hr]; simp, ?_⟩
    simp only [IndexDef.toUniqueIndex, hr, hrow, hp, hk, hpubkey, hkind]

theorem replaceableEventsIdx_mem_enforced :
    replaceableEventsIdx.toUniqueIndex ∈ flatSchema.enforced :=
  List.mem_map_of_mem (by decide)

theorem eventIdUnique_mem_enforced : eventIdUnique.toUniqueIndex ∈ flatSchema.enforced :=
  List.mem_map_of_mem (by decide)

/-- Rows clash under the constraint on the id exactly if they have one id. -/
theorem clash_eventIdUnique_iff {r s : EventRow} :
    eventIdUnique.toUniqueIndex.Clash r s ↔ r.eventId = s.eventId := by
  refine ⟨eventId_of_clash rfl, fun heq => ⟨?_, ?_⟩⟩
  · simp [IndexDef.toUniqueIndex, IndexDef.key, eventIdUnique, EventRow.column]
  · simp [IndexDef.toUniqueIndex, IndexDef.key, eventIdUnique, EventRow.column, heq]

/-- The indexes of the flat table: one row for each id. -/
theorem uniqueIds_of_unique {rows : List EventRow} (h : Unique flatSchema.enforced rows) :
    UniqueIds rows :=
  fun _ hr _ hs heq =>
    h.eq_of_clash eventIdUnique_mem_enforced hr hs (clash_eventIdUnique_iff.mpr heq)

/-- The indexes of the flat table: one row for each address. -/
theorem eq_of_sameAddress {rows : List EventRow} (h : Unique flatSchema.enforced rows)
    {event : Event} {r s : EventRow} (hr : r ∈ rows) (hs : s ∈ rows) (hra : SameAddress event r)
    (hsa : SameAddress event s) : r = s :=
  h.eq_of_clash replaceableEventsIdx_mem_enforced hr hs
    ((clash_iff_sameAddress hsa.1 hsa.2.1 hsa.2.2.1 hsa.2.2.2).mpr hra)

/-! ### `upsert` and the strategies -/

/-- The deduplication value that the strategy attaches to an event with an
address. -/
def attached (event : Event) : Option (List String) :=
  match eventStrategyFactory event with
  | .parameterizedReplaceable => some (deduplicationTag event)
  | _ => none

theorem deduplicationOf_attached {event : ReceivedEvent} (h : (addressOf event.toEvent).isSome) :
    some (deduplicationOf (event.incoming (attached event.toEvent))) = addressOf event.toEvent := by
  rcases hs : eventStrategyFactory event.toEvent with - | - | - | - | - <;>
    simp [addressOf, attached, hs, deduplicationOf, ReceivedEvent.incoming] at h ⊢

variable {F : Faults} {fault : Option DbError} {now : ℕ} {event : ReceivedEvent} {db : Database}

theorem rowOf_upsertRow (event : ReceivedEvent) (now : ℕ) (h : (addressOf event.toEvent).isSome) :
    RowOf event.toEvent (upsertRow now (event.incoming (attached event.toEvent))) :=
  ⟨rfl, rfl, rfl, rfl, rfl, rfl, deduplicationOf_attached h, rfl⟩

theorem clash_upsertRow_iff (event : ReceivedEvent) (now : ℕ) (h : (addressOf event.toEvent).isSome) (r : EventRow) :
    replaceableEventsIdx.toUniqueIndex.Clash r
        (upsertRow now (event.incoming (attached event.toEvent))) ↔ SameAddress event.toEvent r :=
  clash_iff_sameAddress h rfl rfl (deduplicationOf_attached h)

theorem infer_flatSchema :
    flatSchema.infer addressColumns replaceableKinds = some replaceableEventsIdx := by
  decide

/-- **`upsert` on the flat table**: an error, or one of the three changes. -/
theorem upsert_flat_change (event : ReceivedEvent) (fault : Option DbError) (now : ℕ) (db : Database)
    (h : (addressOf event.toEvent).isSome) :
    (∃ e, upsert flatSchema fault now (event.incoming (attached event.toEvent)) db
        = (.error e, db)) ∨
    ∃ c, upsert flatSchema fault now (event.incoming (attached event.toEvent)) db
        = (.ok c.rowCount, db.change c) ∧ UpsertChange event.toEvent db c ∧
      (Unique flatSchema.enforced db.events → Unique flatSchema.enforced (c.apply db.events)) := by
  have hrow := rowOf_upsertRow event now h
  have hclash : ∀ r, _ ↔ SameAddress event.toEvent r :=
    clash_upsertRow_iff event now h
  simp only [upsert, upsertStatement, guarded, infer_flatSchema]
  generalize upsertRow now (event.incoming (attached event.toEvent)) = row at hrow hclash ⊢
  rcases he : fault <|> row.columnError with - | e
  · rcases hu : Tables.upsert flatSchema.enforced replaceableEventsIdx.toUniqueIndex
        (fun old => old.eventCreatedAt < row.eventCreatedAt) (mergeRow row) row db.events with
      constraint | c
    · exact Or.inl ⟨_, rfl⟩
    · refine Or.inr ⟨c, rfl, ?_, fun hunique => hunique.upsert replaceableEventsIdx_mem_enforced hu⟩
      rcases upsert_cases hu with ⟨rfl, hno, -⟩ | ⟨old, hold, hsame, hg, rfl, -⟩ |
        ⟨rfl, old, hold, hsame, hg⟩
      · exact .inserted _ hrow fun r hr hsame => hno r hr ((hclash r).mpr hsame)
      · obtain ⟨-, hp, hk, hd⟩ := (hclash old).mp hsame
        refine .replaced old _ hold ((hclash old).mp hsame) ?_
          ⟨hrow.eventId, hp, hk, hrow.eventCreatedAt, hrow.eventContent, hrow.eventTags, hd,
            hrow.deletedAt⟩
        rw [← hrow.eventCreatedAt]
        exact of_decide_eq_true hg
      · refine .kept old hold ((hclash old).mp hsame) ?_
        rw [← hrow.eventCreatedAt]
        exact not_lt.mp (of_decide_eq_false hg)
  · exact Or.inl ⟨e, rfl⟩

/-- The tables after `upsert` on the flat table. -/
theorem upsert_flat (fault : Option DbError) (now : ℕ) (db : Database)
    (h : (addressOf event.toEvent).isSome) :
    (∃ e, upsert flatSchema fault now (event.incoming (attached event.toEvent)) db
        = (.error e, db)) ∨
    ∃ count db', upsert flatSchema fault now (event.incoming (attached event.toEvent)) db
        = (.ok count, db') ∧ Upserted event.toEvent db db' ∧
      (Unique flatSchema.enforced db.events → Unique flatSchema.enforced db'.events) := by
  rcases upsert_flat_change event fault now db h with ⟨e, he⟩ | ⟨c, hc, hchange, hunique⟩
  · exact Or.inl ⟨e, he⟩
  · exact Or.inr ⟨c.rowCount, db.change c, hc, hchange.upserted, hunique⟩

/-- What the strategy makes of the statement. -/
theorem handleEvent_of_upsert (h : (addressOf event.toEvent).isSome) {S : Schema}
    {result : Except DbError ℕ} {db' : Database}
    (hupsert : upsert S F.insert now (event.incoming (attached event.toEvent)) db = (result, db')) :
    (∃ count, result = .ok count ∧
      handleEvent S F now event db = (commandResult event.toEvent count, db')) ∨
    ∃ e message, result = .error e ∧
      handleEvent S F now event db = ([.message event.id false message], db') := by
  rcases hs : eventStrategyFactory event.toEvent with - | - | - | - | -
  · have hattached : attached event.toEvent = none := by simp [attached, hs]
    rw [hattached] at hupsert
    simp only [handleEvent, execute, hs, executeReplaceable, hupsert]
    rcases result with e | count
    · refine Or.inr ⟨e, ?_⟩
      dsimp only
      split_ifs
      · exact ⟨_, rfl, rfl⟩
      · exact ⟨_, rfl, rfl⟩
    · exact Or.inl ⟨count, rfl, rfl⟩
  · simp [addressOf, hs] at h
  · simp [addressOf, hs] at h
  · have hattached : attached event.toEvent = some (deduplicationTag event.toEvent) := by
      simp [attached, hs]
    rw [hattached] at hupsert
    simp only [handleEvent, execute, hs, executeParameterizedReplaceable, hupsert]
    rcases result with e | count
    · exact Or.inr ⟨e, _, rfl, rfl⟩
    · exact Or.inl ⟨count, rfl, rfl⟩
  · simp [addressOf, hs] at h

/-- **An event with an address**: it is refused and nothing changes, or it is
acknowledged and has been upserted.  The indexes are respected. -/
theorem handleEvent_addressed (F : Faults) (now : ℕ) (db : Database)
    (h : (addressOf event.toEvent).isSome) :
    ((¬ Acknowledged event.toEvent (handleEvent flatSchema F now event db).1 ∧
        (handleEvent flatSchema F now event db).2 = db) ∨
      (Acknowledged event.toEvent (handleEvent flatSchema F now event db).1 ∧
        Upserted event.toEvent db (handleEvent flatSchema F now event db).2)) ∧
    (Unique flatSchema.enforced db.events →
      Unique flatSchema.enforced (handleEvent flatSchema F now event db).2.events) := by
  rcases upsert_flat F.insert now db h with
    ⟨e, he⟩ | ⟨count, db', he, hup, hunique⟩
  · rcases handleEvent_of_upsert h he with ⟨count, hcount, -⟩ | ⟨_, message, -, hhandled⟩
    · cases hcount
    · rw [hhandled]
      exact ⟨Or.inl ⟨not_acknowledged_of_refused _ _, rfl⟩, id⟩
  · rcases handleEvent_of_upsert h he with ⟨_, -, hhandled⟩ | ⟨e, message, herror, -⟩
    · rw [hhandled]
      exact ⟨Or.inr ⟨acknowledged_commandResult _ _, hup⟩, hunique⟩
    · cases herror

/-! ### Events that are accepted -/

theorem enforced_flatSchema : flatSchema.enforced
    = [eventIdUnique.toUniqueIndex, replaceableEventsIdx.toUniqueIndex] := rfl

/-- **An `upsert` answers a count** if no statement fails, its parameters fit
and no row of another address has its id; also if the row of its address is
not older. -/
theorem exists_upsert_flat (event : ReceivedEvent) (now : ℕ) (h : (addressOf event.toEvent).isSome)
    (hunique : Unique flatSchema.enforced db.events)
    (hfits : (upsertRow now (event.incoming (attached event.toEvent))).columnError = none)
    (hid : (∀ r ∈ db.events, r.eventId = toBuffer event.id → SameAddress event.toEvent r) ∨
      ∃ old ∈ db.events, SameAddress event.toEvent old ∧ event.createdAt ≤ old.eventCreatedAt) :
    ∃ c : Change EventRow, upsert flatSchema none now (event.incoming (attached event.toEvent)) db
      = (.ok c.rowCount, db.change c) := by
  have hrow := rowOf_upsertRow event now h
  have hclash : ∀ r, _ ↔ SameAddress event.toEvent r :=
    clash_upsertRow_iff event now h
  simp only [upsert, upsertStatement, guarded, infer_flatSchema]
  generalize upsertRow now (event.incoming (attached event.toEvent)) = row at hrow hclash hfits ⊢
  obtain ⟨c, hc⟩ : ∃ c, Tables.upsert flatSchema.enforced replaceableEventsIdx.toUniqueIndex
      (fun old => old.eventCreatedAt < row.eventCreatedAt) (mergeRow row) row db.events = .ok c := by
    refine exists_upsert ?_ ?_
    · intro hno u hu r hr hrc
      rw [enforced_flatSchema, List.mem_pair] at hu
      rcases hu with rfl | rfl
      · rcases hid with hids | ⟨old, hold, hsame, -⟩
        · have hsame := hids r hr ((eventId_of_clash rfl hrc).trans hrow.eventId)
          exact hno r hr ((hclash r).mpr hsame)
        · exact hno old hold ((hclash old).mpr hsame)
      · exact hno r hr hrc
    · intro old hold holdClash hg u hu r hr hne hrc
      have hsame := (hclash old).mp holdClash
      have hlt : old.eventCreatedAt < event.createdAt := by
        rw [← hrow.eventCreatedAt]
        exact of_decide_eq_true hg
      rcases hid with hids | ⟨old', hold', hsame', hle⟩
      · -- the row in the way has the address of the one that is replaced
        have hsameR : SameAddress event.toEvent r := by
          rw [enforced_flatSchema, List.mem_pair] at hu
          rcases hu with rfl | rfl
          · exact hids r hr ((eventId_of_clash rfl hrc).trans hrow.eventId)
          · exact (clash_iff_sameAddress h hsame.2.1 hsame.2.2.1 hsame.2.2.2).mp hrc
        exact hne (eq_of_sameAddress hunique hr hold hsameR hsame)
      · obtain rfl := eq_of_sameAddress hunique hold hold' hsame hsame'
        exact absurd hlt (not_lt.mpr hle)
  refine ⟨c, ?_⟩
  simp only [hfits, hc]
  rfl

/-- **An event with an address is accepted** if no statement fails, its
parameters fit and its id is not taken; an event that is not newer than the
one at its address is accepted in any case. -/
theorem acknowledged_of_fits (now : ℕ) (h : (addressOf event.toEvent).isSome)
    (hunique : Unique flatSchema.enforced db.events) (hfault : F.insert = none)
    (hfits : (upsertRow now (event.incoming (attached event.toEvent))).columnError = none)
    (hid : toBuffer event.id ∉ db.ids ∨
      ∃ old ∈ db.events, SameAddress event.toEvent old ∧ event.createdAt ≤ old.eventCreatedAt) :
    Acknowledged event.toEvent (handleEvent flatSchema F now event db).1 := by
  have hids : (∀ r ∈ db.events, r.eventId = toBuffer event.id → SameAddress event.toEvent r) ∨
      ∃ old ∈ db.events, SameAddress event.toEvent old ∧ event.createdAt ≤ old.eventCreatedAt :=
    hid.imp_left fun hnot r hr heq => absurd (List.mem_map.mpr ⟨r, hr, heq⟩) hnot
  obtain ⟨c, hupsert⟩ := exists_upsert_flat event now h hunique hfits hids
  rw [← hfault] at hupsert
  rcases handleEvent_of_upsert h hupsert with ⟨count, -, hhandled⟩ | ⟨e, message, herror, -⟩
  · rw [hhandled]
    exact acknowledged_commandResult _ _
  · cases herror

end NostrMesh.Relay
