/-
NostrMesh/Relay/Partition.lean

The partitioned table against the flat one.  Both answer the same calls of
the event repository, starting with the same rows; on the partitioned side a
run of the migrate job drops `replaceable_events_idx` again.

The two differ in one statement.  `upsert` names its conflict index by
columns and predicate, such an index has to be declared on the table that the
statement names, and the migration declares it on the partition: the upsert
fails to plan.  Everything else is the same on both sides, because what
`create` inserts has no deduplication value and so is outside of
`replaceable_events_idx`.
-/
import NostrMesh.Lib.Mealy
import NostrMesh.Relay.Strategies

namespace NostrMesh.Relay

open Tables

/-! ### Calls -/

/-- A call of the repository, or a run of the migrate job. -/
inductive Call
  | create (now : ℕ) (event : IncomingEvent)
  | upsert (now : ℕ) (event : IncomingEvent)
  | deleteByPubkeyAndIds (now : ℕ) (pubkey : String) (eventIdsToDelete : List String)
  | findByFilters (filters : List SubscriptionFilter)
  | migrate
  deriving DecidableEq, Repr

/-- What a call answers. -/
inductive Answer
  | rowCount (r : Except DbError ℕ)
  | rows (r : Except DbError (List EventRow))
  | migrated
  deriving DecidableEq

/-- One call, on a table with the given indexes; `onMigrate` is what the
migrate job does to them. -/
def call (onMigrate : Schema → Schema) :
    Mealy.Machine (Schema × Database) Call Answer
  | .create now event, (S, db) =>
      match create S none now event db with
      | (n, db') => (.rowCount (.ok n), S, db')
  | .upsert now event, (S, db) =>
      match upsert S none now event db with
      | (r, db') => (.rowCount r, S, db')
  | .deleteByPubkeyAndIds now pubkey ids, (S, db) =>
      match deleteByPubkeyAndIds none now pubkey ids db with
      | (r, db') => (.rowCount r, S, db')
  | .findByFilters filters, (S, db) => (.rows (findByFilters none filters db), S, db)
  | .migrate, (S, db) => (.migrated, onMigrate S, db)

/-- The answers of the flat table. -/
def flatAnswers (calls : List Call) (db : Database) : List Answer :=
  Mealy.outputs (call id) calls (flatSchema, db)

/-- The answers of the partitioned table. -/
def partitionedAnswers (calls : List Call) (db : Database) : List Answer :=
  Mealy.outputs (call (migrate [])) calls (partitionedSchema, db)

/-- The call is no upsert, or one that is refused for its parameters. -/
def Call.NoUpsert : Call → Prop
  | .upsert now event => (upsertRow now event).columnError ≠ none
  | _ => True

/-! ### The indexes that matter to `create` -/

/-- A schema enforces unique ids, and besides only addresses. -/
def IdIndexed (S : Schema) : Prop :=
  (∃ ix ∈ S.onTable ++ S.onPartition, ix.columns = [.eventId] ∧ ix.predicate = none) ∧
    ∀ ix ∈ S.onTable ++ S.onPartition, ix.columns = [.eventId] ∨ ix.columns = addressColumns

/-- Restarts drop no other index than one of that name. -/
theorem mem_deployed {layout : Layout} {ix : IndexDef}
    (h : ix ∈ (deployed layout 0).onTable ++ (deployed layout 0).onPartition)
    (hname : ix.name ≠ "replaceable_events_idx") (restarts : ℕ) :
    ix ∈ (deployed layout restarts).onTable ++ (deployed layout restarts).onPartition := by
  induction restarts with
  | zero => exact h
  | succ n ih =>
      simp only [deployed, migrate, Schema.dropIndex, List.foldl_nil, List.mem_append,
        List.mem_filter] at ih ⊢
      exact ih.imp (fun h => ⟨h, decide_eq_true hname⟩) fun h => ⟨h, decide_eq_true hname⟩

theorem idIndexed_deployed (layout : Layout) (restarts : ℕ) : IdIndexed (deployed layout restarts) := by
  refine ⟨?_, columns_of_deployed layout restarts⟩
  cases layout with
  | flat => exact ⟨eventIdUnique, mem_deployed (by decide) (by decide) restarts, rfl, rfl⟩
  | partitioned => exact ⟨eventsHotEventIdIdx, mem_deployed (by decide) (by decide) restarts, rfl, rfl⟩

theorem clash_eventId_iff {ix : IndexDef} (hcol : ix.columns = [.eventId])
    (hp : ix.predicate = none) (r s : EventRow) :
    ix.toUniqueIndex.Clash r s ↔ r.eventId = s.eventId := by
  simp [UniqueIndex.Clash, IndexDef.toUniqueIndex, IndexDef.key, hcol, hp, EventRow.column]

/-- A row without deduplication value is only suppressed by its id. -/
theorem insertIgnore_of_idIndexed {S : Schema} (hS : IdIndexed S) {row : EventRow}
    (hrow : row.eventDeduplication = none) (t : List EventRow) :
    insertIgnore S.enforced row t
      = if row.eventId ∈ t.map EventRow.eventId then .none else .insert row := by
  obtain ⟨⟨ix, hix, hcol, hp⟩, hcols⟩ := hS
  rcases insertIgnore_cases S.enforced row t with ⟨he, hno⟩ | ⟨he, u, hu, r, hr, hclash⟩
  · rw [he, if_neg]
    intro hmem
    obtain ⟨r, hr, hid⟩ := List.mem_map.mp hmem
    exact hno _ (List.mem_map.mpr ⟨ix, hix, rfl⟩) r hr ((clash_eventId_iff hcol hp r row).mpr hid)
  · rw [he, if_pos]
    obtain ⟨ix', hix', rfl⟩ := List.mem_map.mp hu
    rcases hcols ix' hix' with hcol' | hcol'
    · exact List.mem_map.mpr ⟨r, hr, eventId_of_clash hcol' hclash⟩
    · obtain ⟨-, -, heq, hne⟩ := address_of_clash hcol' hclash
      exact absurd (heq.trans hrow) hne

theorem create_eq_of_idIndexed {S T : Schema} (hS : IdIndexed S) (hT : IdIndexed T)
    (fault : Option DbError) (now : ℕ) (event : IncomingEvent) (db : Database) :
    create S fault now event db = create T fault now event db := by
  rw [create, create, insert, insert, insertIgnore_of_idIndexed hS rfl,
    insertIgnore_of_idIndexed hT rfl]

/-! ### Conflict inference -/

theorem infer_flat :
    flatSchema.infer addressColumns replaceableKinds = some replaceableEventsIdx := by decide

theorem infer_partitioned (restarts : ℕ) :
    (deployed .partitioned restarts).infer addressColumns replaceableKinds = none := by
  -- a restart drops indexes, and declares none
  have hnil : (deployed .partitioned restarts).onTable = [] := by
    induction restarts with
    | zero => rfl
    | succ n ih => simp [deployed, migrate, Schema.dropIndex, ih]
  rw [Schema.infer, hnil, List.find?_nil]

/-- On the flat table an upsert is planned, whatever comes of it. -/
theorem upsert_flat_ne (now : ℕ) (event : IncomingEvent) (db : Database)
    (hrow : (upsertRow now event).columnError = none) :
    (upsert flatSchema none now event db).1 ≠ .error .noMatchingConstraint := by
  intro h
  simp only [upsert, upsertStatement, guarded, hrow, infer_flat, Option.orElse_eq_orElse,
    Option.orElse_none] at h
  split at h
  · simp [Statement.exec] at h
  · simp [Statement.exec] at h

/-- On the partitioned table no upsert is. -/
theorem upsert_partitioned (restarts now : ℕ) (event : IncomingEvent) (db : Database)
    (hrow : (upsertRow now event).columnError = none) :
    upsert (deployed .partitioned restarts) none now event db
      = (.error .noMatchingConstraint, db) := by
  simp [upsert, upsertStatement, guarded, hrow, infer_partitioned, Statement.exec]

/-- An upsert with a parameter that its column does not take. -/
theorem upsert_of_columnError {S : Schema} {now : ℕ} {event : IncomingEvent} {db : Database}
    {e : DbError} (hrow : (upsertRow now event).columnError = some e) :
    upsert S none now event db = (.error e, db) := by
  simp [upsert, upsertStatement, guarded, hrow, Statement.exec]

/-! ### The two tables -/

/-- The two sides between calls: the same rows, and on the partitioned side
any number of restarts. -/
def SameRows (flat partitioned : Schema × Database) : Prop :=
  flat.1 = flatSchema ∧ (∃ restarts, partitioned.1 = deployed .partitioned restarts) ∧
    flat.2 = partitioned.2

theorem call_of_noUpsert (c : Call) (s t : Schema × Database) (h : SameRows s t)
    (hc : c.NoUpsert) :
    (call id c s).1 = (call (migrate []) c t).1 ∧
      SameRows (call id c s).2 (call (migrate []) c t).2 := by
  obtain ⟨S, db⟩ := s
  obtain ⟨T, db'⟩ := t
  obtain ⟨rfl, ⟨restarts, rfl⟩, rfl⟩ := h
  cases c with
  | create now event =>
      have hflat : IdIndexed flatSchema := idIndexed_deployed .flat 0
      have heq := create_eq_of_idIndexed hflat (idIndexed_deployed .partitioned restarts) none now
        event db
      refine ⟨by simp only [call, heq], ?_⟩
      simp only [call, heq]
      exact ⟨rfl, ⟨restarts, rfl⟩, rfl⟩
  | upsert now event =>
      obtain ⟨e, he⟩ := Option.ne_none_iff_exists'.mp hc
      refine ⟨by simp only [call, upsert_of_columnError he], ?_⟩
      simp only [call, upsert_of_columnError he]
      exact ⟨rfl, ⟨restarts, rfl⟩, rfl⟩
  | deleteByPubkeyAndIds now pubkey ids => exact ⟨rfl, rfl, ⟨restarts, rfl⟩, rfl⟩
  | findByFilters filters => exact ⟨rfl, rfl, ⟨restarts, rfl⟩, rfl⟩
  | migrate => exact ⟨rfl, rfl, ⟨restarts + 1, rfl⟩, rfl⟩

theorem call_of_upsert (c : Call) (s t : Schema × Database) (h : SameRows s t)
    (hc : ¬ c.NoUpsert) : (call id c s).1 ≠ (call (migrate []) c t).1 := by
  obtain ⟨S, db⟩ := s
  obtain ⟨T, db'⟩ := t
  obtain ⟨rfl, ⟨restarts, rfl⟩, rfl⟩ := h
  cases c with
  | upsert now event =>
      have hrow : (upsertRow now event).columnError = none := not_not.mp hc
      intro heq
      simp only [call, upsert_partitioned restarts now event db hrow, Answer.rowCount.injEq] at heq
      exact upsert_flat_ne now event db hrow heq
  | _ => exact absurd trivial hc

/-- **The partitioned table answers like the flat one** exactly for the calls
that have no upsert the columns would take. -/
theorem partitionedAnswers_eq_iff (calls : List Call) (db : Database) :
    partitionedAnswers calls db = flatAnswers calls db ↔ ∀ c ∈ calls, c.NoUpsert :=
  eq_comm.trans (Mealy.outputs_eq_iff call_of_noUpsert call_of_upsert calls
    ⟨rfl, ⟨0, rfl⟩, rfl⟩)

/-- A profile, as the replaceable strategy hands it to the repository. -/
def profileEvent : IncomingEvent where
  id := "b97eaff8312652889bd223025d65cef333c6b9528b4e6e1d5feb8da687eda13e"
  pubkey := "87ba3a258367ea438900a86e70924f0446e7ef120a3d5b668f3ba56910ec993f"
  createdAt := 1700000000
  kind := 0
  tags := []
  content := "{}"
  sig := "9c760fbe0d31a0a3ae88d4db5a794c6dcb6d995170b043f27ef87a9b553b3361" ++
    "2e7a09c9ab547f0f8f2901c124ffcf61c92e3ad03cb173c651b0d8f9cb141042"
  remoteAddress := some "::1"
  expiration := none
  deduplication := none

/-- The flat table stores the profile, the partitioned one refuses it. -/
theorem profileEvent_told_apart :
    flatAnswers [.upsert 0 profileEvent] ⟨[], []⟩ = [.rowCount (.ok 1)] ∧
      partitionedAnswers [.upsert 0 profileEvent] ⟨[], []⟩
        = [.rowCount (.error .noMatchingConstraint)] ∧
      partitionedAnswers [.upsert 0 profileEvent] ⟨[], []⟩
        ≠ flatAnswers [.upsert 0 profileEvent] ⟨[], []⟩ := by
  decide

end NostrMesh.Relay
