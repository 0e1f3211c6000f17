/-
NostrMesh/Relay/ClientPath.lean

The relay under the traffic of its clients: any number of handlers of `EVENT`
and `REQ` messages, interleaved at their statements, on a flat table.

* `Rest` says what a handler may still do, operation by operation, and what
  it answers (`rest_handle`);
* `Later` says what may become of a stored row: it stays, it is marked as
  deleted, or a newer event of its address takes its place;
* `StoreInv` holds of every pool that clients can lead to
  (`storeInv_of_reaches`), and along a run every row has a later one
  (`advances_of_reaches`).
-/
import NostrMesh.Relay.Addresses
import NostrMesh.Relay.Traffic

namespace NostrMesh.Relay

open Tables

/-! ### Rows and what becomes of them -/

/-- The row holds the event; it may be marked as deleted. -/
structure Written (event : Event) (row : EventRow) : Prop where
  eventId : row.eventId = toBuffer event.id
  eventPubkey : row.eventPubkey = toBuffer event.pubkey
  eventKind : row.eventKind = event.kind
  eventCreatedAt : row.eventCreatedAt = event.createdAt
  eventContent : row.eventContent = event.content
  eventTags : row.eventTags = event.tags
  eventDeduplication : row.eventDeduplication = addressOf event

/-- What a row may become. -/
inductive Later (row : EventRow) : EventRow → Prop
  | kept : Later row row
  | deleted (now : ℕ) : row.deletedAt = none → Later row { row with deletedAt := some now }
  | replaced (new : EventRow) :
      new.eventPubkey = row.eventPubkey → new.eventKind = row.eventKind →
      new.eventDeduplication = row.eventDeduplication → row.eventDeduplication ≠ none →
      row.eventCreatedAt < new.eventCreatedAt → Later row new

/-- Every row has a later one. -/
def Advances (rows rows' : List EventRow) : Prop := ∀ row ∈ rows, ∃ row' ∈ rows', Later row row'

section

variable {event : Event} {row row' row'' new : EventRow} {rows rows' rows'' : List EventRow}
variable {db : Database}

theorem RowOf.written (h : RowOf event row) : Written event row :=
  ⟨h.eventId, h.eventPubkey, h.eventKind, h.eventCreatedAt, h.eventContent, h.eventTags,
    h.eventDeduplication⟩

theorem Written.mark (h : Written event row) (deletedAt : Option ℕ) :
    Written event { row with deletedAt } :=
  ⟨h.eventId, h.eventPubkey, h.eventKind, h.eventCreatedAt, h.eventContent, h.eventTags,
    h.eventDeduplication⟩

theorem Written.sameAddress (h : Written event row) (haddr : (addressOf event).isSome) :
    SameAddress event row :=
  ⟨haddr, h.eventPubkey, h.eventKind, h.eventDeduplication⟩

theorem Later.trans (h : Later row row') (h' : Later row' row'') : Later row row'' := by
  cases h' with
  | kept => exact h
  | deleted now hnone =>
      cases h with
      | kept => exact .deleted now hnone
      | deleted now' _ => cases hnone
      | replaced _ hpubkey hkind hdedup hne hlt => exact .replaced _ hpubkey hkind hdedup hne hlt
  | replaced _ hpubkey' hkind' hdedup' hne' hlt' =>
      cases h with
      | kept => exact .replaced _ hpubkey' hkind' hdedup' hne' hlt'
      | deleted now hnone => exact .replaced _ hpubkey' hkind' hdedup' hne' hlt'
      | replaced _ hpubkey hkind hdedup hne hlt =>
          exact .replaced _ (hpubkey'.trans hpubkey) (hkind'.trans hkind) (hdedup'.trans hdedup) hne
            (hlt.trans hlt')

/-- An address stays occupied, and by no older event. -/
theorem Later.sameAddress (h : Later row row') (hsame : SameAddress event row) :
    SameAddress event row' ∧ row.eventCreatedAt ≤ row'.eventCreatedAt := by
  cases h with
  | kept => exact ⟨hsame, le_rfl⟩
  | deleted now hnone => exact ⟨hsame, le_rfl⟩
  | replaced _ hpubkey hkind hdedup hne hlt =>
      obtain ⟨haddr, hp, hk, hd⟩ := hsame
      exact ⟨⟨haddr, hpubkey.trans hp, hkind.trans hk, hdedup.trans hd⟩, hlt.le⟩

/-- A row without an address is only ever marked. -/
theorem Later.eq_of_no_address (h : Later row row') (hnone : row.eventDeduplication = none) :
    ∃ deletedAt, row' = { row with deletedAt } := by
  cases h with
  | kept => exact ⟨row.deletedAt, rfl⟩
  | deleted now _ => exact ⟨some now, rfl⟩
  | replaced _ _ _ _ hne _ => exact absurd hnone hne

theorem Advances.refl (rows : List EventRow) : Advances rows rows :=
  fun row hrow => ⟨row, hrow, .kept⟩

theorem Advances.trans (h : Advances rows rows') (h' : Advances rows' rows'') :
    Advances rows rows'' := by
  intro row hrow
  obtain ⟨row', hrow', hlater⟩ := h row hrow
  obtain ⟨row'', hrow'', hlater'⟩ := h' row' hrow'
  exact ⟨row'', hrow'', hlater.trans hlater'⟩

theorem Advances.insert (new : EventRow) (rows : List EventRow) :
    Advances rows ((Change.insert new).apply rows) :=
  fun row hrow => ⟨row, List.mem_append_left _ hrow, .kept⟩

/-- **An upsert** takes every row further. -/
theorem UpsertChange.advances {c : Change EventRow} (h : UpsertChange event db c) :
    Advances db.events (c.apply db.events) := by
  cases h with
  | inserted new _ _ => exact .insert new _
  | kept _ _ _ _ => exact .refl _
  | replaced old new hold hsame hlt hrow =>
      intro row hrow'
      by_cases heq : row = old
      · obtain ⟨haddr, hpubkey, hkind, hdedup⟩ := hsame
        refine ⟨new, (mem_apply_update hold).mpr (Or.inl rfl), heq ▸ .replaced new ?_ ?_ ?_ ?_ ?_⟩
        · exact hrow.eventPubkey.trans hpubkey.symm
        · exact hrow.eventKind.trans hkind.symm
        · exact hrow.eventDeduplication.trans hdedup.symm
        · rw [hdedup]
          exact Option.isSome_iff_ne_none.mp haddr
        · rw [hrow.eventCreatedAt]
          exact hlt
      · exact ⟨row, (mem_apply_update hold).mpr (Or.inr ⟨hrow', heq⟩), .kept⟩

/-- The only new row is that of the event. -/
theorem UpsertChange.mem_cases {c : Change EventRow} (h : UpsertChange event db c)
    (hrow : row ∈ c.apply db.events) : row ∈ db.events ∨ RowOf event row := by
  cases h with
  | inserted new hnew _ =>
      rcases List.mem_append.mp hrow with hold | hmem
      · exact Or.inl hold
      · exact Or.inr (List.mem_singleton.mp hmem ▸ hnew)
  | replaced old new hold _ _ hnew =>
      rcases (mem_apply_update hold).mp hrow with rfl | ⟨hmem, -⟩
      · exact Or.inr hnew
      · exact Or.inl hmem
  | kept _ _ _ _ => exact Or.inl hrow

/-- After the upsert a row of the address is at least as new as the event. -/
theorem UpsertChange.exists_row {c : Change EventRow} (h : UpsertChange event db c)
    (haddr : (addressOf event).isSome) :
    ∃ row ∈ c.apply db.events, SameAddress event row ∧ event.createdAt ≤ row.eventCreatedAt := by
  cases h with
  | inserted new hnew _ =>
      exact ⟨new, List.mem_append_right _ (List.mem_singleton_self _),
        hnew.written.sameAddress haddr, hnew.eventCreatedAt.ge⟩
  | replaced old new hold _ _ hnew =>
      exact ⟨new, (mem_apply_update hold).mpr (Or.inl rfl), hnew.written.sameAddress haddr,
        hnew.eventCreatedAt.ge⟩
  | kept old hold hsame hle => exact ⟨old, hold, hsame, hle⟩

end

/-! ### Marking rows as deleted -/

/-- What the update does to one row. -/
def markRow (now : ℕ) (pubkey : String) (eventIdsToDelete : List String) (row : EventRow) : EventRow :=
  if deletable pubkey eventIdsToDelete row then { row with deletedAt := some now } else row

section

variable {now : ℕ} {pubkey : String} {ids : List String} {row : EventRow} {db : Database}

theorem deletable_iff : deletable pubkey ids row = true ↔
    row.eventPubkey = toBuffer pubkey ∧ row.eventId ∈ ids.map toBuffer ∧ row.deletedAt = none := by
  simp only [deletable, Bool.and_eq_true, decide_eq_true_eq, Option.isNone_iff_eq_none, and_assoc]

theorem markRow_cases (now : ℕ) (pubkey : String) (ids : List String) (row : EventRow) :
    deletable pubkey ids row = true ∧ markRow now pubkey ids row = { row with deletedAt := some now } ∨
    deletable pubkey ids row = false ∧ markRow now pubkey ids row = row := by
  rcases e : deletable pubkey ids row with - | -
  · exact Or.inr ⟨rfl, by rw [markRow, e, if_neg Bool.false_ne_true]⟩
  · exact Or.inl ⟨rfl, by rw [markRow, e, if_pos rfl]⟩

theorem later_markRow : Later row (markRow now pubkey ids row) := by
  rcases markRow_cases now pubkey ids row with ⟨hdel, heq⟩ | ⟨-, heq⟩
  · rw [heq]
    exact .deleted now (deletable_iff.mp hdel).2.2
  · rw [heq]
    exact .kept

/-- Marking some rows of a list one after the other marks each of them once:
a marked row is not among those that are still to be marked. -/
theorem events_markDeleted (targets : List EventRow) (htargets : ∀ row ∈ targets, row.deletedAt = none)
    (db : Database) : (markDeleted now targets db).events =
      db.events.map fun row => if row ∈ targets then { row with deletedAt := some now } else row := by
  induction targets generalizing db with
  | nil => simp [markDeleted]
  | cons target targets ih =>
      have hstep : markDeleted now (target :: targets) db =
          markDeleted now targets (db.change (.update target { target with deletedAt := some now })) :=
        rfl
      rw [hstep, ih fun row hrow => htargets row (List.mem_cons_of_mem _ hrow)]
      simp only [Database.change_events, Change.apply, List.map_map]
      refine List.map_congr_left fun row _ => ?_
      simp only [Function.comp_apply, List.mem_cons]
      by_cases heq : row = target
      · have hnot : ({ target with deletedAt := some now } : EventRow) ∉ targets := by
          intro hmem
          have hnone := htargets _ (List.mem_cons_of_mem _ hmem)
          cases hnone
        rw [if_pos heq, if_neg hnot, if_pos (Or.inl heq), heq]
      · rw [if_neg heq]
        by_cases hmem : row ∈ targets
        · rw [if_pos hmem, if_pos (Or.inr hmem)]
        · rw [if_neg hmem, if_neg (not_or.mpr ⟨heq, hmem⟩)]

/-- **`deleteByPubkeyAndIds`** fails and changes nothing, or marks the rows
that its condition selects. -/
theorem deleteByPubkeyAndIds_cases (fault : Option DbError) (now : ℕ) (pubkey : String)
    (ids : List String) (db : Database) :
    (deleteByPubkeyAndIds fault now pubkey ids db).2 = db ∨
      (deleteByPubkeyAndIds fault now pubkey ids db).2.events
        = db.events.map (markRow now pubkey ids) := by
  rcases fault with - | e
  · refine Or.inr ?_
    simp only [deleteByPubkeyAndIds]
    rw [events_markDeleted _ fun row hrow => (deletable_iff.mp (List.mem_filter.mp hrow).2).2.2]
    refine List.map_congr_left fun row hrow => ?_
    simp only [List.mem_filter, hrow, true_and, markRow]
  · exact Or.inl rfl

/-- **`create`** changes nothing, or appends a row that clashes with no
other. -/
theorem create_cases (S : Schema) (fault : Option DbError) (now : ℕ) (event : IncomingEvent)
    (db : Database) :
    create S fault now event db = (0, db) ∨
      create S fault now event db = (1, db.change (.insert (insertRow now event))) ∧
        ∀ u ∈ S.enforced, ∀ r ∈ db.events, ¬ u.Clash r (insertRow now event) := by
  simp only [create, insert, guarded]
  rcases fault <|> (insertRow now event).columnError with - | e
  · rcases insertIgnore_cases S.enforced (insertRow now event) db.events with ⟨hc, hno⟩ | ⟨hc, -⟩
    · refine Or.inr ⟨?_, hno⟩
      simp only [hc, Statement.exec, Change.rowCount]
    · refine Or.inl ?_
      simp only [hc, Statement.exec, Change.rowCount, Database.change_none]
  · exact Or.inl rfl

/-- **`upsert`** raises an error, adds a row, replaces a row of the same
address, or leaves that row as it is. -/
theorem upsert_results (S : Schema) (fault : Option DbError) (now : ℕ) (event : IncomingEvent)
    (db : Database) :
    (∃ e, upsert S fault now event db = (.error e, db)) ∨
    upsert S fault now event db = (.ok 1, db.change (.insert (upsertRow now event))) ∨
    (∃ old ∈ db.events, old.eventPubkey = toBuffer event.pubkey ∧ old.eventKind = event.kind ∧
      upsert S fault now event db =
        (.ok 1, db.change (.update old (mergeRow (upsertRow now event) old)))) ∨
    upsert S fault now event db = (.ok 0, db) := by
  simp only [upsert, upsertStatement, guarded]
  rcases fault <|> (upsertRow now event).columnError with - | e
  · rcases ha : S.infer addressColumns replaceableKinds with - | arbiter
    · exact Or.inl ⟨_, rfl⟩
    · have hfound := List.find?_some ha
      simp only [decide_eq_true_eq] at hfound
      rcases hu : Tables.upsert S.enforced arbiter.toUniqueIndex
          (fun old => old.eventCreatedAt < (upsertRow now event).eventCreatedAt)
          (mergeRow (upsertRow now event)) (upsertRow now event) db.events with constraint | c
      · exact Or.inl ⟨.uniqueViolation constraint, by simp only [hu, Statement.exec]⟩
      · simp only [hu, Statement.exec]
        rcases upsert_cases hu with ⟨rfl, -⟩ | ⟨old, hold, hclash, -, rfl, -⟩ | ⟨rfl, -⟩
        · exact Or.inr (Or.inl rfl)
        · obtain ⟨hpubkey, hkind, -⟩ := address_of_clash hfound.1 hclash
          exact Or.inr (Or.inr (Or.inl ⟨old, hold, hpubkey, hkind, rfl⟩))
        · exact Or.inr (Or.inr (Or.inr rfl))
  · exact Or.inl ⟨e, rfl⟩

end

/-! ### What a handler may still do -/

namespace Traffic

open Interleaving

variable {R : Runtime}

/-- The id and the signature of the event are right. -/
def Valid (R : Runtime) (event : Event) : Prop :=
  isEventIdValid R event = true ∧ isEventSignatureValid R event = true

/-- The event as the strategies get it. -/
def received (R : Runtime) (event : Event) (remoteAddress : Option String) : ReceivedEvent :=
  ⟨event, remoteAddress, getEventExpiration R event⟩

/-- The rest of a client's handler: it has refused the event, passed an
ephemeral one on or given up, or it goes on with one of its operations. -/
inductive Rest (R : Runtime) : Message → Handler Answer → Prop
  | refused {event remoteAddress} (message : String) :
      Rest R (.event event remoteAddress) (.ret (.emitted [.message event.id false message]))
  | relayed {event remoteAddress} :
      Valid R event → eventStrategyFactory event = .ephemeral →
      Rest R (.event event remoteAddress)
        (.ret (.emitted [.message event.id true "", .broadcast event]))
  | ended {message} : Rest R message (.ret .ended)
  | checking {event remoteAddress k} :
      (∀ r, Rest R (.event event remoteAddress) (k r)) →
      Rest R (.event event remoteAddress) (.op (.check event) k)
  | deleting {event remoteAddress k} :
      Valid R event → event.isDeleteEvent = true →
      (∀ r, Rest R (.event event remoteAddress) (k r)) →
      Rest R (.event event remoteAddress)
        (.op (.deleteByPubkeyAndIds event.pubkey (eventIdsToDelete event)) k)
  | creating {event remoteAddress k} :
      Valid R event → addressOf event = none → eventStrategyFactory event ≠ .ephemeral →
      (∀ count, k count = .ret (.emitted (commandResult event count))) →
      Rest R (.event event remoteAddress)
        (.op (.create ((received R event remoteAddress).incoming none)) k)
  | upserting {event remoteAddress k} :
      Valid R event → (addressOf event).isSome →
      (∀ count, k (.ok count) = .ret (.emitted (commandResult event count))) →
      (∀ e, ∃ message, k (.error e) = .ret (.emitted [.message event.id false message])) →
      Rest R (.event event remoteAddress)
        (.op (.upsert ((received R event remoteAddress).incoming (attached event))) k)
  | finding {filters k} :
      (∀ e, k (.error e) = .ret .ended) →
      (∀ rows, k (.ok rows) = .ret (.sent (sendable filters rows))) →
      Rest R (.req filters) (.op (.findByFilters filters) k)

/-- The messages of clients. -/
def Message.IsClient : Message → Prop
  | .event _ _ => True
  | .req _ => True
  | .mirrored _ _ => False
  | .notification _ => False

/-- What the message handler makes of the end of a strategy. -/
def reply (event : Event) : Except DbError (List Emit) → Handler Answer
  | .ok emits => .ret (.emitted emits)
  | .error _ => .ret (.emitted [.message event.id false "error: unable to process event"])

theorem rest_executeDefault {event : Event} {remoteAddress : Option String} (hvalid : Valid R event)
    (haddr : addressOf event = none) (hstrategy : eventStrategyFactory event ≠ .ephemeral) :
    Rest R (.event event remoteAddress)
      ((executeDefault (received R event remoteAddress)).bind (reply event)) := by
  simp only [executeDefault, perform, Prog.bind_eq, Prog.perform_bind, Prog.pure_eq, Prog.op_bind,
    Prog.ret_bind]
  exact .creating hvalid haddr hstrategy fun count => rfl

/-- What the strategies may do. -/
theorem rest_execute {event : Event} {remoteAddress : Option String} (hvalid : Valid R event) :
    Rest R (.event event remoteAddress)
      ((execute (received R event remoteAddress)).bind (reply event)) := by
  have hevent : (received R event remoteAddress).toEvent = event := rfl
  rcases hs : eventStrategyFactory event with - | - | - | - | -
  · -- replaceable
    have hattached : attached event = none := by simp [attached, hs]
    simp only [execute, hevent, hs, executeReplaceable, perform, Prog.bind_eq, Prog.perform_bind,
      Prog.op_bind]
    rw [← hattached]
    refine .upserting hvalid (by simp [addressOf, hs]) (fun count => rfl) fun e => ?_
    dsimp only
    split_ifs
    · exact ⟨_, rfl⟩
    · exact ⟨_, rfl⟩
  · -- ephemeral
    simp only [execute, hevent, hs, executeEphemeral, Prog.pure_eq, Prog.ret_bind]
    exact .relayed hvalid hs
  · -- a deletion: the update, if it names events, and then the insert of the event itself
    have hcreate : Rest R (.event event remoteAddress)
        ((executeDefault (received R event remoteAddress)).bind (reply event)) :=
      rest_executeDefault hvalid (by rw [addressOf, hs]) (by rw [hs]; exact Strategy.noConfusion)
    simp only [execute, hevent, hs, executeDelete]
    split
    · exact hcreate
    · simp only [perform, Prog.bind_eq, Prog.perform_bind, Prog.op_bind]
      refine .deleting hvalid ?_ fun r => ?_
      · simp only [eventStrategyFactory] at hs
        split_ifs at hs with _ _ hdelete
        exact hdelete
      · rcases r with e | count
        · exact .refused _
        · exact hcreate
  · -- parameterized replaceable
    have hattached : attached event = some (deduplicationTag event) := by simp [attached, hs]
    simp only [execute, hevent, hs, executeParameterizedReplaceable, perform, Prog.bind_eq,
      Prog.perform_bind, Prog.op_bind]
    rw [hevent, ← hattached]
    exact .upserting hvalid (by simp [addressOf, hs]) (fun count => rfl) fun e => ⟨_, rfl⟩
  · -- everything else
    simp only [execute, hevent, hs]
    exact rest_executeDefault hvalid (by rw [addressOf, hs]) (by rw [hs]; exact Strategy.noConfusion)

/-- **A client's handler** does nothing else. -/
theorem rest_handle {message : Message} (h : message.IsClient) : Rest R message (handle R message) := by
  rcases message with ⟨event, remoteAddress⟩ | filters | ⟨filters, event⟩ | event
  · simp only [handle, handleEventMessage]
    split
    · exact .refused _
    · next hid =>
      split
      · exact .refused _
      · next hsignature =>
        have hvalid : Valid R event := ⟨by simpa using hid, by simpa using hsignature⟩
        simp only [perform, Prog.bind_eq, Prog.perform_bind, Prog.pure_eq]
        refine .checking fun r => ?_
        rcases r with - | reason | -
        · exact rest_execute hvalid
        · exact .refused reason
        · exact .ended
  · exact .finding (fun e => rfl) fun rows => rfl
  · exact h.elim
  · exact h.elim

end Traffic

end NostrMesh.Relay
