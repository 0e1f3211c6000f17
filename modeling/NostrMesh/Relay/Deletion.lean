/-
NostrMesh/Relay/Deletion.lean

Who can mark a stored event as deleted, and what a mark is worth.

Of all handlers, only that of a valid deletion event issues an update of
`deleted_at` (`mayIssue_handle`), and the update marks the rows that name its
author and that it names by an `e` tag: this is `deleted_by_author`, for every
schema and every kind of traffic.

On the flat table a mark is final for the event that it hit.  A later row
with the id of a marked row is that row (`StoreInv.eq_of_deleted`): to take
its place, an event has to be newer than the marked one, and events of one id
are of one time.  So no handler that answers later shows the event
(`deleted_stays_gone`).
-/
import NostrMesh.Relay.StoreInvariant

namespace NostrMesh.Relay

open Tables

/-! ### Which statements mark rows -/

section

variable {S : Schema} {fault : Option DbError} {now : ℕ} {event : IncomingEvent} {db : Database}

/-- `create` marks no row. -/
theorem mem_of_deleted_create {row : EventRow}
    (hrow : row ∈ (create S fault now event db).2.events) (hdeleted : row.deletedAt ≠ none) :
    row ∈ db.events := by
  rcases create_cases S fault now event db with hsame | ⟨hinsert, -⟩
  · rwa [hsame] at hrow
  · rw [hinsert] at hrow
    rcases List.mem_append.mp hrow with hold | hnew
    · exact hold
    · rw [List.mem_singleton.mp hnew] at hdeleted
      exact absurd rfl hdeleted

/-- `upsert` marks no row; a row that it writes is not marked. -/
theorem mem_of_deleted_upsert {row : EventRow}
    (hrow : row ∈ (upsert S fault now event db).2.events) (hdeleted : row.deletedAt ≠ none) :
    row ∈ db.events := by
  rcases upsert_results S fault now event db with ⟨e, hresult⟩ | hresult |
    ⟨old, hold, -, -, hresult⟩ | hresult
  · rwa [hresult] at hrow
  · rw [hresult] at hrow
    rcases List.mem_append.mp hrow with hmem | hnew
    · exact hmem
    · rw [List.mem_singleton.mp hnew] at hdeleted
      exact absurd rfl hdeleted
  · rw [hresult] at hrow
    rcases (mem_apply_update hold).mp hrow with rfl | ⟨hmem, -⟩
    · exact absurd rfl hdeleted
    · exact hmem
  · rwa [hresult] at hrow

end

/-- The event names the row: the row is of its author, and one of its `e`
tags has the row's id. -/
def Names (event : Event) (row : EventRow) : Prop :=
  row.eventPubkey = toBuffer event.pubkey ∧
    ∃ id rest, "e" :: id :: rest ∈ event.tags ∧ isValidETag ("e" :: id :: rest) = true ∧
      toBuffer id = row.eventId

theorem deletable_iff_names {event : Event} {row : EventRow} :
    deletable event.pubkey (eventIdsToDelete event) row = true ↔
      Names event row ∧ row.deletedAt = none := by
  have hmem : row.eventId ∈ (eventIdsToDelete event).map toBuffer ↔
      ∃ id rest, "e" :: id :: rest ∈ event.tags ∧ isValidETag ("e" :: id :: rest) = true ∧
        toBuffer id = row.eventId := by
    simp only [eventIdsToDelete, List.mem_map, List.mem_filterMap, Option.ite_none_right_eq_some]
    constructor
    · rintro ⟨id, ⟨tag, htag, hvalid, hid⟩, heq⟩
      rcases tag with - | ⟨name, - | ⟨value, rest⟩⟩
      · simp at hid
      · simp at hid
      · obtain rfl : value = id := by simpa using hid
        have hname : name = "e" := by
          by_contra hne
          simp [isValidETag, hne] at hvalid
        subst hname
        exact ⟨value, rest, htag, hvalid, heq⟩
    · rintro ⟨id, rest, htag, hvalid, heq⟩
      exact ⟨id, ⟨_, htag, hvalid, rfl⟩, heq⟩
  rw [deletable_iff, hmem, Names, and_assoc]

namespace Traffic

open Interleaving

variable {ι : Type*} {R : Runtime} {messages : ι → Message}
variable {c c' : Pool Op Res Database Answer ι}

/-! ### Only the author deletes -/

/-- A handler issues an update of `deleted_at` only for a deletion event of a
client. -/
def MayIssue (R : Runtime) (message : Message) : Op → Prop
  | .deleteByPubkeyAndIds pubkey ids => ∃ event remoteAddress,
      message = .event event remoteAddress ∧ Valid R event ∧ event.isDeleteEvent = true ∧
        pubkey = event.pubkey ∧ ids = eventIdsToDelete event
  | _ => True

theorem Rest.mayIssue {message : Message} {p : Handler Answer} (h : Rest R message p) :
    p.All (MayIssue R message) := by
  induction h with
  | refused message => exact trivial
  | relayed hvalid hstrategy => exact trivial
  | ended => exact trivial
  | checking hk ih => exact ⟨trivial, ih⟩
  | deleting hvalid hdelete hk ih => exact ⟨⟨_, _, rfl, hvalid, hdelete, rfl, rfl⟩, ih⟩
  | creating hvalid haddr hstrategy hk =>
      refine ⟨trivial, fun count => ?_⟩
      rw [hk count]
      exact trivial
  | upserting hvalid haddr hok herror =>
      refine ⟨trivial, fun r => ?_⟩
      rcases r with e | count
      · obtain ⟨message, hmessage⟩ := herror e
        rw [hmessage]
        exact trivial
      · rw [hok count]
        exact trivial
  | finding herror hok =>
      refine ⟨trivial, fun r => ?_⟩
      rcases r with e | rows
      · rw [herror e]
        exact trivial
      · rw [hok rows]
        exact trivial

/-- No other traffic deletes. -/
theorem mayIssue_handle (message : Message) : (handle R message).All (MayIssue R message) := by
  rcases message with ⟨event, remoteAddress⟩ | filters | ⟨filters, event⟩ | event
  · have hclient : (Message.event event remoteAddress).IsClient := trivial
    exact (rest_handle hclient).mayIssue
  · have hclient : (Message.req filters).IsClient := trivial
    exact (rest_handle hclient).mayIssue
  · simp only [handle, mirror]
    split
    · exact trivial
    · split
      · exact trivial
      · simp only [perform, Prog.bind_eq, Prog.perform_bind, Prog.pure_eq]
        refine ⟨trivial, fun r => ?_⟩
        rcases r with - | reason | -
        · exact ⟨trivial, fun inserted => trivial⟩
        · exact trivial
        · exact trivial
  · exact ⟨trivial, fun inserted => trivial⟩

section

variable [DecidableEq ι]

/-- **Only the author deletes**: a step after which a row is marked that was
not there before is the update of a valid deletion event.  It marks the rows
that the event names, and touches nothing else. -/
theorem deleted_by_author {S : Schema} {db db' : Database}
    (hr : PoolReaches (fun _ => eff S) (begun R messages db) c) {i : ι} {o : Op}
    {k : Res o → Handler Answer} {r : Res o} (hi : c.2 i = .op o k) (he : eff S o c.1 r db') :
    (∀ row ∈ db'.events, row.deletedAt ≠ none → row ∈ c.1.events) ∨
    ∃ event remoteAddress now, messages i = .event event remoteAddress ∧
      isEventIdValid R event = true ∧ isEventSignatureValid R event = true ∧
      event.kind = EventKinds.delete ∧
      List.Forall₂
        (fun old new =>
          (Names event old ∧ old.deletedAt = none) ∧ new = { old with deletedAt := some now } ∨
          ¬ (Names event old ∧ old.deletedAt = none) ∧ new = old)
        c.1.events db'.events := by
  -- what a handler may issue is known of all its operations at once
  have hall := (pool_invariant_of_all (P := fun i => MayIssue R (messages i)) (I := fun _ => True)
    (fun _ _ _ _ _ _ _ _ => trivial) hr (fun i => mayIssue_handle (messages i)) trivial).2 i
  rw [hi] at hall
  cases o with
  | check event =>
      obtain rfl : db' = c.1 := he
      exact Or.inl fun row hrow _ => hrow
  | create event =>
      obtain ⟨fault, now, heq⟩ := he
      obtain rfl : db' = _ := congrArg Prod.snd heq
      exact Or.inl fun row hrow hdeleted => mem_of_deleted_create hrow hdeleted
  | upsert event =>
      obtain ⟨fault, now, heq⟩ := he
      obtain rfl : db' = _ := congrArg Prod.snd heq
      exact Or.inl fun row hrow hdeleted => mem_of_deleted_upsert hrow hdeleted
  | findByFilters filters =>
      obtain ⟨rfl, -⟩ := he
      exact Or.inl fun row hrow _ => hrow
  | deleteByPubkeyAndIds pubkey ids =>
      -- only the handler of a valid deletion event issues this
      obtain ⟨event, remoteAddress, hmessage, hvalid, hdelete, rfl, rfl⟩ := hall.1
      obtain ⟨fault, now, heq⟩ := he
      have hdb : db' = _ := congrArg Prod.snd heq
      rcases deleteByPubkeyAndIds_cases fault now event.pubkey (eventIdsToDelete event) c.1 with
        hsame | hmarked
      · rw [hsame] at hdb
        rw [hdb]
        exact Or.inl fun row hrow _ => hrow
      · rw [← hdb] at hmarked
        refine Or.inr ⟨event, remoteAddress, now, hmessage, hvalid.1, hvalid.2,
          of_decide_eq_true hdelete, ?_⟩
        rw [hmarked, List.forall₂_map_right_iff]
        refine List.forall₂_same.mpr fun row _ => ?_
        rcases markRow_cases now event.pubkey (eventIdsToDelete event) row with
          ⟨hdel, hmark⟩ | ⟨hdel, hmark⟩
        · exact Or.inl ⟨deletable_iff_names.mp hdel, hmark⟩
        · refine Or.inr ⟨fun hnames => ?_, hmark⟩
          rw [deletable_iff_names.mpr hnames] at hdel
          cases hdel

end

/-! ### Deleted events stay gone -/

/-- The answer shows a client an event with this id. -/
def Answer.Shows (id : Bytes) : Answer → Prop
  | .emitted emits => ∃ event, Emit.broadcast event ∈ emits ∧ toBuffer event.id = id
  | .sent events => ∃ event ∈ events, toBuffer event.id = id
  | .ended => False

theorem broadcast_mem_commandResult {event event' : Event} {count : ℕ}
    (h : Emit.broadcast event' ∈ commandResult event count) : event' = event ∧ count ≠ 0 := by
  unfold commandResult at h
  split at h
  · simp at h
  · next hcount =>
    simp only [List.mem_cons, reduceCtorEq, Emit.broadcast.injEq, List.not_mem_nil, or_false,
      false_or] at h
    exact ⟨h, hcount⟩

theorem not_shows_refused (event : Event) (message : String) (id : Bytes) :
    ¬ (Answer.emitted [.message event.id false message]).Shows id := by
  rintro ⟨event', hmem, -⟩
  simp at hmem

section

variable {row : EventRow} {event : Event} {i : ι} {remoteAddress : Option String}

/-- A stored row with the id of a valid event holds the contents of that
event. -/
theorem StoreInv.contents_of_id (h : StoreInv R messages c) (hids : CollisionFree R messages)
    (hrow : row ∈ c.1.events) (hi : messages i = .event event remoteAddress) (hvalid : Valid R event)
    (hid : toBuffer event.id = row.eventId) :
    row.eventPubkey = toBuffer event.pubkey ∧ row.eventKind = event.kind ∧
      row.eventCreatedAt = event.createdAt ∧ row.eventDeduplication = addressOf event ∧
      eventStrategyFactory event ≠ .ephemeral := by
  obtain ⟨j, event', remoteAddress', hj, hvalid', hstrategy, hwritten, -⟩ := h.origin row hrow
  obtain ⟨hpubkey, htemplate⟩ :=
    hids.eq_of_id hj hi hvalid' hvalid (hwritten.eventId.symm.trans hid.symm)
  refine ⟨hwritten.eventPubkey.trans (congrArg _ hpubkey), hwritten.eventKind.trans (kind_congr htemplate),
    hwritten.eventCreatedAt.trans (createdAt_congr htemplate),
    hwritten.eventDeduplication.trans (addressOf_congr hpubkey htemplate), ?_⟩
  rwa [← eventStrategyFactory_congr htemplate]

/-- **A mark is final**: a later row with the id of a marked row is that row. -/
theorem StoreInv.eq_of_deleted (h : StoreInv R messages c) (h' : StoreInv R messages c')
    (hids : CollisionFree R messages) (hadvances : Advances c.1.events c'.1.events)
    (hrow : row ∈ c.1.events) (hdeleted : row.deletedAt ≠ none) {new : EventRow}
    (hnew : new ∈ c'.1.events) (hid : new.eventId = row.eventId) : new = row := by
  obtain ⟨row', hrow', hlater⟩ := hadvances row hrow
  cases hlater with
  | kept => exact uniqueIds_of_unique h'.unique new hnew row hrow' hid
  | deleted now hnone => exact absurd hnone hdeleted
  | replaced _ hpubkey hkind hdedup hne hlt =>
      -- `new` holds an event of the address, and of the time of the old row
      obtain ⟨j, event, remoteAddress, hj, hvalid, -, hwritten, -⟩ := h'.origin new hnew
      obtain ⟨hp, hk, ht, hd, -⟩ :=
        h.contents_of_id hids hrow hj hvalid (hwritten.eventId.symm.trans hid)
      have haddr : (addressOf event).isSome := by
        rw [← hd]
        exact Option.isSome_iff_ne_none.mpr hne
      have hsame : SameAddress event row' :=
        ⟨haddr, hpubkey.trans hp, hkind.trans hk, hdedup.trans hd⟩
      have heq := eq_of_sameAddress h'.unique hnew hrow' (hwritten.sameAddress haddr) hsame
      rw [← heq, hwritten.eventCreatedAt, ht] at hlt
      exact absurd hlt (lt_irrefl _)

/-- The row of a marked event, at a later time: it is there, or a newer event
has taken its address. -/
theorem StoreInv.later_of_id (h : StoreInv R messages c) (hids : CollisionFree R messages)
    (hadvances : Advances c.1.events c'.1.events) (hrow : row ∈ c.1.events)
    (hdeleted : row.deletedAt ≠ none) (hi : messages i = .event event remoteAddress)
    (hvalid : Valid R event) (hid : toBuffer event.id = row.eventId) :
    row ∈ c'.1.events ∨
      ∃ row' ∈ c'.1.events, SameAddress event row' ∧ event.createdAt < row'.eventCreatedAt := by
  obtain ⟨hp, hk, ht, hd, -⟩ := h.contents_of_id hids hrow hi hvalid hid
  obtain ⟨row', hrow', hlater⟩ := hadvances row hrow
  cases hlater with
  | kept => exact Or.inl hrow'
  | deleted now hnone => exact absurd hnone hdeleted
  | replaced _ hpubkey hkind hdedup hne hlt =>
      have haddr : (addressOf event).isSome := by
        rw [← hd]
        exact Option.isSome_iff_ne_none.mpr hne
      exact Or.inr ⟨row', hrow', ⟨haddr, hpubkey.trans hp, hkind.trans hk, hdedup.trans hd⟩, ht ▸ hlt⟩

end

/-- What a handler answers without a statement. -/
theorem StoreInv.not_shows_rest {row : EventRow} {message : Message} {a : Answer} {i : ι}
    (h : StoreInv R messages c) (hids : CollisionFree R messages) (hrow : row ∈ c.1.events)
    (hi : messages i = message) (hrest : Rest R message (.ret a)) : ¬ a.Shows row.eventId := by
  cases hrest with
  | refused message => exact not_shows_refused _ _ _
  | ended => exact id
  | relayed hvalid hstrategy =>
      rintro ⟨event, hmem, hid⟩
      simp only [List.mem_cons, reduceCtorEq, Emit.broadcast.injEq, List.not_mem_nil, or_false,
        false_or] at hmem
      subst hmem
      exact (h.contents_of_id hids hrow hi hvalid hid).2.2.2.2 hstrategy

section

variable {row : EventRow} {event : Event} {i : ι} {remoteAddress : Option String}
variable {fault : Option DbError} {now : ℕ}

/-- A marked event is not inserted again. -/
theorem StoreInv.create_of_deleted (h : StoreInv R messages c) (hids : CollisionFree R messages)
    (hadvances : Advances c.1.events c'.1.events) (hrow : row ∈ c.1.events)
    (hdeleted : row.deletedAt ≠ none) (hi : messages i = .event event remoteAddress)
    (hvalid : Valid R event) (haddr : addressOf event = none) (hid : toBuffer event.id = row.eventId) :
    (create flatSchema fault now ((received R event remoteAddress).incoming none) c'.1).1 = 0 := by
  rcases create_cases flatSchema fault now ((received R event remoteAddress).incoming none) c'.1 with
    hsame | ⟨-, hno⟩
  · rw [hsame]
  · rcases h.later_of_id hids hadvances hrow hdeleted hi hvalid hid with hmem | ⟨row', -, hsame, -⟩
    · -- the marked row is still there, and occupies the id
      have hclash : eventIdUnique.toUniqueIndex.Clash row
          (insertRow now ((received R event remoteAddress).incoming none)) :=
        clash_eventIdUnique_iff.mpr hid.symm
      exact absurd hclash (hno _ eventIdUnique_mem_enforced row hmem)
    · -- nothing takes the place of an event without an address
      rw [SameAddress, haddr] at hsame
      cases hsame.1

/-- A marked event is not upserted again. -/
theorem StoreInv.upsert_of_deleted (h : StoreInv R messages c) (h' : StoreInv R messages c')
    (hids : CollisionFree R messages) (hadvances : Advances c.1.events c'.1.events)
    (hrow : row ∈ c.1.events) (hdeleted : row.deletedAt ≠ none)
    (hi : messages i = .event event remoteAddress) (hvalid : Valid R event)
    (haddr : (addressOf event).isSome) (hid : toBuffer event.id = row.eventId) {count : ℕ}
    (hcount : (upsert flatSchema fault now
      ((received R event remoteAddress).incoming (attached event)) c'.1).1 = .ok count) : count = 0 := by
  -- the address is taken, by the marked row or by a newer event
  have hoccupied : ∃ row' ∈ c'.1.events, SameAddress event row' ∧
      event.createdAt ≤ row'.eventCreatedAt := by
    rcases h.later_of_id hids hadvances hrow hdeleted hi hvalid hid with hmem | ⟨row', hmem, hsame, hlt⟩
    · obtain ⟨hp, hk, ht, hd, -⟩ := h.contents_of_id hids hrow hi hvalid hid
      exact ⟨row, hmem, ⟨haddr, hp, hk, hd⟩, ht.ge⟩
    · exact ⟨row', hmem, hsame, hlt.le⟩
  obtain ⟨row', hmem, hsame, hle⟩ := hoccupied
  rcases upsert_flat_change (received R event remoteAddress) fault now c'.1 haddr with
    ⟨e, he⟩ | ⟨change, hchanged, hchange, -⟩
  · cases hcount.symm.trans (congrArg Prod.fst he)
  · obtain rfl : count = change.rowCount :=
      Except.ok.inj (hcount.symm.trans (congrArg Prod.fst hchanged))
    cases hchange with
    | inserted new _ hno => exact absurd hsame (hno row' hmem)
    | replaced old new hold hsameOld hlt _ =>
        rw [eq_of_sameAddress h'.unique hold hmem hsameOld hsame] at hlt
        exact absurd hlt (not_lt.mpr hle)
    | kept old _ _ _ => rfl

/-- **The last step of a handler** does not show a marked event. -/
theorem StoreInv.not_shows (h : StoreInv R messages c) (h' : StoreInv R messages c')
    (hids : CollisionFree R messages) (hadvances : Advances c.1.events c'.1.events)
    (hrow : row ∈ c.1.events) (hdeleted : row.deletedAt ≠ none) {o : Op} {k : Res o → Handler Answer}
    {r : Res o} {db : Database} {a : Answer} (hi : c'.2 i = .op o k) (he : eff flatSchema o c'.1 r db)
    (ha : k r = .ret a) : ¬ a.Shows row.eventId := by
  have hrest := h'.rest_of_op hi
  generalize hm : messages i = message at hrest
  cases hrest with
  | checking hk =>
      have hret := hk r
      rw [ha] at hret
      exact h.not_shows_rest hids hrow hm hret
  | deleting hvalid hdelete hk =>
      have hret := hk r
      rw [ha] at hret
      exact h.not_shows_rest hids hrow hm hret
  | creating hvalid haddr hstrategy hk =>
      obtain ⟨fault, now, heq⟩ := he
      obtain rfl := Prog.ret.inj (ha.symm.trans (hk r))
      rintro ⟨event', hmem, hid⟩
      obtain ⟨rfl, hcount⟩ := broadcast_mem_commandResult hmem
      have hzero : r = _ := congrArg Prod.fst heq
      rw [h.create_of_deleted hids hadvances hrow hdeleted hm hvalid haddr hid] at hzero
      exact hcount hzero
  | upserting hvalid haddr hok herror =>
      obtain ⟨fault, now, heq⟩ := he
      rcases r with e | count
      · obtain ⟨message, hmessage⟩ := herror e
        obtain rfl := Prog.ret.inj (ha.symm.trans hmessage)
        exact not_shows_refused _ _ _
      · obtain rfl := Prog.ret.inj (ha.symm.trans (hok count))
        rintro ⟨event', hmem, hid⟩
        obtain ⟨rfl, hcount⟩ := broadcast_mem_commandResult hmem
        exact hcount (h.upsert_of_deleted h' hids hadvances hrow hdeleted hm hvalid haddr hid
          (congrArg Prod.fst heq).symm)
  | finding herror hok =>
      obtain ⟨-, fault, order, hfound⟩ := he
      rcases r with e | rows
      · obtain rfl := Prog.ret.inj (ha.symm.trans (herror e))
        exact id
      · obtain rfl := Prog.ret.inj (ha.symm.trans (hok rows))
        rintro ⟨event, hmem, hid⟩
        obtain ⟨⟨new, hnew, hlive, rfl⟩, -⟩ := mem_sendable.mp hmem
        rw [findByFilters_ok hfound.symm] at hnew
        have hid' : new.eventId = row.eventId := by
          rw [← hid]
          exact (Bytes.ofHex_toHex new.eventId).symm
        -- the row that was found would be the marked one
        rw [h.eq_of_deleted h' hids hadvances hrow hdeleted (mem_events_of_mem_runQuery hnew) hid']
          at hlive
        exact hdeleted hlive

end

variable [DecidableEq ι]

/-- **Deleted events stay gone**: once a row is marked, no handler that has
not answered yet shows the event that the row held then. -/
theorem deleted_stays_gone (hclients : ∀ i, (messages i).IsClient) (hids : CollisionFree R messages)
    (hr : PoolReaches (fun _ => eff flatSchema) (begun R messages ⟨[], []⟩) c) {row : EventRow}
    (hrow : row ∈ c.1.events) (hdeleted : row.deletedAt ≠ none)
    (hr' : PoolReaches (fun _ => eff flatSchema) c c') {i : ι} (hi : ∀ a, c.2 i ≠ .ret a) {a : Answer}
    (ha : c'.2 i = .ret a) : ¬ a.Shows row.eventId := by
  have h := ((storeInv_begun hclients).of_reaches hr).1
  -- on the run since the mark: the handler answers in its last step, or has answered before
  induction hr' with
  | refl => exact absurd ha (hi a)
  | tail hreaches hstep ih =>
      obtain ⟨h', hadvances⟩ := h.of_reaches hreaches
      cases hstep with
      | @step db db' p o k r j hj he =>
          by_cases hij : i = j
          · subst hij
            simp only [Function.update_self] at ha
            exact h.not_shows h' hids hadvances hrow hdeleted hj he ha
          · simp only [Function.update_of_ne hij] at ha
            exact ih ha

/-! ### A profile that its author deletes -/

def profile : Event := profileA.event.toEvent

/-- The deletion of the profile. -/
def deletion : Event where
  id := "accac9ac042ed8aee7f91c71938b05eea47e40cf3da12657cd703f98576e52d0"
  pubkey := profile.pubkey
  createdAt := 1700000001
  kind := 5
  tags := [["e", profile.id]]
  content := ""
  sig := "d2cc0e68018c89d72f7822f0be41ce8469e76bcc0c31b4688e8a5536bdcee699" ++
    "3e2185126368b81dd0bcb522be9f8c3ab50b6b28f2c19e40db572360795b9266"

inductive Client
  | publisher
  | deleter
  | republisher
  | reader
  deriving DecidableEq

/-- The profile is published, deleted and published again, and a client asks
for it. -/
def deletionTraffic : Client → Message
  | .publisher => .event profile none
  | .deleter => .event deletion none
  | .republisher => .event profile none
  | .reader => .req [⟨none, none, some [0], none, none, none, []⟩]

def deletionRuntime : Runtime := runtimeFor [profile, deletion]

/-- The profile is stored. -/
def afterPublication : Pool Op Res Database Answer Client :=
  runAlone .publisher (begun deletionRuntime deletionTraffic ⟨[], []⟩)

/-- The profile is marked as deleted. -/
def afterDeletion : Pool Op Res Database Answer Client := runAlone .deleter afterPublication

/-- Everybody has an answer. -/
def afterAll : Pool Op Res Database Answer Client :=
  runAlone .reader (runAlone .republisher afterDeletion)

theorem reaches_runAlone_eff (i : Client) (c : Pool Op Res Database Answer Client) :
    PoolReaches (fun _ => eff flatSchema) c (runAlone i c) :=
  (reaches_runAlone i c).mono fun _ _ _ _ _ => eff_of_faultless

theorem valid_profile : Valid deletionRuntime profile := ⟨by decide +kernel, rfl⟩

theorem valid_deletion : Valid deletionRuntime deletion := ⟨by decide +kernel, rfl⟩

theorem collisionFree_deletionTraffic : CollisionFree deletionRuntime deletionTraffic := by
  have hcases : ∀ i event remoteAddress, deletionTraffic i = .event event remoteAddress →
      event = profile ∨ event = deletion := by
    intro i event remoteAddress hi
    cases i with
    | publisher => cases hi; exact Or.inl rfl
    | deleter => cases hi; exact Or.inr rfl
    | republisher => cases hi; exact Or.inl rfl
    | reader => cases hi
  have hdistinct : toBuffer (deletionRuntime.eventHash profile.pubkey profile.template) ≠
      toBuffer (deletionRuntime.eventHash deletion.pubkey deletion.template) := by
    decide +kernel
  intro i j event remoteAddress event' remoteAddress' hi hj hhash
  rcases hcases i event remoteAddress hi with rfl | rfl
  · rcases hcases j event' remoteAddress' hj with rfl | rfl
    · exact ⟨rfl, rfl⟩
    · exact absurd hhash hdistinct
  · rcases hcases j event' remoteAddress' hj with rfl | rfl
    · exact absurd hhash.symm hdistinct
    · exact ⟨rfl, rfl⟩

/-- The handler of a valid event begins with its checks. -/
theorem handle_of_valid {event : Event} (remoteAddress : Option String) (hvalid : Valid R event) :
    ∃ k, handle R (.event event remoteAddress) = .op (.check event) k ∧
      k .passed = (execute (received R event remoteAddress)).bind (reply event) := by
  simp only [handle, handleEventMessage, hvalid.1, hvalid.2, Bool.not_true, Bool.false_eq_true,
    if_false, perform, Prog.bind_eq, Prog.perform_bind]
  exact ⟨_, rfl, rfl⟩

/-- A deletion event goes on with the update. -/
theorem execute_of_delete (R : Runtime) (event : Event) (remoteAddress : Option String)
    (hs : eventStrategyFactory event = .delete) (hids : (eventIdsToDelete event).isEmpty = false) :
    ∃ k, (execute (received R event remoteAddress)).bind (reply event) =
      .op (.deleteByPubkeyAndIds event.pubkey (eventIdsToDelete event)) k := by
  have hevent : (received R event remoteAddress).toEvent = event := rfl
  simp only [execute, hevent, hs, executeDelete, hids, Bool.false_eq_true, if_false, perform,
    Prog.bind_eq, Prog.perform_bind, Prog.op_bind]
  exact ⟨_, rfl⟩

/-- The author marks the profile. -/
theorem deleted_by_author_profile : ∃ (c : Pool Op Res Database Answer Client) (db' : Database),
    c.1 = afterPublication.1 ∧ (∀ row ∈ c.1.events, row.deletedAt = none) ∧
    (∃ row ∈ db'.events, row.deletedAt ≠ none) ∧
    ((∀ row ∈ db'.events, row.deletedAt ≠ none → row ∈ c.1.events) ∨
      ∃ event remoteAddress now, deletionTraffic .deleter = .event event remoteAddress ∧
        isEventIdValid deletionRuntime event = true ∧
        isEventSignatureValid deletionRuntime event = true ∧ event.kind = EventKinds.delete ∧
        List.Forall₂
          (fun old new =>
            (Names event old ∧ old.deletedAt = none) ∧ new = { old with deletedAt := some now } ∨
            ¬ (Names event old ∧ old.deletedAt = none) ∧ new = old)
          c.1.events db'.events) := by
  obtain ⟨k, hk, hpassed⟩ := handle_of_valid none valid_deletion
  obtain ⟨k', hk'⟩ := execute_of_delete deletionRuntime deletion none (by decide +kernel)
    (by decide +kernel)
  have hchecked : eff flatSchema (.check deletion) afterPublication.1 .passed afterPublication.1 := rfl
  have hbegun : afterPublication.2 .deleter = .op (.check deletion) k :=
    (runAlone_of_ne Client.noConfusion _).trans hk
  have hstep : PoolStep (fun _ => eff flatSchema) afterPublication
      (afterPublication.1, Function.update afterPublication.2 .deleter (k .passed)) :=
    PoolStep.step Client.deleter hbegun hchecked
  have hdeletes : eff flatSchema (.deleteByPubkeyAndIds deletion.pubkey (eventIdsToDelete deletion))
      afterPublication.1
      (deleteByPubkeyAndIds none 0 deletion.pubkey (eventIdsToDelete deletion) afterPublication.1).1
      (deleteByPubkeyAndIds none 0 deletion.pubkey (eventIdsToDelete deletion) afterPublication.1).2 :=
    ⟨none, 0, rfl⟩
  refine ⟨_, _, rfl, by decide +kernel, ?_,
    deleted_by_author ((reaches_runAlone_eff _ _).tail hstep) (i := .deleter) (k := k') ?_ hdeletes⟩
  · decide +kernel
  · show Function.update afterPublication.2 Client.deleter (k .passed) Client.deleter = _
    rw [Function.update_self, hpassed, hk']

/-- The profile is gone: neither its second publication nor the query shows
it. -/
theorem deleted_stays_gone_profile :
    ∃ row ∈ afterDeletion.1.events, row.deletedAt ≠ none ∧ row.eventId = toBuffer profile.id ∧
      ∀ i, i = .republisher ∨ i = .reader → ∀ a, afterAll.2 i = .ret a → ¬ a.Shows row.eventId := by
  have hclients : ∀ i, (deletionTraffic i).IsClient := by
    intro i
    cases i <;> exact trivial
  obtain ⟨row, hrow, hdeleted, hid⟩ : ∃ row ∈ afterDeletion.1.events,
      row.deletedAt ≠ none ∧ row.eventId = toBuffer profile.id := by
    decide +kernel
  have hwaiting : ∀ i, i = .republisher ∨ i = .reader →
      afterDeletion.2 i = handle deletionRuntime (deletionTraffic i) := by
    rintro i (rfl | rfl) <;>
      exact (runAlone_of_ne Client.noConfusion _).trans (runAlone_of_ne Client.noConfusion _)
  refine ⟨row, hrow, hdeleted, hid, fun i hi a ha => ?_⟩
  refine deleted_stays_gone hclients collisionFree_deletionTraffic
    ((reaches_runAlone_eff _ _).trans (reaches_runAlone_eff _ _)) hrow hdeleted
    ((reaches_runAlone_eff _ _).trans (reaches_runAlone_eff _ _)) ?_ ha
  intro a' ha'
  replace ha' := (hwaiting i hi).symm.trans ha'
  rcases hi with rfl | rfl
  · obtain ⟨k, hk, -⟩ := handle_of_valid none valid_profile
    cases hk.symm.trans ha'
  · cases ha'

end Traffic

end NostrMesh.Relay
