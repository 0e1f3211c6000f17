/-
NostrMesh/Api/Shelf.lean

The relay as the API uses it: a shelf with one register for each hash.

As long as only this API publishes metadata events (`Shelf`), the relay's
tables stand for the registers `recordAt`.  `Shelf.publish` says that an
acknowledged metadata event is a write to the register of its hash and to no
other; `Shelf.resolve` says that `resolveMetadata` reads that register.
-/
import NostrMesh.Api.NostrClient
import NostrMesh.Blossom.Server
import NostrMesh.Lib.Register
import NostrMesh.Relay.Addresses

namespace NostrMesh.Api

open Relay Tables

variable (L : Library) (secretKeyHex : String)

/-! ### Registers -/

/-- The row stands for the record of the hash. -/
def atHash (hash : String) (row : EventRow) : Bool :=
  row.eventKind = metadataKind && row.eventDeduplication = some (.ofStrings [hash])

/-- What the relay holds for a hash: `created_at` and record. -/
def recordAt (db : Database) (hash : String) : Option (ℤ × Except String BlobMetadata) :=
  (db.events.find? (atHash hash)).map fun row =>
    (row.eventCreatedAt, decryptMetadata L row.eventContent secretKeyHex)

/-- The row holds a metadata event of this API. -/
structure IsApiRow (row : EventRow) (metadata : BlobMetadata) (event : Event) : Prop where
  rowOf : RowOf event row
  isHash : Blossom.isHash metadata.hash = true
  isFinite : metadata.uploadedAt.isFinite = true
  built : ∃ iv now, iv.length = 12 ∧
    buildMetadataEvent L iv now metadata secretKeyHex = .ok event

/-- The indexes and the trigger are in order, and the API has written every
metadata event. -/
structure Shelf (db : Database) : Prop where
  unique : Unique flatSchema.enforced db.events
  tagIndex : TagIndex db
  rows : ∀ row ∈ db.events, row.eventKind = metadataKind →
    ∃ metadata event, IsApiRow L secretKeyHex row metadata event

variable {L} {secretKeyHex} {db : Database} {row : EventRow} {metadata : BlobMetadata}
variable {event : Event} {hash : String}

/-! ### Metadata events and their rows -/

theorem addressOf_metadata (hkind : event.kind = metadataKind)
    (htags : event.tags
      = [["d", metadata.hash], ["client", "nostrmesh"], ["encrypted", "aead-v1"]]) :
    addressOf event = some (.ofStrings [metadata.hash]) := by
  have hstrategy : eventStrategyFactory event = .parameterizedReplaceable := by
    simp [eventStrategyFactory, Event.isReplaceableEvent, Event.isEphemeralEvent,
      Event.isDeleteEvent, Event.isParameterizedReplaceableEvent, hkind, metadataKind,
      EventKinds.setMetadata, EventKinds.contactList, EventKinds.channelMetadata,
      EventKinds.replaceableFirst, EventKinds.replaceableLast, EventKinds.ephemeralFirst,
      EventKinds.ephemeralLast, EventKinds.delete, EventKinds.parameterizedReplaceableFirst,
      EventKinds.parameterizedReplaceableLast]
  simp [addressOf, hstrategy, deduplicationTag, htags]

theorem addressOf_buildMetadataEvent {iv : Bytes} {now : ℤ}
    (h : buildMetadataEvent L iv now metadata secretKeyHex = .ok event) :
    addressOf event = some (.ofStrings [metadata.hash]) := by
  obtain ⟨-, hkind, -, htags, -⟩ := buildMetadataEvent_spec h
  exact addressOf_metadata hkind htags

theorem isPlain_of_isHash (h : Blossom.isHash hash = true) : ∀ c ∈ hash.toList, IsPlain c := by
  intro c hc
  simp only [Blossom.isHash, Bool.and_eq_true, List.all_eq_true] at h
  have hhex := h.2 c hc
  simp only [Bytes.isLowerHex, Bool.or_eq_true, Bool.and_eq_true, decide_eq_true_eq] at hhex
  refine ⟨?_, ?_, by omega⟩
  · rintro rfl
    exact absurd hhex (by decide)
  · rintro rfl
    exact absurd hhex (by decide)

namespace IsApiRow

variable (h : IsApiRow L secretKeyHex row metadata event)

include h

theorem eventKind : row.eventKind = metadataKind := by
  obtain ⟨iv, now, -, hbuild⟩ := h.built
  rw [h.rowOf.eventKind, (buildMetadataEvent_spec hbuild).2.1]

theorem atHash_iff : atHash hash row = true ↔ metadata.hash = hash := by
  obtain ⟨iv, now, -, hbuild⟩ := h.built
  rw [atHash, h.rowOf.eventDeduplication, addressOf_buildMetadataEvent hbuild]
  simp [h.eventKind]

theorem parse (hL : L.Lawful) : parseMetadataEvent L (toNostrEvent row) secretKeyHex = .ok metadata := by
  obtain ⟨iv, now, hiv, hbuild⟩ := h.built
  obtain ⟨hvalid, -, -, -, hcontent⟩ := buildMetadataEvent_spec hbuild
  have hkind : (toNostrEvent row).kind = metadataKind := h.eventKind
  have hrow : (toNostrEvent row).content = encryptMetadata L iv metadata secretKeyHex :=
    h.rowOf.eventContent.trans hcontent
  rw [parseMetadataEvent, if_neg (by simp [hkind]), hrow,
    decryptMetadata_encryptMetadata hL hiv hvalid h.isFinite]

theorem decrypt (hL : L.Lawful) : decryptMetadata L row.eventContent secretKeyHex = .ok metadata := by
  obtain ⟨iv, now, hiv, hbuild⟩ := h.built
  obtain ⟨hvalid, -, -, -, hcontent⟩ := buildMetadataEvent_spec hbuild
  rw [h.rowOf.eventContent, hcontent, decryptMetadata_encryptMetadata hL hiv hvalid h.isFinite]

/-- The trigger indexes the hash, and nothing else. -/
theorem mem_tagRows_iff {t : EventTagRow} :
    t ∈ tagRows row ↔ t = ⟨row.eventId, "d", metadata.hash⟩ := by
  obtain ⟨iv, now, -, hbuild⟩ := h.built
  obtain ⟨-, -, -, htags, -⟩ := buildMetadataEvent_spec hbuild
  have hplain := isPlain_of_isHash h.isHash
  have hne : metadata.hash ≠ "" := by
    intro hempty
    have hhash := h.isHash
    rw [hempty] at hhash
    exact absurd hhash (by decide)
  have hd : trimQuotes (jsonText "d") = "d" := by decide
  have hclient : ¬ (trimQuotes (jsonText "client")).toList.length = 1 := by decide
  have hencrypted : ¬ (trimQuotes (jsonText "encrypted")).toList.length = 1 := by decide
  simp only [tagRows, h.rowOf.eventTags, htags, List.filterMap_cons, List.filterMap_nil,
    List.getElem?_cons_zero, List.getElem?_cons_succ, hd, trimQuotes_jsonText hplain, hclient,
    hencrypted, false_and, if_false]
  simp [hne]

end IsApiRow

/-- All metadata events of a hash have one address: there is one secret, so
one public key. -/
theorem IsApiRow.sameAddress (h : IsApiRow L secretKeyHex row metadata event) {iv : Bytes} {now : ℤ}
    {metadata' : BlobMetadata} {event' : Event}
    (hbuild' : buildMetadataEvent L iv now metadata' secretKeyHex = .ok event')
    (hat : atHash metadata'.hash row = true) : SameAddress event' row := by
  obtain ⟨_, _, -, hbuild⟩ := h.built
  obtain ⟨-, key, pub, hkey, hpub, hevent⟩ := buildMetadataEvent_eq_ok_iff.mp hbuild
  obtain ⟨-, key', pub', hkey', hpub', hevent'⟩ := buildMetadataEvent_eq_ok_iff.mp hbuild'
  obtain rfl : key = key' := Except.ok.inj (hkey.symm.trans hkey')
  obtain rfl : pub = pub' := Except.ok.inj (hpub.symm.trans hpub')
  have hpubkey : event.pubkey = event'.pubkey := by rw [hevent, hevent']; rfl
  have haddr := addressOf_buildMetadataEvent hbuild'
  refine ⟨by simp [haddr], by rw [h.rowOf.eventPubkey, hpubkey], ?_, ?_⟩
  · rw [h.eventKind, (buildMetadataEvent_spec hbuild').2.1]
  · rw [h.rowOf.eventDeduplication, addressOf_buildMetadataEvent hbuild, haddr, h.atHash_iff.mp hat]

theorem atHash_of_sameAddress {iv : Bytes} {now : ℤ}
    (hbuild : buildMetadataEvent L iv now metadata secretKeyHex = .ok event)
    (h : SameAddress event row) : atHash metadata.hash row = true := by
  obtain ⟨-, -, hkind, hdedup⟩ := h
  rw [addressOf_buildMetadataEvent hbuild] at hdedup
  simp [atHash, hkind, hdedup, (buildMetadataEvent_spec hbuild).2.1]

/-! ### The registers -/

theorem eventKind_of_atHash (h : atHash hash row = true) : row.eventKind = metadataKind := by
  simp only [atHash, Bool.and_eq_true, decide_eq_true_eq] at h
  exact h.1

theorem Shelf.eq_of_atHash (h : Shelf L secretKeyHex db) {r s : EventRow} (hr : r ∈ db.events)
    (hs : s ∈ db.events) (hra : atHash hash r = true) (hsa : atHash hash s = true) : r = s := by
  obtain ⟨mr, er, hrow⟩ := h.rows r hr (eventKind_of_atHash hra)
  obtain ⟨ms, es, hsrow⟩ := h.rows s hs (eventKind_of_atHash hsa)
  obtain ⟨iv, now, -, hbuild⟩ := hrow.built
  obtain rfl := hrow.atHash_iff.mp hra
  exact eq_of_sameAddress h.unique hr hs (hrow.sameAddress hbuild hra) (hsrow.sameAddress hbuild hsa)

theorem recordAt_eq_none_iff :
    recordAt L secretKeyHex db hash = none ↔ ∀ row ∈ db.events, atHash hash row = false := by
  simp [recordAt]

/-- The register of a hash holds what its row says. -/
theorem Shelf.recordAt_eq (h : Shelf L secretKeyHex db) (hL : L.Lawful)
    (hrow : row ∈ db.events) (hapi : IsApiRow L secretKeyHex row metadata event) :
    recordAt L secretKeyHex db metadata.hash = some (row.eventCreatedAt, .ok metadata) := by
  have hat : atHash metadata.hash row = true := hapi.atHash_iff.mpr rfl
  rcases hf : db.events.find? (atHash metadata.hash) with - | r
  · exact absurd hat (List.find?_eq_none.mp hf row hrow)
  · have hr : atHash metadata.hash r = true := by simpa using List.find?_some hf
    obtain rfl := h.eq_of_atHash (List.mem_of_find?_eq_some hf) hrow hr hat
    simp only [recordAt, hf, Option.map_some, hapi.decrypt hL]

/-- A register that is not empty belongs to a row. -/
theorem Shelf.row_of_recordAt (h : Shelf L secretKeyHex db) (hL : L.Lawful)
    {held : ℤ × Except String BlobMetadata}
    (hheld : recordAt L secretKeyHex db hash = some held) :
    ∃ row ∈ db.events, ∃ metadata event, IsApiRow L secretKeyHex row metadata event ∧
      metadata.hash = hash ∧ held = (row.eventCreatedAt, .ok metadata) := by
  obtain ⟨row, hf, rfl⟩ := Option.map_eq_some_iff.mp hheld
  have hrow := List.mem_of_find?_eq_some hf
  have hat : atHash hash row = true := by simpa using List.find?_some hf
  obtain ⟨metadata, event, hapi⟩ := h.rows row hrow (eventKind_of_atHash hat)
  exact ⟨row, hrow, metadata, event, hapi, hapi.atHash_iff.mp hat, by rw [hapi.decrypt hL]⟩

/-- A register depends on the rows of its hash only. -/
theorem Shelf.recordAt_congr {db' : Database} (h : Shelf L secretKeyHex db)
    (h' : Shelf L secretKeyHex db') (hL : L.Lawful)
    (hrows : ∀ row, atHash hash row = true → (row ∈ db'.events ↔ row ∈ db.events)) :
    recordAt L secretKeyHex db' hash = recordAt L secretKeyHex db hash := by
  rcases hr : recordAt L secretKeyHex db hash with - | held
  · refine recordAt_eq_none_iff.mpr fun row hrow => ?_
    by_contra hat
    rw [Bool.not_eq_false] at hat
    have := recordAt_eq_none_iff.mp hr row ((hrows row hat).mp hrow)
    rw [hat] at this
    cases this
  · obtain ⟨row, hrow, metadata, event, hapi, rfl, rfl⟩ := h.row_of_recordAt hL hr
    exact h'.recordAt_eq hL ((hrows row (hapi.atHash_iff.mpr rfl)).mpr hrow) hapi

/-! ### Publishing -/

/-- The event as the relay receives it; a metadata event has no tag
`expiration`. -/
def received (event : Event) (remoteAddress : Option String) : ReceivedEvent :=
  { event with remoteAddress, expiration := none }

section

variable {iv : Bytes} {now : ℤ} {db' : Database}

/-- A row belongs to one hash. -/
theorem not_atHash_of_ne {hash' : String} (hne : hash ≠ hash') (hat : atHash hash row = true) :
    atHash hash' row = false := by
  simp only [atHash, Bool.and_eq_true, decide_eq_true_eq] at hat
  simp [atHash, hat.2, hne]

/-- When the rows of one hash have changed, the register of this hash holds
what the new row says, and the others what they held. -/
theorem Shelf.recordAt_changed (h : Shelf L secretKeyHex db) (h' : Shelf L secretKeyHex db')
    (hL : L.Lawful) (hapi : IsApiRow L secretKeyHex row metadata event) (hrow : row ∈ db'.events)
    (hothers : ∀ r, atHash metadata.hash r = false → (r ∈ db'.events ↔ r ∈ db.events)) (hash : String) :
    recordAt L secretKeyHex db' hash =
      if hash = metadata.hash then some (row.eventCreatedAt, .ok metadata)
      else recordAt L secretKeyHex db hash := by
  split
  · next heq => rw [heq, h'.recordAt_eq hL hrow hapi]
  · next hne => exact h.recordAt_congr h' hL fun r hat => hothers r (not_atHash_of_ne hne hat)

theorem Shelf.inserted (h : Shelf L secretKeyHex db) (hL : L.Lawful)
    (hapi : IsApiRow L secretKeyHex row metadata event)
    (hunique : Unique flatSchema.enforced (db.change (.insert row)).events) :
    Shelf L secretKeyHex (db.change (.insert row)) ∧ ∀ hash,
      recordAt L secretKeyHex (db.change (.insert row)) hash =
        if hash = metadata.hash then some (row.eventCreatedAt, .ok metadata)
        else recordAt L secretKeyHex db hash := by
  have hmem : ∀ r, r ∈ (db.change (.insert row)).events ↔ r ∈ db.events ∨ r = row := by
    simp [Change.apply]
  have hshelf : Shelf L secretKeyHex (db.change (.insert row)) := by
    refine ⟨hunique, h.tagIndex.insert, fun r hr hkind => ?_⟩
    rcases (hmem r).mp hr with hr | rfl
    · exact h.rows r hr hkind
    · exact ⟨metadata, event, hapi⟩
  refine ⟨hshelf, h.recordAt_changed hshelf hL hapi ((hmem row).mpr (Or.inr rfl)) fun r hnot => ?_⟩
  rw [hmem]
  refine or_iff_left ?_
  rintro rfl
  rw [hapi.atHash_iff.mpr rfl] at hnot
  cases hnot

theorem Shelf.replaced (h : Shelf L secretKeyHex db) (hL : L.Lawful) {old : EventRow}
    (hold : old ∈ db.events) (hat : atHash metadata.hash old = true)
    (hapi : IsApiRow L secretKeyHex row metadata event)
    (hunique : Unique flatSchema.enforced (db.change (.update old row)).events) :
    Shelf L secretKeyHex (db.change (.update old row)) ∧ ∀ hash,
      recordAt L secretKeyHex (db.change (.update old row)) hash =
        if hash = metadata.hash then some (row.eventCreatedAt, .ok metadata)
        else recordAt L secretKeyHex db hash := by
  have hmem : ∀ r, r ∈ (db.change (.update old row)).events ↔ r = row ∨ r ∈ db.events ∧ r ≠ old :=
    fun r => mem_apply_update hold
  have hshelf : Shelf L secretKeyHex (db.change (.update old row)) := by
    refine ⟨hunique, h.tagIndex.update (uniqueIds_of_unique h.unique) hold, fun r hr hkind => ?_⟩
    rcases (hmem r).mp hr with rfl | ⟨hr, -⟩
    · exact ⟨metadata, event, hapi⟩
    · exact h.rows r hr hkind
  refine ⟨hshelf, h.recordAt_changed hshelf hL hapi ((hmem row).mpr (Or.inl rfl)) fun r hnot => ?_⟩
  -- both the old and the new row belong to the hash
  have hne : ∀ s, atHash metadata.hash s = true → r ≠ s := by
    rintro s hs rfl
    rw [hs] at hnot
    cases hnot
  rw [hmem, or_iff_right (hne row (hapi.atHash_iff.mpr rfl)), and_iff_left (hne old hat)]

/-- The shelf after an upsert, register by register. -/
theorem Shelf.upserted (h : Shelf L secretKeyHex db) (hL : L.Lawful)
    (hhash : Blossom.isHash metadata.hash = true) (hfinite : metadata.uploadedAt.isFinite = true)
    (hiv : iv.length = 12) (hbuild : buildMetadataEvent L iv now metadata secretKeyHex = .ok event)
    (hunique : Unique flatSchema.enforced db'.events) (hup : Upserted event db db') :
    Shelf L secretKeyHex db' ∧ ∀ hash, recordAt L secretKeyHex db' hash =
      if hash = metadata.hash then Registers.write (recordAt L secretKeyHex db hash) (now, .ok metadata)
      else recordAt L secretKeyHex db hash := by
  have hnow : event.createdAt = now := (buildMetadataEvent_spec hbuild).2.2.1
  have hnew : ∀ new, RowOf event new → IsApiRow L secretKeyHex new metadata event :=
    fun new hrow => ⟨hrow, hhash, hfinite, iv, now, hiv, hbuild⟩
  -- the rows of the hash are those of the event's address
  have haddress : ∀ r ∈ db.events, SameAddress event r ↔ atHash metadata.hash r = true := by
    intro r hr
    refine ⟨atHash_of_sameAddress hbuild, fun hat => ?_⟩
    obtain ⟨m, e, hapi⟩ := h.rows r hr (eventKind_of_atHash hat)
    exact hapi.sameAddress hbuild hat
  have hheld : ∀ old ∈ db.events, SameAddress event old → ∃ m,
      recordAt L secretKeyHex db metadata.hash = some (old.eventCreatedAt, .ok m) := by
    intro old hold hsame
    have hat := (haddress old hold).mp hsame
    obtain ⟨m, e, hapi⟩ := h.rows old hold (eventKind_of_atHash hat)
    exact ⟨m, hapi.atHash_iff.mp hat ▸ h.recordAt_eq hL hold hapi⟩
  cases hup with
  | inserted new hrow hfree =>
      have hnone : recordAt L secretKeyHex db metadata.hash = none := by
        refine recordAt_eq_none_iff.mpr fun r hr => ?_
        exact Bool.eq_false_iff.mpr fun hat => hfree r hr ((haddress r hr).mpr hat)
      obtain ⟨hshelf, hrecords⟩ := h.inserted hL (hnew new hrow) hunique
      refine ⟨hshelf, fun hash => (hrecords hash).trans (ite_congr rfl (fun heq => ?_) fun _ => rfl)⟩
      rw [heq, hnone, Registers.write_none, hrow.eventCreatedAt, hnow]
  | replaced old new hold hsame hlt hrow =>
      obtain ⟨m, hm⟩ := hheld old hold hsame
      obtain ⟨hshelf, hrecords⟩ :=
        h.replaced hL hold ((haddress old hold).mp hsame) (hnew new hrow) hunique
      refine ⟨hshelf, fun hash => (hrecords hash).trans (ite_congr rfl (fun heq => ?_) fun _ => rfl)⟩
      rw [heq, hm, Registers.write_of_lt (by simpa [hnow] using hlt), hrow.eventCreatedAt, hnow]
  | kept old hold hsame hle =>
      obtain ⟨m, hm⟩ := hheld old hold hsame
      refine ⟨h, fun hash => ?_⟩
      split
      · next heq => rw [heq, hm, Registers.write_of_le (by simpa [hnow] using hle)]
      · rfl

/-- **A metadata event is a write to the register of its hash**, unless the
relay refuses it. -/
theorem Shelf.publish (h : Shelf L secretKeyHex db) (hL : L.Lawful)
    (hhash : Blossom.isHash metadata.hash = true) (hfinite : metadata.uploadedAt.isFinite = true)
    (hiv : iv.length = 12) (hbuild : buildMetadataEvent L iv now metadata secretKeyHex = .ok event) (F : Faults)
    (firstSeen : ℕ) (remoteAddress : Option String) {emits : List Emit}
    (hhandled : handleEvent flatSchema F firstSeen (received event remoteAddress) db = (emits, db')) :
    Shelf L secretKeyHex db' ∧ ((¬ Acknowledged event emits ∧ db' = db) ∨
      (Acknowledged event emits ∧ ∀ hash, recordAt L secretKeyHex db' hash =
        if hash = metadata.hash then
          Registers.write (recordAt L secretKeyHex db hash) (now, .ok metadata)
        else recordAt L secretKeyHex db hash)) := by
  have haddr : (addressOf (received event remoteAddress).toEvent).isSome := by
    rw [show (received event remoteAddress).toEvent = event from rfl,
      addressOf_buildMetadataEvent hbuild]
    rfl
  obtain ⟨hcases, hunique⟩ := handleEvent_addressed F firstSeen db haddr
  rw [hhandled] at hcases hunique
  rcases hcases with ⟨hrefused, hsame⟩ | ⟨hack, hup⟩
  · subst hsame
    exact ⟨h, Or.inl ⟨hrefused, rfl⟩⟩
  · obtain ⟨hshelf, hrecord⟩ := h.upserted hL hhash hfinite hiv hbuild (hunique h.unique) hup
    exact ⟨hshelf, Or.inr ⟨hack, hrecord⟩⟩

end

/-! ### Resolving -/

/-- The API's filter as the relay gets it. -/
def Filter.toSubscription (filter : Filter) : SubscriptionFilter :=
  tagQuery filter.kinds 'd' filter.dTags filter.limit

/-- What `resolveMetadata` makes of a register. -/
def reading (held : Option (ℤ × Except String BlobMetadata)) :
    Except String (Option BlobMetadata) :=
  match held with
  | none => .ok none
  | some (_, .ok metadata) => .ok (some metadata)
  | some (_, .error e) => .error e

/-- The rows that the query for a hash selects. -/
theorem Shelf.mem_select_iff (h : Shelf L secretKeyHex db) :
    row ∈ select db (metadataFilterByHash hash).toSubscription ↔
      row ∈ db.events ∧ atHash hash row = true := by
  have hname : "d".toList = ['d'] := by decide
  refine (mem_select_tagQuery h.tagIndex (uniqueIds_of_unique h.unique)).trans ?_
  constructor
  · rintro ⟨hrow, hkind, t, ht, -, hvalue⟩
    obtain ⟨metadata, event, hapi⟩ := h.rows row hrow (List.mem_singleton.mp hkind)
    rw [hapi.mem_tagRows_iff.mp ht] at hvalue
    exact ⟨hrow, hapi.atHash_iff.mpr (List.mem_singleton.mp hvalue)⟩
  · rintro ⟨hrow, hat⟩
    have hkind := eventKind_of_atHash hat
    obtain ⟨metadata, event, hapi⟩ := h.rows row hrow hkind
    exact ⟨hrow, List.mem_singleton.mpr hkind, _, hapi.mem_tagRows_iff.mpr rfl, hname,
      List.mem_singleton.mpr (hapi.atHash_iff.mp hat)⟩

/-- The query for a hash raises no error. -/
theorem findByFilters_metadataFilterByHash (hhash : Blossom.isHash hash = true) (order : RowOrder) :
    findByFilters none [(metadataFilterByHash hash).toSubscription] db order
      = .ok (runQuery db [(metadataFilterByHash hash).toSubscription] order) := by
  have htext : textError hash = none := by
    refine if_neg fun hzero => ?_
    obtain ⟨-, -, hprintable⟩ := isPlain_of_isHash hhash _ hzero
    exact absurd hprintable (by decide)
  have herror : ((metadataFilterByHash hash).toSubscription).error = none := by
    simp [SubscriptionFilter.error, Filter.toSubscription, tagQuery, metadataFilterByHash,
      prefixErrors, integerError, metadataKind, htext]
  have hambiguous : ((metadataFilterByHash hash).toSubscription).ambiguous = false := by
    simp [SubscriptionFilter.ambiguous, Filter.toSubscription, tagQuery]
  simp [findByFilters, herror, hambiguous]

/-- **`resolveMetadata` reads the register of the hash.** -/
theorem Shelf.resolve (h : Shelf L secretKeyHex db) (hL : L.Lawful)
    (hhash : Blossom.isHash hash = true) (order : RowOrder) :
    ∃ answer, fetchAndSend none [(metadataFilterByHash hash).toSubscription] db order = .ok answer ∧
      ∀ arrived : List Event, (∀ event, event ∈ arrived ↔ event ∈ answer) →
        resolveMetadata L secretKeyHex arrived = reading (recordAt L secretKeyHex db hash) := by
  obtain ⟨hsub, hne⟩ := runQuery_single db order
    (f := (metadataFilterByHash hash).toSubscription) (Nat.succ_pos 49)
  refine ⟨_, by rw [fetchAndSend, findByFilters_metadataFilterByHash hhash order], ?_⟩
  intro arrived harrived
  rcases hr : recordAt L secretKeyHex db hash with - | held
  · have hempty : arrived = [] := by
      refine List.eq_nil_iff_forall_not_mem.mpr fun event hevent => ?_
      obtain ⟨⟨row, hrow, -⟩, -⟩ := mem_sendable.mp ((harrived event).mp hevent)
      obtain ⟨hrow, hat⟩ := h.mem_select_iff.mp (hsub row hrow)
      rw [recordAt_eq_none_iff.mp hr row hrow] at hat
      cases hat
    rw [hempty]
    rfl
  · obtain ⟨row, hrow, metadata, event, hapi, rfl, rfl⟩ := h.row_of_recordAt hL hr
    have hat : atHash metadata.hash row = true := hapi.atHash_iff.mpr rfl
    -- whatever arrives is the event of the one row
    have hall : ∀ x ∈ arrived, x = toNostrEvent row := by
      intro x hx
      obtain ⟨⟨r, hfound, -, rfl⟩, -⟩ := mem_sendable.mp ((harrived x).mp hx)
      obtain ⟨hr, hrat⟩ := h.mem_select_iff.mp (hsub r hfound)
      rw [h.eq_of_atHash hr hrow hrat hat]
    have hmem : toNostrEvent row ∈ arrived := by
      refine (harrived _).mpr (mem_sendable.mpr ⟨⟨row, ?_, hapi.rowOf.deletedAt, rfl⟩, ?_⟩)
      · obtain ⟨r, hfound⟩ := List.exists_mem_of_ne_nil _
          (hne (List.ne_nil_of_mem (h.mem_select_iff.mpr ⟨hrow, hat⟩)))
        obtain ⟨hr, hrat⟩ := h.mem_select_iff.mp (hsub r hfound)
        rwa [h.eq_of_atHash hr hrow hrat hat] at hfound
      · obtain ⟨iv, now, -, hbuild⟩ := hapi.built
        obtain ⟨-, -, -, htags, -⟩ := buildMetadataEvent_spec hbuild
        refine ⟨_, List.mem_singleton_self _, ?_⟩
        simp [isEventMatchingFilter, Filter.toSubscription, tagQuery, metadataFilterByHash,
          toNostrEvent, hapi.eventKind, hapi.rowOf.eventTags, htags]
    obtain ⟨taken, htaken, hout⟩ := resolveMetadata_spec L secretKeyHex
      (List.ne_nil_of_mem hmem)
    rw [hout, hall taken htaken.1, outcomeOf, hapi.parse hL]
    rfl

end NostrMesh.Api
