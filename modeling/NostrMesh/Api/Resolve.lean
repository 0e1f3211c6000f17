/-
NostrMesh/Api/Resolve.lean

What `resolveMetadata` answers when relays disagree.

* Foreign events.  The query names no author, so an event of somebody else
  with the same `d` tag competes on equal terms; `sameOutcomes_iff` says
  exactly when its presence cannot be noticed.
* Versions.  The API publishes versions of one record with increasing
  `created_at`, each to some relays; `resolveMetadata_newest` says that a
  query that reaches one relay with the newest version answers it, whatever
  the others send.
-/
import NostrMesh.Api.Reference

namespace NostrMesh.Api

open NewestFirst

/-! ### Foreign events -/

/-- The events of a relay: those signed with the API's key, and others. -/
structure RelayEvents where
  own : List Event
  foreign : List Event
  deriving DecidableEq, Repr

def ownEvents (relays : List RelayEvents) : List (List Event) := relays.map RelayEvents.own

def allEvents (relays : List RelayEvents) : List (List Event) :=
  relays.map fun relay => relay.own ++ relay.foreign

section

variable (L : Library) (secretKeyHex : String) (relays : List RelayEvents) (hash : String)

/-- `resolveMetadata(hash)` has the same outcomes with and without the
foreign events. -/
def SameOutcomes : Prop :=
  ∀ outcome, Resolves L secretKeyHex (allEvents relays) hash outcome ↔
    Resolves L secretKeyHex (ownEvents relays) hash outcome

/-- The event is a newest one of those that match the query for the hash. -/
def IsNewestFor (relays : List (List Event)) (hash : String) (event : Event) : Prop :=
  IsNewest Event.createdAt (matching (metadataFilterByHash hash) relays) event

/-- A foreign event that is a newest one of all reads like a newest own one,
and a newest own event still reads like a newest one of all. -/
def ForeignHarmless : Prop :=
  (∀ relay ∈ relays, ∀ event ∈ relay.foreign, IsNewestFor (allEvents relays) hash event →
    ∃ own, IsNewestFor (ownEvents relays) hash own ∧
      parseMetadataEvent L own secretKeyHex = parseMetadataEvent L event secretKeyHex) ∧
  ∀ own, IsNewestFor (ownEvents relays) hash own →
    ∃ event, IsNewestFor (allEvents relays) hash event ∧
      parseMetadataEvent L event secretKeyHex = parseMetadataEvent L own secretKeyHex

variable {L secretKeyHex relays hash}

theorem outcomeOf_eq_iff {event event' : Event} :
    outcomeOf L secretKeyHex event = outcomeOf L secretKeyHex event' ↔
      parseMetadataEvent L event secretKeyHex = parseMetadataEvent L event' secretKeyHex := by
  rw [outcomeOf, outcomeOf]
  rcases parseMetadataEvent L event secretKeyHex with e | m <;>
    rcases parseMetadataEvent L event' secretKeyHex with e' | m' <;> simp

theorem outcomeOf_ne_none (event : Event) : outcomeOf L secretKeyHex event ≠ .ok none := by
  rw [outcomeOf]
  rcases parseMetadataEvent L event secretKeyHex with e | m <;> simp

theorem mem_matching_all {event : Event} :
    event ∈ matching (metadataFilterByHash hash) (allEvents relays) ↔
      event ∈ matching (metadataFilterByHash hash) (ownEvents relays) ∨
      ∃ relay ∈ relays, event ∈ relay.foreign.filter (metadataFilterByHash hash).isMatch := by
  simp only [mem_matching, allEvents, ownEvents, List.mem_map]
  constructor
  · rintro ⟨_, ⟨relay, hrelay, rfl⟩, hevent⟩
    rw [List.filter_append, List.mem_append] at hevent
    exact hevent.imp (fun h => ⟨_, ⟨relay, hrelay, rfl⟩, h⟩) fun h => ⟨relay, hrelay, h⟩
  · rintro (⟨_, ⟨relay, hrelay, rfl⟩, hevent⟩ | ⟨relay, hrelay, hevent⟩)
    · exact ⟨_, ⟨relay, hrelay, rfl⟩, by rw [List.filter_append]; exact List.mem_append_left _ hevent⟩
    · exact ⟨_, ⟨relay, hrelay, rfl⟩, by rw [List.filter_append]; exact List.mem_append_right _ hevent⟩

/-- The outcomes, by the newest events. -/
theorem resolves_iff_newest {held : List (List Event)} {outcome} :
    Resolves L secretKeyHex held hash outcome ↔
      (matching (metadataFilterByHash hash) held = [] ∧ outcome = .ok none) ∨
      ∃ event, IsNewestFor held hash event ∧ outcome = outcomeOf L secretKeyHex event :=
  resolves_iff

/-- An outcome that an event has is an outcome of a newest event. -/
theorem resolves_outcomeOf {held : List (List Event)} {event : Event} :
    Resolves L secretKeyHex held hash (outcomeOf L secretKeyHex event) ↔
      ∃ x, IsNewestFor held hash x ∧
        parseMetadataEvent L x secretKeyHex = parseMetadataEvent L event secretKeyHex := by
  rw [resolves_iff_newest]
  constructor
  · rintro (⟨-, h⟩ | ⟨x, hx, h⟩)
    · exact absurd h (outcomeOf_ne_none event)
    · exact ⟨x, hx, (outcomeOf_eq_iff.mp h).symm⟩
  · rintro ⟨x, hx, h⟩
    exact Or.inr ⟨x, hx, outcomeOf_eq_iff.mpr h.symm⟩

/-- Without a newest event there is none at all. -/
theorem exists_newestFor {held : List (List Event)}
    (h : matching (metadataFilterByHash hash) held ≠ []) : ∃ event, IsNewestFor held hash event :=
  exists_isNewest Event.createdAt h

end

/-- **Foreign events go unnoticed** exactly if they are harmless. -/
theorem sameOutcomes_iff (L : Library) (secretKeyHex : String) (relays : List RelayEvents)
    (hash : String) :
    SameOutcomes L secretKeyHex relays hash ↔ ForeignHarmless L secretKeyHex relays hash := by
  constructor
  · intro h
    refine ⟨fun relay hrelay event hevent hnewest => ?_, fun own hown => ?_⟩
    · exact resolves_outcomeOf.mp ((h _).mp (resolves_outcomeOf.mpr ⟨event, hnewest, rfl⟩))
    · exact resolves_outcomeOf.mp ((h _).mpr (resolves_outcomeOf.mpr ⟨own, hown, rfl⟩))
  · rintro ⟨hforeign, hown⟩ outcome
    constructor
    · intro h
      rcases resolves_iff_newest.mp h with ⟨hnil, rfl⟩ | ⟨event, hevent, rfl⟩
      · -- no event at all, so no own one
        refine resolves_iff_newest.mpr (Or.inl ⟨?_, rfl⟩)
        rw [List.eq_nil_iff_forall_not_mem]
        intro event hevent
        have hmem := mem_matching_all.mpr (Or.inl hevent)
        rw [hnil] at hmem
        cases hmem
      · refine resolves_outcomeOf.mpr ?_
        rcases mem_matching_all.mp hevent.1 with hmem | ⟨relay, hrelay, hmem⟩
        · exact ⟨event, ⟨hmem, fun x hx => hevent.2 x (mem_matching_all.mpr (Or.inl hx))⟩, rfl⟩
        · exact hforeign relay hrelay event (List.mem_filter.mp hmem).1 hevent
    · intro h
      rcases resolves_iff_newest.mp h with ⟨hnil, rfl⟩ | ⟨own, hnewest, rfl⟩
      · -- no own event: a foreign one would have to read like an own one
        refine resolves_iff_newest.mpr (Or.inl ⟨?_, rfl⟩)
        by_contra hne
        obtain ⟨event, hevent⟩ := exists_newestFor hne
        rcases mem_matching_all.mp hevent.1 with hmem | ⟨relay, hrelay, hmem⟩
        · rw [hnil] at hmem
          cases hmem
        · obtain ⟨own, hown', -⟩ :=
            hforeign relay hrelay event (List.mem_filter.mp hmem).1 hevent
          have hmem' := hown'.1
          rw [hnil] at hmem'
          cases hmem'
      · exact resolves_outcomeOf.mpr (hown own hnewest)

/-- The event that the API publishes for the sample record. -/
def sampleEvent : Event := sampleEventOf sampleIv 1700000000 sampleMetadata

/-- An event that somebody else publishes one second later. -/
def foreignEvent : Event where
  id := "708da3a7c689e74c3bbfd362d02981c2357aef9cbcbb01a24052ce0ebb8c4c17"
  pubkey := "369537c2323005a6b05352e499aea1fa215447d6479bfe76219dadc5bee95d36"
  createdAt := 1700000001
  kind := metadataKind
  tags := [["d", sampleHash]]
  content := ""
  sig := "adc344b571b612a3cf6fc13041d841cd50a2c7ddf19f7eecba97c2b27d7de24e" ++
    "e22a61636d31f491ab1e415b59c30b1d417ac27b68ca3722c1b36a37bf250297"

/-- A newer foreign event that reads differently is noticed. -/
theorem not_sameOutcomes_of_newer {L : Library} {secretKeyHex hash : String} {own foreign : Event}
    (hmatch : (metadataFilterByHash hash).isMatch foreign = true)
    (hnewer : own.createdAt ≤ foreign.createdAt)
    (hparse : parseMetadataEvent L own secretKeyHex ≠ parseMetadataEvent L foreign secretKeyHex) :
    ¬ SameOutcomes L secretKeyHex [⟨[own], [foreign]⟩] hash := by
  intro h
  have hnewest : IsNewestFor (allEvents [⟨[own], [foreign]⟩]) hash foreign := by
    refine ⟨mem_matching_all.mpr (Or.inr ⟨_, List.mem_singleton_self _, ?_⟩), fun x hx => ?_⟩
    · exact List.mem_filter.mpr ⟨List.mem_singleton_self _, hmatch⟩
    · have hx' : x = own ∨ x = foreign := by
        simpa [matching, allEvents] using (List.mem_filter.mp hx).1
      rcases hx' with rfl | rfl
      · exact hnewer
      · exact le_rfl
  obtain ⟨x, hx, hsame⟩ :=
    resolves_outcomeOf.mp ((h _).mp (resolves_outcomeOf.mpr ⟨foreign, hnewest, rfl⟩))
  have hx' : x = own := by
    simpa [matching, ownEvents] using (List.mem_filter.mp hx.1).1
  exact hparse (hx' ▸ hsame)

/-- With the foreign event the record cannot be read any more. -/
theorem foreignEvent_interferes :
    ¬ SameOutcomes sampleLibrary sampleSecret [⟨[sampleEvent], [foreignEvent]⟩] sampleHash := by
  have hown : parseMetadataEvent sampleLibrary sampleEvent sampleSecret = .ok sampleMetadata :=
    parseMetadataEvent_buildMetadataEvent sampleLibrary_lawful (by decide) rfl
      (buildMetadataEvent_sample sampleIv 1700000000 validateMetadata_sampleMetadata)
  have hforeign : parseMetadataEvent sampleLibrary foreignEvent sampleSecret
      = .error "Metadata payload is too small" := by decide +kernel
  refine not_sameOutcomes_of_newer (by decide +kernel) (by decide) ?_
  rw [hown, hforeign]
  simp

/-! ### Versions -/

/-- A published version: its event, and the record in it. -/
abbrev Version := Event × BlobMetadata

/-- A relay takes an event into its store; it may drop what the event
replaces. -/
def Takes (before : List Event) (event : Event) (after : List Event) : Prop :=
  event ∈ after ∧ ∀ e ∈ after, e = event ∨ e ∈ before

section

variable {ρ : Type*} (L : Library) (secretKeyHex : String) (hash : String)

/-- The API has published these versions of the record of `hash`, oldest
first, each to at least one relay. -/
inductive Published : List Version → (ρ → List Event) → Prop
  | nothing : Published [] fun _ => []
  | publish {versions held held'} (iv : Bytes) (now : ℤ) (metadata : BlobMetadata) (event : Event)
      (takers : Set ρ) :
      Published versions held →
      metadata.hash = hash → metadata.uploadedAt.isFinite = true → iv.length = 12 →
      buildMetadataEvent L iv now metadata secretKeyHex = .ok event →
      (∀ version ∈ versions, version.1.createdAt < event.createdAt) →
      takers.Nonempty →
      (∀ relay ∈ takers, Takes (held relay) event (held' relay)) →
      (∀ relay ∉ takers, held' relay = held relay) →
      Published (versions ++ [(event, metadata)]) held'

/-- A later query: some relay with the newest event answers from its store,
and the others send any published versions, any number of times, or
nothing. -/
structure LaterQuery (versions : List Version) (held : ρ → List Event) (newest : Event)
    (arrived : List Event) where
  answers : ρ → List Event
  relay : ρ
  holds : newest ∈ held relay
  faithful : Answers (metadataFilterByHash hash) (held relay) (answers relay)
  stale : ∀ r, ∀ event ∈ answers r, ∃ version ∈ versions, version.1 = event
  arrived_iff : ∀ event, event ∈ arrived ↔ ∃ r, event ∈ answers r

variable {L secretKeyHex hash} {versions : List Version} {held : ρ → List Event}

/-- A metadata event matches the query for its hash. -/
theorem isMatch_of_buildMetadataEvent {iv : Bytes} {now : ℤ} {metadata : BlobMetadata}
    {event : Event} (h : buildMetadataEvent L iv now metadata secretKeyHex = .ok event) :
    (metadataFilterByHash metadata.hash).isMatch event = true := by
  obtain ⟨-, hkind, -, htags, -⟩ := buildMetadataEvent_spec h
  simp [Filter.isMatch, metadataFilterByHash, hkind, htags]

/-- What holds of the versions at any time: the relays hold nothing else,
each matches the query and reads back as its record. -/
theorem Published.spec (hL : L.Lawful) (h : Published L secretKeyHex hash versions held) :
    (∀ relay, ∀ event ∈ held relay, ∃ version ∈ versions, version.1 = event) ∧
      ∀ version ∈ versions, (metadataFilterByHash hash).isMatch version.1 = true ∧
        parseMetadataEvent L version.1 secretKeyHex = .ok version.2 := by
  induction h with
  | nothing => exact ⟨fun _ _ h => absurd h List.not_mem_nil, fun _ h => absurd h List.not_mem_nil⟩
  | @publish versions held held' iv now metadata event takers _ hhash hfinite hiv hbuild _ _ htake
      hkeep ih =>
      obtain ⟨hheld, hversions⟩ := ih
      refine ⟨fun relay e he => ?_, fun version hversion => ?_⟩
      · have hold : e = event ∨ e ∈ held relay := by
          by_cases hr : relay ∈ takers
          · exact (htake relay hr).2 e he
          · exact Or.inr (hkeep relay hr ▸ he)
        rcases hold with rfl | hold
        · exact ⟨_, List.mem_append_right _ (List.mem_singleton_self _), rfl⟩
        · obtain ⟨version, hversion, rfl⟩ := hheld relay e hold
          exact ⟨version, List.mem_append_left _ hversion, rfl⟩
      · rcases List.mem_append.mp hversion with hversion | hversion
        · exact hversions version hversion
        · obtain rfl := List.mem_singleton.mp hversion
          exact ⟨hhash ▸ isMatch_of_buildMetadataEvent hbuild,
            parseMetadataEvent_buildMetadataEvent hL hiv hfinite hbuild⟩

/-- The last version is the only newest one. -/
theorem Published.eq_of_le {newest : Event} {metadata : BlobMetadata}
    (h : Published L secretKeyHex hash (versions ++ [(newest, metadata)]) held) :
    ∀ version ∈ versions ++ [(newest, metadata)],
      newest.createdAt ≤ version.1.createdAt → version.1 = newest := by
  generalize hall : versions ++ [(newest, metadata)] = all at h
  cases h with
  | nothing => simp at hall
  | publish iv now metadata' event takers _ _ _ _ _ hless _ _ _ =>
      obtain ⟨rfl, hlast⟩ := List.append_inj' hall rfl
      simp only [List.cons.injEq, Prod.mk.injEq, and_true] at hlast
      obtain ⟨rfl, rfl⟩ := hlast
      intro version hversion hle
      rcases List.mem_append.mp hversion with hversion | hversion
      · exact absurd (hless version hversion) (not_lt.mpr hle)
      · rw [List.mem_singleton.mp hversion]

/-- **The newest version wins**, whichever relays have missed it and whatever
else arrives. -/
theorem resolveMetadata_newest (hL : L.Lawful) {newest : Event} {metadata : BlobMetadata}
    (h : Published L secretKeyHex hash (versions ++ [(newest, metadata)]) held)
    {arrived : List Event}
    (hq : LaterQuery hash (versions ++ [(newest, metadata)]) held newest arrived) :
    resolveMetadata L secretKeyHex arrived = .ok (some metadata) := by
  obtain ⟨hheld, hversions⟩ := h.spec hL
  have hself := hversions (newest, metadata) (List.mem_append_right _ (List.mem_singleton_self _))
  have hunique := h.eq_of_le
  -- the relay that holds the newest event sends it
  have harrived : newest ∈ arrived := by
    have hmem : newest ∈ (held hq.relay).filter (metadataFilterByHash hash).isMatch :=
      List.mem_filter.mpr ⟨hq.holds, hself.1⟩
    obtain ⟨x, hx, hnewest⟩ := IsTop.exists_newest hq.faithful (Nat.succ_pos _)
      (List.ne_nil_of_mem hmem)
    obtain ⟨version, hversion, rfl⟩ := hheld hq.relay x (List.mem_filter.mp hnewest.1).1
    rw [hunique version hversion (hnewest.2 newest hmem)] at hx
    exact (hq.arrived_iff newest).mpr ⟨hq.relay, hx⟩
  obtain ⟨taken, htaken, hout⟩ := resolveMetadata_spec L secretKeyHex
    (List.ne_nil_of_mem harrived)
  obtain ⟨r, hr⟩ := (hq.arrived_iff taken).mp htaken.1
  obtain ⟨version, hversion, rfl⟩ := hq.stale r taken hr
  rw [hout, hunique version hversion (htaken.2 newest harrived), outcomeOf, hself.2]

end

/-- The event of the record, deleted one second later. -/
def sampleDeletedEvent : Event :=
  sampleEventOf sampleIvDeleted₁ 1700000001 (softDeleted 1700000001 sampleMetadata)

/-- Two relays hold the record and one of them its deletion; the other sends
the old event twice. -/
theorem resolveMetadata_sample :
    resolveMetadata sampleLibrary sampleSecret [sampleEvent, sampleDeletedEvent, sampleEvent]
      = .ok (some (softDeleted 1700000001 sampleMetadata)) := by
  have hpublished : Published sampleLibrary sampleSecret sampleHash
      ([] ++ [(sampleEvent, sampleMetadata)] ++
        [(sampleDeletedEvent, softDeleted 1700000001 sampleMetadata)])
      fun relay : Bool => if relay then [sampleDeletedEvent] else [sampleEvent] := by
    have hfirst : Published sampleLibrary sampleSecret sampleHash
        ([] ++ [(sampleEvent, sampleMetadata)]) fun _ : Bool => [sampleEvent] := by
      refine .publish sampleIv 1700000000 _ _ Set.univ .nothing rfl rfl (by decide)
        (buildMetadataEvent_sample _ _ validateMetadata_sampleMetadata) (by simp) ⟨true, trivial⟩ ?_ ?_
      · exact fun _ _ => ⟨List.mem_singleton_self _, fun e he => Or.inl (List.mem_singleton.mp he)⟩
      · exact fun relay hrelay => absurd trivial hrelay
    refine .publish sampleIvDeleted₁ 1700000001 _ _ {true} hfirst rfl rfl (by decide)
      (buildMetadataEvent_sample _ _
        ((validateMetadata_softDeleted _ _).trans validateMetadata_sampleMetadata)) ?_ ⟨true, rfl⟩ ?_ ?_
    · intro version hversion
      rw [List.nil_append, List.mem_singleton] at hversion
      subst hversion
      show (1700000000 : ℤ) < 1700000001
      decide
    · rintro relay rfl
      exact ⟨List.mem_singleton_self _, fun e he => Or.inl (List.mem_singleton.mp he)⟩
    · rintro (- | -) hrelay
      · rfl
      · exact absurd rfl hrelay
  refine resolveMetadata_newest sampleLibrary_lawful hpublished
    { answers := fun relay => if relay then [sampleDeletedEvent] else [sampleEvent, sampleEvent]
      relay := true
      holds := List.mem_singleton_self _
      faithful := ?_
      stale := ?_
      arrived_iff := ?_ }
  · have hbuild : buildMetadataEvent sampleLibrary sampleIvDeleted₁ 1700000001
        (softDeleted 1700000001 sampleMetadata) sampleSecret = .ok sampleDeletedEvent :=
      buildMetadataEvent_sample _ _
        ((validateMetadata_softDeleted _ _).trans validateMetadata_sampleMetadata)
    have hmatch : (metadataFilterByHash sampleHash).isMatch sampleDeletedEvent = true :=
      isMatch_of_buildMetadataEvent hbuild
    have hheld : [sampleDeletedEvent].filter (metadataFilterByHash sampleHash).isMatch
        = [sampleDeletedEvent] := List.filter_cons_of_pos hmatch
    show IsTop _ _ ([sampleDeletedEvent].filter _) _
    rw [hheld]
    exact isTop_take Event.createdAt 50 [sampleDeletedEvent]
  · rintro (- | -) event hevent
    · obtain rfl : event = sampleEvent := by simpa using hevent
      exact ⟨_, List.mem_append_left _ (List.mem_append_right _ (List.mem_singleton_self _)), rfl⟩
    · obtain rfl : event = sampleDeletedEvent := by simpa using hevent
      exact ⟨_, List.mem_append_right _ (List.mem_singleton_self _), rfl⟩
  · have hmem : ∀ a b event : Event, event ∈ [a, b, a] ↔
        ∃ relay : Bool, event ∈ (if relay then [b] else [a, a]) := by
      intro a b event
      simp only [List.mem_cons, List.not_mem_nil, or_false, Bool.exists_bool, Bool.false_eq_true,
        if_false, if_true]
      tauto
    exact hmem sampleEvent sampleDeletedEvent

end NostrMesh.Api
