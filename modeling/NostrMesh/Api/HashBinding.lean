/-
NostrMesh/Api/HashBinding.lean

Whether the API keeps to the hash that it is asked for.

A query by hash compares the `d` tags of events, which everybody chooses; the
hash of a record is inside of the encrypted content.  `parseMetadataEvent`
reads the content alone, so a copy of the content under another tag is taken
for the record of that tag: `GET` returns the record of another hash, and
`DELETE` publishes the deletion of that one.

Main result: `boundToHash_iff`.
-/
import NostrMesh.Api.Blobs
import NostrMesh.Api.Resolve

namespace NostrMesh.Api

open Interleaving NewestFirst

/-! ### The handlers over the events of a query -/

/-- Operations when the query answers these events; the state is what has
been published. -/
def answering (arrived : List Event) : (o : Op) → List Event → Res o → List Event → Prop
  | .now, published, _, published' => published' = published
  | .putUpload _ _, published, _, published' => published' = published
  | .getBlob _ _, published, _, published' => published' = published
  | .publish event, published, _, published' => published' = published ++ [event]
  | .querySync _, published, events, published' => events = arrived ∧ published' = published

section

variable (L : Library) (config : Config) (name hash : String) (arrived : List Event)

/-- What the API promises about a hash, whatever the query answers. -/
structure BoundToHash : Prop where
  get : ∀ metadata url published, Runs (answering arrived) (getMetadata L config name) []
    (.metadata metadata url) published → metadata.hash = hash
  delete : ∀ metadataIv answer published, Runs (answering arrived)
    (deleteBlob L config name metadataIv) [] answer published →
      ∀ event ∈ published, dTag event = some hash
  parse : ∀ event ∈ arrived, ∀ metadata,
    parseMetadataEvent L event config.nostrSecretKey = .ok metadata →
      dTag event = some metadata.hash

/-- No event carries a record under another tag than that of its hash, and
what the newest event carries is a record of the hash asked for. -/
structure InPlace : Prop where
  tags : ∀ event ∈ arrived, event.kind = metadataKind → ∀ metadata,
    Carries L config.nostrSecretKey event.content metadata → dTag event = some metadata.hash
  newest : ∀ event, IsFirstNewest Event.createdAt arrived event → event.kind = metadataKind →
    ∀ metadata, Carries L config.nostrSecretKey event.content metadata →
      metadata.hash = hash ∨ (metadata.isDeleted = true ∧ ¬ ValidKey L config.nostrSecretKey)

end

variable {L : Library} {config : Config} {name hash : String} {arrived : List Event}

/-! ### The event that is taken -/

theorem outcomeOf_eq_some_iff {secretKeyHex : String} {event : Event} {metadata : BlobMetadata} :
    outcomeOf L secretKeyHex event = .ok (some metadata) ↔
      event.kind = metadataKind ∧ Carries L secretKeyHex event.content metadata := by
  rw [← parseMetadataEvent_eq_ok_iff, outcomeOf]
  rcases parseMetadataEvent L event secretKeyHex with e | m <;> simp

/-- **`resolveMetadata`** reads the first of the newest events. -/
theorem resolveMetadata_eq_some_iff {secretKeyHex : String} {metadata : BlobMetadata} :
    resolveMetadata L secretKeyHex arrived = .ok (some metadata) ↔
      ∃ event, IsFirstNewest Event.createdAt arrived event ∧ event.kind = metadataKind ∧
        Carries L secretKeyHex event.content metadata := by
  have hhead : ∀ event, (∃ rest, dedupeEvents arrived = event :: rest) ↔
      IsFirstNewest Event.createdAt arrived event := fun _ => latest_head_iff
  rw [resolveMetadata]
  rcases hd : dedupeEvents arrived with - | ⟨taken, rest⟩
  · simp only [hd, reduceCtorEq, exists_false, false_iff] at hhead
    simp [hhead]
  · simp only [hd, List.cons.injEq, exists_and_left, exists_eq', and_true] at hhead
    simp [← hhead, outcomeOf_eq_some_iff]

/-! ### The handlers -/

theorem runs_resolveHash {published published' : List Event}
    {result : Except String (Option BlobMetadata)} :
    Runs (answering arrived) (resolveHash L config hash) published result published' ↔
      result = resolveMetadata L config.nostrSecretKey arrived ∧ published' = published := by
  simp only [resolveHash, perform, Prog.bind_eq, Prog.perform_bind, Prog.pure_eq, runs_op_iff,
    answering, runs_ret_iff]
  constructor
  · rintro ⟨_, _, ⟨rfl, rfl⟩, rfl, rfl⟩
    exact ⟨rfl, rfl⟩
  · rintro ⟨rfl, rfl⟩
    exact ⟨arrived, published', ⟨rfl, rfl⟩, rfl, rfl⟩

/-- What follows the query goes on with what was resolved. -/
theorem runs_bind_resolveHash {α : Type} {f : Except String (Option BlobMetadata) → Handler α}
    {a : α} {published : List Event} :
    Runs (answering arrived) ((resolveHash L config hash).bind f) [] a published ↔
      Runs (answering arrived) (f (resolveMetadata L config.nostrSecretKey arrived)) [] a
        published := by
  simp only [runs_bind_iff, runs_resolveHash]
  constructor
  · rintro ⟨_, _, ⟨rfl, rfl⟩, h⟩
    exact h
  · exact fun h => ⟨_, _, ⟨rfl, rfl⟩, h⟩

/-- `GET` returns the record that it finds. -/
theorem runs_getMetadata_iff (hname : normalizeHash name = .ok hash) {metadata : BlobMetadata}
    {url : String} {published : List Event} :
    Runs (answering arrived) (getMetadata L config name) [] (.metadata metadata url) published ↔
      resolveMetadata L config.nostrSecretKey arrived = .ok (some metadata) ∧
        metadata.isDeleted = false ∧ url = downloadUrl hash ∧ published = [] := by
  simp only [getMetadata, hname, Prog.bind_eq, runs_bind_resolveHash, Prog.pure_eq]
  rcases hr : resolveMetadata L config.nostrSecretKey arrived with e | _ | found
  · simp [runs_ret_iff]
  · simp [runs_ret_iff]
  · have hsame : (Except.ok (some found) : Except String (Option BlobMetadata)) =
        .ok (some metadata) ↔ metadata = found := by
      simp [eq_comm]
    rw [hsame]
    dsimp only
    by_cases hdeleted : found.isDeleted = true
    · rw [if_pos hdeleted, runs_ret_iff]
      refine iff_of_false (by simp) ?_
      rintro ⟨rfl, hnot, -⟩
      rw [hdeleted] at hnot
      cases hnot
    · rw [if_neg hdeleted, runs_ret_iff, Answer.metadata.injEq]
      constructor
      · rintro ⟨⟨rfl, rfl⟩, rfl⟩
        exact ⟨rfl, Bool.eq_false_iff.mpr hdeleted, rfl, rfl⟩
      · rintro ⟨rfl, -, rfl, rfl⟩
        exact ⟨⟨rfl, rfl⟩, rfl⟩

/-- `DELETE` publishes the deletion of the record that it finds. -/
theorem publishes_deleteBlob_iff (hname : normalizeHash name = .ok hash) {event : Event} :
    (∃ metadataIv answer published, Runs (answering arrived)
      (deleteBlob L config name metadataIv) [] answer published ∧ event ∈ published) ↔
    ∃ metadata, resolveMetadata L config.nostrSecretKey arrived = .ok (some metadata) ∧
      ∃ metadataIv deletedAt now,
        buildSoftDeleteEvent L metadataIv deletedAt now metadata config.nostrSecretKey = .ok event := by
  simp only [deleteBlob, hname, Prog.bind_eq, runs_bind_resolveHash, Prog.pure_eq]
  rcases hr : resolveMetadata L config.nostrSecretKey arrived with e | _ | metadata
  · simp [runs_ret_iff]
  · simp [runs_ret_iff]
  simp only [publishEvent, perform, Prog.bind_eq, Prog.perform_bind, runs_op_iff, answering]
  constructor
  · rintro ⟨metadataIv, answer, published, ⟨deletedAt, _, rfl, now, _, rfl, h⟩, hevent⟩
    refine ⟨metadata, rfl, metadataIv, deletedAt, now, ?_⟩
    rcases hbuild : buildSoftDeleteEvent L metadataIv deletedAt now metadata config.nostrSecretKey
      with e | deleteEvent
    · simp only [hbuild, runs_ret_iff] at h
      rw [h.2] at hevent
      cases hevent
    · simp only [hbuild, Prog.op_bind, runs_op_iff, answering] at h
      obtain ⟨accepted, _, rfl, h⟩ := h
      have hpublished : published = [deleteEvent] := by
        cases accepted <;> exact (runs_ret_iff.mp h).2
      rw [hpublished, List.mem_singleton] at hevent
      rw [hevent]
  · rintro ⟨_, heq, metadataIv, deletedAt, now, hbuild⟩
    obtain rfl : metadata = _ := by simpa using heq
    refine ⟨metadataIv, .deleted hash event.id, [event], ⟨deletedAt, [], rfl, now, [], rfl, ?_⟩,
      List.mem_singleton_self _⟩
    -- the relay accepts the event
    simp only [hbuild, Prog.op_bind, runs_op_iff, answering]
    exact ⟨true, [event], rfl, .ret _ _⟩

/-! ### Main result -/

/-- The first tag of an event is the hash of its record. -/
theorem dTag_of_buildMetadataEvent {iv : Bytes} {now : ℤ} {metadata : BlobMetadata} {event : Event}
    {secretKeyHex : String} (h : buildMetadataEvent L iv now metadata secretKeyHex = .ok event) :
    dTag event = some metadata.hash := by
  obtain ⟨-, -, -, htags, -⟩ := buildMetadataEvent_spec h
  simp [dTag, htags]

/-- A deletion has the tag of the record. -/
theorem dTag_of_buildSoftDeleteEvent {metadataIv : Bytes} {deletedAt now : ℤ}
    {metadata : BlobMetadata} {event : Event} {secretKeyHex : String}
    (h : buildSoftDeleteEvent L metadataIv deletedAt now metadata secretKeyHex = .ok event) :
    dTag event = some metadata.hash :=
  @dTag_of_buildMetadataEvent L metadataIv now (softDeleted deletedAt metadata) event _ h

/-- A valid record can be deleted, if the key is valid. -/
theorem exists_buildSoftDeleteEvent {metadataIv : Bytes} {deletedAt now : ℤ}
    {metadata : BlobMetadata} {secretKeyHex : String}
    (hvalid : validateMetadata metadata = .ok ()) (hkey : ValidKey L secretKeyHex) :
    ∃ event, buildSoftDeleteEvent L metadataIv deletedAt now metadata secretKeyHex = .ok event :=
  exists_buildMetadataEvent_iff.mpr ⟨(validateMetadata_softDeleted _ _).trans hvalid, hkey⟩

/-- A record that was read can be deleted, if the key is valid. -/
theorem exists_buildSoftDeleteEvent_iff {metadata : BlobMetadata} {secretKeyHex : String}
    (hvalid : validateMetadata metadata = .ok ()) :
    (∃ event metadataIv deletedAt now,
      buildSoftDeleteEvent L metadataIv deletedAt now metadata secretKeyHex = .ok event) ↔
      ValidKey L secretKeyHex := by
  constructor
  · rintro ⟨event, metadataIv, deletedAt, now, h⟩
    exact (exists_buildMetadataEvent_iff.mp ⟨event, h⟩).2
  · intro hkey
    obtain ⟨event, hevent⟩ := @exists_buildSoftDeleteEvent L [] 0 0 metadata secretKeyHex hvalid hkey
    exact ⟨event, [], 0, 0, hevent⟩

theorem get_bound_iff (hname : normalizeHash name = .ok hash) :
    (∀ metadata url published, Runs (answering arrived) (getMetadata L config name) []
      (.metadata metadata url) published → metadata.hash = hash) ↔
    ∀ metadata, resolveMetadata L config.nostrSecretKey arrived = .ok (some metadata) →
      metadata.isDeleted = false → metadata.hash = hash := by
  constructor
  · intro h metadata hresolves hnot
    exact h metadata (downloadUrl hash) []
      ((runs_getMetadata_iff hname).mpr ⟨hresolves, hnot, rfl, rfl⟩)
  · intro h metadata url published hruns
    obtain ⟨hresolves, hnot, -⟩ := (runs_getMetadata_iff hname).mp hruns
    exact h metadata hresolves hnot

/-- A deletion is published under the hash of the record, not under the hash
asked for. -/
theorem delete_bound_iff (hname : normalizeHash name = .ok hash) :
    (∀ metadataIv answer published, Runs (answering arrived)
      (deleteBlob L config name metadataIv) [] answer published →
        ∀ event ∈ published, dTag event = some hash) ↔
    ∀ metadata, resolveMetadata L config.nostrSecretKey arrived = .ok (some metadata) →
      ValidKey L config.nostrSecretKey → metadata.hash = hash := by
  constructor
  · -- with a valid key, `DELETE` publishes something
    intro h metadata hresolves hkey
    obtain ⟨taken, -, -, hcarries⟩ := resolveMetadata_eq_some_iff.mp hresolves
    obtain ⟨event, metadataIv, deletedAt, now, hbuild⟩ :=
      (exists_buildSoftDeleteEvent_iff hcarries.valid).mpr hkey
    obtain ⟨metadataIv', answer, published, hruns, hmem⟩ := (publishes_deleteBlob_iff hname).mpr
      ⟨metadata, hresolves, metadataIv, deletedAt, now, hbuild⟩
    have htag := h metadataIv' answer published hruns event hmem
    rwa [dTag_of_buildSoftDeleteEvent hbuild, Option.some.injEq] at htag
  · intro h metadataIv answer published hruns event hevent
    obtain ⟨metadata, hresolves, metadataIv', deletedAt, now, hbuild⟩ :=
      (publishes_deleteBlob_iff hname).mp ⟨metadataIv, answer, published, hruns, hevent⟩
    obtain ⟨taken, -, -, hcarries⟩ := resolveMetadata_eq_some_iff.mp hresolves
    have hkey := (exists_buildSoftDeleteEvent_iff hcarries.valid).mp
      ⟨event, metadataIv', deletedAt, now, hbuild⟩
    rw [dTag_of_buildSoftDeleteEvent hbuild, h metadata hresolves hkey]

theorem parse_bound_iff {secretKeyHex : String} :
    (∀ event ∈ arrived, ∀ metadata, parseMetadataEvent L event secretKeyHex = .ok metadata →
      dTag event = some metadata.hash) ↔
    ∀ event ∈ arrived, event.kind = metadataKind → ∀ metadata,
      Carries L secretKeyHex event.content metadata → dTag event = some metadata.hash := by
  simp only [parseMetadataEvent_eq_ok_iff]
  constructor
  · exact fun h event hevent hkind metadata hcarries => h event hevent metadata ⟨hkind, hcarries⟩
  · exact fun h event hevent metadata hparse => h event hevent hparse.1 metadata hparse.2

/-- **The API keeps to the hash** exactly if the events of the query are in
place. -/
theorem boundToHash_iff (hname : normalizeHash name = .ok hash) :
    BoundToHash L config name hash arrived ↔ InPlace L config hash arrived := by
  constructor
  · rintro ⟨hget, hdelete, hparse⟩
    rw [get_bound_iff hname] at hget
    rw [delete_bound_iff hname] at hdelete
    refine ⟨parse_bound_iff.mp hparse, fun event hnewest hkind metadata hcarries => ?_⟩
    have hresolves := resolveMetadata_eq_some_iff.mpr ⟨event, hnewest, hkind, hcarries⟩
    by_cases hkey : ValidKey L config.nostrSecretKey
    · exact Or.inl (hdelete metadata hresolves hkey)
    · -- `DELETE` never answers, and a deleted record is not returned either
      by_cases hdeleted : metadata.isDeleted = true
      · exact Or.inr ⟨hdeleted, hkey⟩
      · exact Or.inl (hget metadata hresolves (Bool.eq_false_iff.mpr hdeleted))
  · rintro ⟨htags, hnewest⟩
    have hresolved : ∀ metadata, resolveMetadata L config.nostrSecretKey arrived =
        .ok (some metadata) →
          metadata.hash = hash ∨ metadata.isDeleted = true ∧ ¬ ValidKey L config.nostrSecretKey := by
      intro metadata hresolves
      obtain ⟨event, hfirst, hkind, hcarries⟩ := resolveMetadata_eq_some_iff.mp hresolves
      exact hnewest event hfirst hkind metadata hcarries
    refine ⟨(get_bound_iff hname).mpr ?_, (delete_bound_iff hname).mpr ?_,
      parse_bound_iff.mpr htags⟩
    · intro metadata hresolves hnot
      refine (hresolved metadata hresolves).resolve_right ?_
      rintro ⟨hdeleted, -⟩
      exact Bool.false_ne_true (hnot.symm.trans hdeleted)
    · intro metadata hresolves hkey
      exact (hresolved metadata hresolves).resolve_right fun hno => hno.2 hkey

/-! ### A copy under another tag -/

/-- The hash under which the copy is published. -/
def otherHash : String := "8f434346648f6b96df89dda901c5176b10a6d83961dd3c1ac88b59b2dc327aa4"

/-- Somebody copies the content of the sample event under another tag. -/
def replayedEvent : Event where
  id := "3c487aeea2cde33e9075b634065b6f30213e72347572ebc3c528e52d3c0d0b4f"
  pubkey := "f9308a019258c31049344f85f89d5229b531c845836f99b08601f113bce036f9"
  createdAt := 1700000005
  kind := metadataKind
  tags := [["d", otherHash]]
  content := sampleEvent.content
  sig := "5912489554d93f883a4e3e3b488bc98e8446eea657584e202d783f59d596a967" ++
    "ec327c30ed7e5b2db9beb2be88daab9c49a4930fa20b529e471994949ce6dfdc"

/-- The content of the sample event carries its record, and nothing else. -/
theorem carries_sampleEvent_iff {metadata : BlobMetadata} :
    Carries sampleLibrary sampleSecret sampleEvent.content metadata ↔ metadata = sampleMetadata := by
  have hread : parseMetadataEvent sampleLibrary sampleEvent sampleSecret = .ok sampleMetadata :=
    parseMetadataEvent_buildMetadataEvent sampleLibrary_lawful (by decide) rfl
      (buildMetadataEvent_sample sampleIv 1700000000 validateMetadata_sampleMetadata)
  constructor
  · intro h
    have hsame := parseMetadataEvent_eq_ok_iff.mpr ⟨(rfl : sampleEvent.kind = metadataKind), h⟩
    rw [hread] at hsame
    exact (Except.ok.inj hsame).symm
  · rintro rfl
    exact (parseMetadataEvent_eq_ok_iff.mp hread).2

theorem boundToHash_sample :
    BoundToHash sampleLibrary ⟨"http://localhost:3000", sampleSecret⟩ sampleHash sampleHash
      [sampleEvent] := by
  refine (boundToHash_iff (normalizeHash_of_isHash isHash_sampleHash)).mpr ⟨?_, ?_⟩
  · intro event hevent _ metadata hcarries
    obtain rfl := List.mem_singleton.mp hevent
    rw [carries_sampleEvent_iff.mp hcarries]
    rfl
  · intro event hnewest _ metadata hcarries
    obtain rfl := List.mem_singleton.mp hnewest.isNewest.1
    rw [carries_sampleEvent_iff.mp hcarries]
    exact Or.inl rfl

/-- Asked for the hash of the copy, `GET` returns the record of the sample. -/
theorem not_boundToHash_replayed :
    ¬ BoundToHash sampleLibrary ⟨"http://localhost:3000", sampleSecret⟩ otherHash otherHash
      [replayedEvent] := by
  intro h
  have hresolves : resolveMetadata sampleLibrary sampleSecret [replayedEvent]
      = .ok (some sampleMetadata) :=
    resolveMetadata_eq_some_iff.mpr ⟨replayedEvent, ⟨[], [], rfl, by simp, by simp⟩, rfl,
      carries_sampleEvent_iff.mpr rfl⟩
  have hhash := h.get sampleMetadata (downloadUrl otherHash) []
    ((runs_getMetadata_iff (normalizeHash_of_isHash (by decide +kernel))).mpr
      ⟨hresolves, rfl, rfl, rfl⟩)
  exact absurd hhash (by decide +kernel)

end NostrMesh.Api
