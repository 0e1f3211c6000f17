/-
NostrMesh/Relay/Lossless.lean

Whether an event that has been stored is read back as it was.

The repository sends the id, the public key and the signature as bytes, and
the tags as a JSON text; `insert` and `upsert` each build the row on their
own.  PostgreSQL keeps a `jsonb` value, not its text, so that the text which
comes back may have other white space.  `Represents` connects the rows that
are sent with the rows of the model, which hold the tags themselves.

Main result: `lossless`.
-/
import NostrMesh.Lib.JsonText
import NostrMesh.Relay.Columns

namespace NostrMesh.Relay.Lossless

open Columns (InRange eventSchema eventSchema_eq_true_iff)
open LiveEvents (toHex_toBuffer)
open Traffic (Runtime isEventIdValid isEventSignatureValid)

/-! ### Rows as they are sent -/

/-- The parameters of an insert: JSON columns are texts. -/
structure SentRow where
  eventId : Bytes
  eventPubkey : Bytes
  eventCreatedAt : ℤ
  eventKind : ℕ
  eventTags : List Char
  eventContent : String
  eventSignature : Bytes
  eventDeduplication : Option (List Char)
  remoteAddress : Option String
  expiresAt : Option ℤ

/-- `JSON.stringify` of an array of strings. -/
def stringifyTag (tag : List String) : List Char := JsonText.array [] (tag.map jsonText)

/-- `toJSON` of the tags. -/
def toJSON (tags : List (List String)) : List Char := JsonText.array [] (tags.map stringifyTag)

/-- The row of `insert`. -/
def insertParameters (event : IncomingEvent) : SentRow where
  eventId := toBuffer event.id
  eventPubkey := toBuffer event.pubkey
  eventCreatedAt := event.createdAt
  eventKind := event.kind
  eventTags := toJSON event.tags
  eventContent := event.content
  eventSignature := toBuffer event.sig
  eventDeduplication := none
  remoteAddress := event.remoteAddress
  expiresAt := event.expiration

/-- `toJSON` of the deduplication value: public key and kind, or what the
strategy attached. -/
def deduplicationJSON (event : IncomingEvent) : List Char :=
  match event.deduplication with
  | none => JsonText.array [] [jsonText event.pubkey, (toString event.kind).toList]
  | some values => stringifyTag values

/-- The row of `upsert`. -/
def upsertParameters (event : IncomingEvent) : SentRow where
  eventId := toBuffer event.id
  eventPubkey := toBuffer event.pubkey
  eventCreatedAt := event.createdAt
  eventKind := event.kind
  eventTags := toJSON event.tags
  eventContent := event.content
  eventSignature := toBuffer event.sig
  eventDeduplication := some (deduplicationJSON event)
  remoteAddress := event.remoteAddress
  expiresAt := event.expiration

/-! ### The database -/

/-- What the columns of PostgreSQL give back, by their type. -/
structure Storage where
  bytea : Bytes → Bytes
  integer : ℤ → ℤ
  text : String → String
  jsonb : List Char → List Char

/-- `JSON.parse` of a text of arrays of strings. -/
def parseTags (text : List Char) : Option (List (List String)) :=
  (JsonText.parse (JsonText.readArray (JsonText.readArray JsonText.readString)) text).map
    fun tags => tags.map fun tag => tag.map String.ofList

/-- Values that the columns take come back unchanged, `jsonb` values as
values. -/
structure Storage.Unchanged (D : Storage) : Prop where
  bytea : ∀ b, D.bytea b = b
  integer : ∀ n, InRange n → D.integer n = n
  text : ∀ s, textError s = none → D.text s = s
  jsonb : ∀ text tags, parseTags text = some tags →
    (∀ tag ∈ tags, ∀ s ∈ tag, textError s = none) → parseTags (D.jsonb text) = some tags

/-- The row that is read: the columns that `toNostrEvent` looks at, and others
from anywhere.  The driver parses the JSON texts. -/
def readBack (D : Storage) (sent : SentRow) (others : EventRow) : Option EventRow :=
  (parseTags (D.jsonb sent.eventTags)).map fun tags =>
    { others with
      eventId := D.bytea sent.eventId
      eventPubkey := D.bytea sent.eventPubkey
      eventCreatedAt := D.integer sent.eventCreatedAt
      eventKind := (D.integer sent.eventKind).toNat
      eventTags := tags
      eventContent := D.text sent.eventContent
      eventSignature := D.bytea sent.eventSignature }

/-- The event that is read has the fields of `event`, and its id and signature
verify if those of `event` do. -/
def ComesBack (D : Storage) (sent : SentRow) (event : Event) : Prop :=
  ∀ others, ∃ stored, (readBack D sent others).map toNostrEvent = some stored ∧ stored = event ∧
    ∀ R : Runtime, isEventIdValid R stored = isEventIdValid R event ∧
      isEventSignatureValid R stored = isEventSignatureValid R event

/-- No string of the event has a NUL character. -/
def NoNul (event : Event) : Prop :=
  textError event.content = none ∧ ∀ tag ∈ event.tags, ∀ s ∈ tag, textError s = none

/-! ### The texts of tags -/

/-- The trigger and `JSON.stringify` write strings alike. -/
theorem jsonText_eq (s : String) : jsonText s = JsonText.string s.toList := by
  have hescape : jsonEscape = JsonText.escapeChar := rfl
  rw [jsonText, JsonText.string, hescape]

/-- Tags, with a gap behind the commas. -/
def tagsText (gap : List Char) (tags : List (List String)) : List Char :=
  JsonText.array gap (tags.map fun tag => JsonText.array gap (tag.map jsonText))

theorem parseTags_tagsText {gap : List Char} (hgap : ∀ c ∈ gap, JsonText.isSpace c = true)
    (tags : List (List String)) : parseTags (tagsText gap tags) = some tags := by
  have hparse := ((JsonText.reads_readString.array hgap).array hgap).parse
    (tags.map fun tag => tag.map String.toList)
  have htext : tagsText gap tags = JsonText.array gap ((tags.map fun tag => tag.map String.toList).map
      fun tag => JsonText.array gap (tag.map JsonText.string)) := by
    rw [tagsText, List.map_map]
    refine congrArg _ (List.map_congr_left fun tag _ => ?_)
    rw [Function.comp_apply, List.map_map]
    exact congrArg _ (List.map_congr_left fun s _ => jsonText_eq s)
  have hback : ((tags.map fun tag => tag.map String.toList).map fun tag => tag.map String.ofList) =
      tags := by
    rw [List.map_map]
    refine (List.map_congr_left fun tag _ => ?_).trans (List.map_id tags)
    rw [Function.comp_apply, List.map_map]
    exact (List.map_congr_left fun s _ => String.ofList_toList).trans (List.map_id tag)
  rw [parseTags, htext, hparse, Option.map_some, hback]

theorem parseTags_toJSON (tags : List (List String)) : parseTags (toJSON tags) = some tags := by
  have h : parseTags (tagsText [] tags) = some tags :=
    parseTags_tagsText (fun _ hc => absurd hc List.not_mem_nil) tags
  exact h

/-! ### Rows that are sent, and rows of the model -/

/-- The row that is sent is this row, as far as `toNostrEvent` looks. -/
structure Represents (sent : SentRow) (row : EventRow) : Prop where
  eventId : sent.eventId = row.eventId
  eventPubkey : sent.eventPubkey = row.eventPubkey
  eventCreatedAt : sent.eventCreatedAt = row.eventCreatedAt
  eventKind : sent.eventKind = row.eventKind
  eventTags : parseTags sent.eventTags = some row.eventTags
  eventContent : sent.eventContent = row.eventContent
  eventSignature : sent.eventSignature = row.eventSignature

theorem represents_insertRow (now : ℕ) (event : IncomingEvent) :
    Represents (insertParameters event) (insertRow now event) :=
  ⟨rfl, rfl, rfl, rfl, parseTags_toJSON event.tags, rfl, rfl⟩

theorem represents_upsertRow (now : ℕ) (event : IncomingEvent) :
    Represents (upsertParameters event) (upsertRow now event) :=
  ⟨rfl, rfl, rfl, rfl, parseTags_toJSON event.tags, rfl, rfl⟩

/-- What is read back is the event of the row. -/
theorem comesBack_of_represents {D : Storage} (hD : D.Unchanged) {sent : SentRow} {row : EventRow}
    (h : Represents sent row) (hkind : InRange row.eventKind) (htime : InRange row.eventCreatedAt)
    (hcontent : textError row.eventContent = none)
    (htags : ∀ tag ∈ row.eventTags, ∀ s ∈ tag, textError s = none) :
    ComesBack D sent (toNostrEvent row) := by
  intro others
  refine ⟨toNostrEvent row, ?_, rfl, fun R => ⟨rfl, rfl⟩⟩
  rw [readBack, hD.jsonb _ _ h.eventTags htags, Option.map_some, Option.map_some, h.eventId,
    h.eventPubkey, h.eventCreatedAt, h.eventKind, h.eventContent, h.eventSignature, hD.bytea,
    hD.bytea, hD.bytea, hD.integer _ htime, hD.integer _ hkind, hD.text _ hcontent, Int.toNat_natCast]
  rfl

/-- The row of an event that the schema accepts holds this event. -/
theorem toNostrEvent_insertRow {event : IncomingEvent} (h : eventSchema event.toEvent = true)
    (now : ℕ) : toNostrEvent (insertRow now event) = event.toEvent := by
  obtain ⟨hid, hpubkey, -, -, -, hsig⟩ := eventSchema_eq_true_iff.mp h
  rw [toNostrEvent, insertRow]
  dsimp only
  rw [toHex_toBuffer hid rfl, toHex_toBuffer hpubkey rfl, toHex_toBuffer hsig rfl]

/-- **Storing and reading an event is lossless**, by either statement. -/
theorem lossless {D : Storage} (hD : D.Unchanged) {event : IncomingEvent}
    (hschema : eventSchema event.toEvent = true) (hkind : InRange event.kind)
    (htime : InRange event.createdAt) (hnul : NoNul event.toEvent) :
    ComesBack D (insertParameters event) event.toEvent ∧
      ComesBack D (upsertParameters event) event.toEvent := by
  -- both rows hold the same event
  have hinsert := toNostrEvent_insertRow hschema 0
  have hupsert : toNostrEvent (upsertRow 0 event) = event.toEvent := hinsert
  constructor
  · rw [← hinsert]
    exact comesBack_of_represents hD (represents_insertRow 0 event) hkind htime hnul.1 hnul.2
  · rw [← hupsert]
    exact comesBack_of_represents hD (represents_upsertRow 0 event) hkind htime hnul.1 hnul.2

/-! ### A database that spaces its arrays -/

/-- A `jsonb` array comes back with a space behind each comma. -/
def spacing : Storage where
  bytea b := b
  integer n := n
  text s := s
  jsonb text :=
    match parseTags text with
    | some tags => tagsText [' '] tags
    | none => text

theorem unchanged_spacing : spacing.Unchanged where
  bytea _ := rfl
  integer _ _ := rfl
  text _ _ := rfl
  jsonb text tags h _ := by
    have hjsonb : spacing.jsonb text = tagsText [' '] tags := by
      simp only [spacing, h]
    rw [hjsonb]
    exact parseTags_tagsText (List.forall_mem_singleton.mpr rfl) tags

/-- A long-form note with quotes, a backslash and a line break. -/
def quotation : IncomingEvent where
  id := "86e50107226a1890472cfdcde525a35858bd0a2d23b23e01695f33009e9bd526"
  pubkey := "f9308a019258c31049344f85f89d5229b531c845836f99b08601f113bce036f9"
  createdAt := 1700000000
  kind := 30023
  tags := [["d", "a \"b\""], ["t", "c\\d", ""], ["subject", "one\ntwo"]]
  content := "she said \"no\"\n"
  sig := "4540d986540cc3f124016539074e80092c389d726e1f79bafb2f3b54ebbc5d67" ++
    "93308a66dc33e8272d3b2cd6cfa5712a387db3e585c4d478f989be992bad8566"
  remoteAddress := none
  expiration := none
  deduplication := some ["a \"b\""]

theorem lossless_quotation :
    ComesBack spacing (insertParameters quotation) quotation.toEvent ∧
      ComesBack spacing (upsertParameters quotation) quotation.toEvent :=
  lossless unchanged_spacing (by decide +kernel) (by decide) (by decide)
    ⟨by decide +kernel, by decide +kernel⟩

end NostrMesh.Relay.Lossless
