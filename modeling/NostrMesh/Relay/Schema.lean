/-
NostrMesh/Relay/Schema.lean

The relay's two tables, `events` and `event_tags`, and the unique indexes of
`events` before and after it is partitioned.

A row keeps the columns that the repository writes or reads; the generated
key `id` is left out.  A `Schema` lists the unique indexes by where they are
declared: on the table that statements name, or on a partition of it.  Both
kinds are enforced; only the first can be inferred by `ON CONFLICT`.

Migrations act on the schema: `migration20221224` gives the flat table its
`replaceable_events_idx`, `migration20240120` partitions the table, and
`migrate` is one run of the migrate job.
-/
import NostrMesh.Lib.Bytes
import NostrMesh.Lib.Table
import NostrMesh.Nostr.Event

namespace NostrMesh.Relay

open Tables

/-! ### Rows -/

/-- The value of the column `event_deduplication`: the JSON array of public
key and kind, or of the strings that follow `d` in the tag. -/
inductive Deduplication
  | ofPubkeyKind (pubkey : String) (kind : ℕ)
  | ofStrings (values : List String)
  deriving DecidableEq, Repr

/-- A row of `events`. -/
structure EventRow where
  eventId : Bytes
  eventPubkey : Bytes
  eventKind : ℕ
  eventCreatedAt : ℤ
  eventContent : String
  eventTags : List (List String)
  eventSignature : Bytes
  eventDeduplication : Option Deduplication
  remoteAddress : Option String
  expiresAt : Option ℤ
  firstSeen : ℕ
  deletedAt : Option ℕ
  deriving DecidableEq, Repr

/-- A row of `event_tags`. -/
structure EventTagRow where
  eventId : Bytes
  tagName : String
  tagValue : String
  deriving DecidableEq, Repr

/-- The tables. -/
structure Database where
  events : List EventRow
  eventTags : List EventTagRow
  deriving DecidableEq, Repr

/-! ### The trigger `insert_event_tags` -/

def hexDigitsOfByte (n : ℕ) : List Char := [Bytes.hexDigit (n / 16), Bytes.hexDigit (n % 16)]

/-- A character inside a JSON text. -/
def jsonEscape (c : Char) : List Char :=
  if c = '"' then ['\\', '"']
  else if c = '\\' then ['\\', '\\']
  else if c.toNat = 8 then ['\\', 'b']
  else if c.toNat = 12 then ['\\', 'f']
  else if c.toNat = 10 then ['\\', 'n']
  else if c.toNat = 13 then ['\\', 'r']
  else if c.toNat = 9 then ['\\', 't']
  else if c.toNat < 32 then ['\\', 'u', '0', '0'] ++ hexDigitsOfByte c.toNat
  else [c]

/-- `value::text` of a JSON string. -/
def jsonText (s : String) : List Char := '"' :: s.toList.flatMap jsonEscape ++ ['"']

/-- `trim(text, '"')`. -/
def trimQuotes (cs : List Char) : String :=
  let dropQuotes := List.dropWhile fun c : Char => c = '"'
  String.ofList (dropQuotes (dropQuotes cs).reverse).reverse

/-- The rows of `event_tags` that the trigger writes for a row of `events`. -/
def tagRows (row : EventRow) : List EventTagRow :=
  row.eventTags.filterMap fun tag =>
    match tag[0]?, tag[1]? with
    | some name, some value =>
        let tagName := trimQuotes (jsonText name)
        let tagValue := trimQuotes (jsonText value)
        if tagName.toList.length = 1 ∧ tagValue ≠ "" then some ⟨row.eventId, tagName, tagValue⟩
        else none
    | _, _ => none

def deleteTagRows (row : EventRow) (tags : List EventTagRow) : List EventTagRow :=
  tags.filter fun t => t.eventId ≠ row.eventId

/-- The trigger, after one change of `events`. -/
def processEventTags : Change EventRow → List EventTagRow → List EventTagRow
  | .none, tags => tags
  | .insert new, tags => tags ++ tagRows new
  | .update old new, tags => deleteTagRows old tags ++ tagRows new

/-- A change of `events` and the trigger that follows it. -/
def Database.change (db : Database) (c : Change EventRow) : Database :=
  ⟨c.apply db.events, processEventTags c db.eventTags⟩

@[simp] theorem Database.change_events (db : Database) (c : Change EventRow) :
    (db.change c).events = c.apply db.events := rfl

@[simp] theorem Database.change_none (db : Database) : db.change .none = db := rfl

/-! ### Unique indexes -/

inductive Column
  | eventId
  | eventPubkey
  | eventKind
  | eventDeduplication
  deriving DecidableEq, Repr

/-- The value of a column in an index key. -/
inductive ColumnValue
  | bytea (b : Bytes)
  | integer (n : ℕ)
  | jsonb (d : Deduplication)
  deriving DecidableEq, Repr

/-- A column of a row, `none` where it is null. -/
def EventRow.column (row : EventRow) : Column → Option ColumnValue
  | .eventId => some (.bytea row.eventId)
  | .eventPubkey => some (.bytea row.eventPubkey)
  | .eventKind => some (.integer row.eventKind)
  | .eventDeduplication => row.eventDeduplication.map .jsonb

/-- A condition on `event_kind`: it lies in one of these ranges. -/
abbrev KindRanges := List (ℕ × ℕ)

def KindRanges.holds (ranges : KindRanges) (kind : ℕ) : Bool :=
  ranges.any fun r => r.1 ≤ kind && kind < r.2

/-- The declaration of a unique index. -/
structure IndexDef where
  name : String
  columns : List Column
  predicate : Option KindRanges
  deriving DecidableEq, Repr

/-- The key of a row: `none` where the predicate is false or a column is
null. -/
def IndexDef.key (ix : IndexDef) (row : EventRow) : Option (List ColumnValue) :=
  if ix.predicate.all fun p => p.holds row.eventKind then ix.columns.mapM row.column else none

def IndexDef.toUniqueIndex (ix : IndexDef) : UniqueIndex EventRow (List ColumnValue) :=
  ⟨ix.name, ix.key⟩

/-! ### Schemas and migrations -/

/-- The unique indexes of `events`. -/
structure Schema where
  onTable : List IndexDef
  onPartition : List IndexDef
  deriving DecidableEq, Repr

namespace Schema

/-- The indexes that an insert into `events` has to respect. -/
def enforced (S : Schema) : List (UniqueIndex EventRow (List ColumnValue)) :=
  (S.onTable ++ S.onPartition).map IndexDef.toUniqueIndex

/-- The index that `ON CONFLICT (columns) WHERE predicate` infers: one that
is declared on the target table itself. -/
def infer (S : Schema) (columns : List Column) (predicate : KindRanges) : Option IndexDef :=
  S.onTable.find? fun ix => ix.columns = columns ∧ ix.predicate.all fun p => p = predicate

def dropIndex (name : String) (S : Schema) : Schema :=
  ⟨S.onTable.filter fun ix => ix.name ≠ name, S.onPartition.filter fun ix => ix.name ≠ name⟩

end Schema

/-- `event_kind = 0 OR event_kind = 3 OR event_kind = 41 OR (event_kind >=
10000 AND event_kind < 20000) OR (event_kind >= 30000 AND event_kind < 40000)`. -/
def replaceableKinds : KindRanges := [(0, 1), (3, 4), (41, 42), (10000, 20000), (30000, 40000)]

/-- The columns of `replaceable_events_idx`. -/
def addressColumns : List Column := [.eventPubkey, .eventKind, .eventDeduplication]

def replaceableEventsIdx : IndexDef :=
  ⟨"replaceable_events_idx", addressColumns, some replaceableKinds⟩

/-- The constraint that `createTable` adds for `event_id`. -/
def eventIdUnique : IndexDef := ⟨"events_event_id_unique", [.eventId], none⟩

def eventsHotEventIdIdx : IndexDef := ⟨"events_hot_event_id_idx", [.eventId], none⟩

/-- `20221224_164100_add_group_chat_to_replaceable_events_unique_index`. -/
def migration20221224 (S : Schema) : Schema :=
  let S := S.dropIndex "replaceable_events_idx"
  ⟨S.onTable ++ [replaceableEventsIdx], S.onPartition⟩

/-- `20240120_000000_partition_events_table`: the old table goes with its
constraint, and both unique indexes are created again on the partition
`events_hot`. -/
def migration20240120 (_ : Schema) : Schema :=
  ⟨[], [eventsHotEventIdIdx, replaceableEventsIdx]⟩

/-- The flat table. -/
def flatSchema : Schema := migration20221224 ⟨[eventIdUnique], []⟩

/-- The partitioned table as the migration leaves it. -/
def partitionedSchema : Schema := migration20240120 flatSchema

/-- One run of the migrate job: it drops `public.replaceable_events_idx`,
and then applies the pending migrations. -/
def migrate (pending : List (Schema → Schema)) (S : Schema) : Schema :=
  pending.foldl (fun S m => m S) (S.dropIndex "replaceable_events_idx")

end NostrMesh.Relay
