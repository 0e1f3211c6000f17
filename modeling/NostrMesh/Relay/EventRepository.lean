/-
NostrMesh/Relay/EventRepository.lean

The relay's event repository: `create`, `upsert`, `deleteByPubkeyAndIds` and
`findByFilters`, as the statements they send to PostgreSQL.

A statement first converts its parameters (an integer column takes four
bytes, a text column no NUL character), and then runs against the tables; if
either step raises an error the tables stay as they are.  Besides, a
statement may fail for reasons of its own (a lost connection, a full disk):
that is the parameter `fault`.

PostgreSQL leaves the order of rows of one `created_at` open, in each query
anew; that is the parameter `order` (`RowOrder`), and `tableOrder` where it is
not given.
-/
import Mathlib.Data.List.Dedup
import Mathlib.Data.List.Sort
import NostrMesh.Lib.Js
import NostrMesh.Relay.Schema

namespace NostrMesh.Relay

open Tables

/-! ### Events and filters as the repository receives them -/

/-- An event with the metadata that the handlers attach to it. -/
structure IncomingEvent extends Event where
  remoteAddress : Option String
  expiration : Option ℤ
  deduplication : Option (List String)
  deriving DecidableEq, Repr

/-- A filter; `tags` are its `#x` entries. -/
structure SubscriptionFilter where
  ids : Option (List String)
  authors : Option (List String)
  kinds : Option (List ℕ)
  since : Option ℤ
  untilTime : Option ℤ
  limit : Option ℕ
  tags : List (Char × List String)
  deriving DecidableEq, Repr

/-! ### Errors -/

inductive DbError
  | noMatchingConstraint
  | uniqueViolation (constraint : String)
  | integerOutOfRange (value : ℤ)
  | invalidText
  | invalidHexadecimal (text : String)
  | ambiguousColumn (column : String)
  | emptyFilters
  | failed (message : String)
  deriving DecidableEq, Repr

/-- The text of an error. -/
def DbError.message : DbError → String
  | noMatchingConstraint =>
      "there is no unique or exclusion constraint matching the ON CONFLICT specification"
  | uniqueViolation constraint =>
      "duplicate key value violates unique constraint \"" ++ constraint ++ "\""
  | integerOutOfRange value => "value \"" ++ toString value ++ "\" is out of range for type integer"
  | invalidText => "invalid byte sequence for encoding \"UTF8\": 0x00"
  | invalidHexadecimal text => "invalid hexadecimal data: \"" ++ text ++ "\""
  | ambiguousColumn column => "column reference \"" ++ column ++ "\" is ambiguous"
  | emptyFilters => "Filters cannot be empty"
  | failed message => message

/-! ### Parameters -/

/-- A parameter of type `integer`. -/
def integerError (n : ℤ) : Option DbError :=
  if -2147483648 ≤ n ∧ n ≤ 2147483647 then none else some (.integerOutOfRange n)

/-- A parameter of type `text` or `jsonb`. -/
def textError (s : String) : Option DbError :=
  if (Char.ofNat 0) ∈ s.toList then some .invalidText else none

def Deduplication.error : Deduplication → Option DbError
  | .ofPubkeyKind pubkey _ => textError pubkey
  | .ofStrings values => values.findSome? textError

/-- The first parameter of an insert that its column does not take; the
columns are sent in the order of their names. -/
def EventRow.columnError (row : EventRow) : Option DbError :=
  textError row.eventContent
    <|> integerError row.eventCreatedAt
    <|> row.eventDeduplication.bind Deduplication.error
    <|> integerError row.eventKind
    <|> row.eventTags.flatten.findSome? textError
    <|> row.expiresAt.bind integerError
    <|> row.remoteAddress.bind textError

/-! ### `create` -/

def toBuffer (s : String) : Bytes := Bytes.ofHex s

/-- The row that `insert` sends: no deduplication. -/
def insertRow (now : ℕ) (event : IncomingEvent) : EventRow where
  eventId := toBuffer event.id
  eventPubkey := toBuffer event.pubkey
  eventKind := event.kind
  eventCreatedAt := event.createdAt
  eventContent := event.content
  eventTags := event.tags
  eventSignature := toBuffer event.sig
  eventDeduplication := none
  remoteAddress := event.remoteAddress
  expiresAt := event.expiration
  firstSeen := now
  deletedAt := none

/-- The change that a statement makes, unless it raises an error. -/
abbrev Statement := Except DbError (Change EventRow)

/-- The statement's answer and the tables after it. -/
def Statement.exec (stmt : Statement) (db : Database) : Except DbError ℕ × Database :=
  match stmt with
  | .error e => (.error e, db)
  | .ok c => (.ok c.rowCount, db.change c)

/-- Parameters and faults come before the statement itself. -/
def guarded (fault : Option DbError) (row : EventRow) (stmt : Statement) : Statement :=
  match fault <|> row.columnError with
  | some e => .error e
  | none => stmt

/-- `INSERT INTO events … ON CONFLICT DO NOTHING`. -/
def insert (S : Schema) (fault : Option DbError) (now : ℕ) (event : IncomingEvent)
    (db : Database) : Statement :=
  guarded fault (insertRow now event)
    (.ok (insertIgnore S.enforced (insertRow now event) db.events))

/-- `create`: the row count, and 0 for an insert that raises an error. -/
def create (S : Schema) (fault : Option DbError) (now : ℕ) (event : IncomingEvent)
    (db : Database) : ℕ × Database :=
  match (insert S fault now event db).exec db with
  | (.ok rowCount, db') => (rowCount, db')
  | (.error _, db') => (0, db')

/-! ### `upsert` -/

/-- The deduplication value of an event: what the strategy attached, or else
public key and kind. -/
def deduplicationOf (event : IncomingEvent) : Deduplication :=
  match event.deduplication with
  | none => .ofPubkeyKind event.pubkey event.kind
  | some values => .ofStrings values

def upsertRow (now : ℕ) (event : IncomingEvent) : EventRow :=
  { insertRow now event with eventDeduplication := some (deduplicationOf event) }

/-- `.merge(…)`: every column sent but the conflict columns.  An address that
is not there is not sent, and `first_seen` never is. -/
def mergeRow (row old : EventRow) : EventRow :=
  { row with
    eventPubkey := old.eventPubkey
    eventKind := old.eventKind
    eventDeduplication := old.eventDeduplication
    remoteAddress := row.remoteAddress <|> old.remoteAddress
    firstSeen := old.firstSeen }

/-- `INSERT INTO events … ON CONFLICT (…) WHERE … DO UPDATE SET … WHERE
events.event_created_at < …`. -/
def upsertStatement (S : Schema) (fault : Option DbError) (now : ℕ) (event : IncomingEvent)
    (db : Database) : Statement :=
  let row := upsertRow now event
  guarded fault row <|
    match S.infer addressColumns replaceableKinds with
    | none => .error .noMatchingConstraint
    | some arbiter =>
        match Tables.upsert S.enforced arbiter.toUniqueIndex
            (fun old => old.eventCreatedAt < row.eventCreatedAt) (mergeRow row) row db.events with
        | .error constraint => .error (.uniqueViolation constraint)
        | .ok c => .ok c

def upsert (S : Schema) (fault : Option DbError) (now : ℕ) (event : IncomingEvent)
    (db : Database) : Except DbError ℕ × Database :=
  (upsertStatement S fault now event db).exec db

/-! ### `deleteByPubkeyAndIds` -/

/-- `WHERE event_pubkey = … AND event_id IN (…) AND deleted_at IS NULL`. -/
def deletable (pubkey : String) (eventIdsToDelete : List String) (row : EventRow) : Bool :=
  row.eventPubkey = toBuffer pubkey && row.eventId ∈ eventIdsToDelete.map toBuffer &&
    row.deletedAt.isNone

/-- `UPDATE events SET deleted_at = now()`, row by row. -/
def markDeleted (now : ℕ) (targets : List EventRow) (db : Database) : Database :=
  targets.foldl (fun db row => db.change (.update row { row with deletedAt := some now })) db

def deleteByPubkeyAndIds (fault : Option DbError) (now : ℕ) (pubkey : String)
    (eventIdsToDelete : List String) (db : Database) : Except DbError ℕ × Database :=
  match fault with
  | some e => (.error e, db)
  | none =>
      let targets := db.events.filter (deletable pubkey eventIdsToDelete)
      (.ok targets.length, markDeleted now targets db)

/-! ### `findByFilters` -/

/-- A `bytea` literal `\x…`. -/
def byteaError (text : String) : Option DbError :=
  if text.toList.length % 2 = 0 ∧ text.toList.all fun c => (Bytes.hexVal c).isSome then none
  else some (.invalidHexadecimal text)

/-- The condition for one entry of `ids` or `authors`: the whole value, a
beginning of whole bytes, or a beginning that ends within a byte. -/
def prefixMatches (value : Bytes) (entry : String) : Bool :=
  if Js.length entry = 64 then value = toBuffer entry
  else if Js.length entry % 2 = 0 then value.take (Js.length entry / 2) = toBuffer entry
  else
    let start := value.take (Js.length entry / 2 + 1)
    Bytes.le (toBuffer (entry ++ "0")) start && Bytes.le start (toBuffer (entry ++ "f"))

def prefixErrors (entries : Option (List String)) : Option DbError :=
  (entries.getD []).findSome? fun entry =>
    if Js.length entry % 2 = 0 then none
    else byteaError (entry ++ "0") <|> byteaError (entry ++ "f")

/-- The condition for `ids` or `authors`: an empty list matches nothing. -/
def prefixesMatch (entries : Option (List String)) (value : Bytes) : Bool :=
  match entries with
  | none => true
  | some entries => entries.any (prefixMatches value)

/-- The condition for one `#x` entry, on the joined row of `event_tags`. -/
def tagMatches (tag : Option EventTagRow) (entry : Char × List String) : Bool :=
  entry.2.any fun criterion =>
    tag.any fun t => t.tagName.toList = [entry.1] && t.tagValue = criterion

namespace SubscriptionFilter

def isTagQuery (f : SubscriptionFilter) : Bool := !f.tags.isEmpty

/-- The conditions of one filter, on a row of `events` and the row of
`event_tags` joined to it. -/
def conditions (f : SubscriptionFilter) (row : EventRow) (tag : Option EventTagRow) : Bool :=
  prefixesMatch f.authors row.eventPubkey && prefixesMatch f.ids row.eventId &&
    f.kinds.all (fun kinds => row.eventKind ∈ kinds) &&
    f.since.all (fun since => since ≤ row.eventCreatedAt) &&
    f.untilTime.all (fun untilTime => row.eventCreatedAt ≤ untilTime) &&
    f.tags.all (tagMatches tag)

/-- The errors of one filter.  With the join, the column `event_id` stands in
both tables, so that a condition on it is refused. -/
def error (f : SubscriptionFilter) : Option DbError :=
  prefixErrors f.authors
    <|> prefixErrors f.ids
    <|> (f.kinds.getD []).findSome? (fun kind => integerError kind)
    <|> f.since.bind integerError
    <|> f.untilTime.bind integerError
    <|> (f.tags.flatMap Prod.snd).findSome? textError

def ambiguous (f : SubscriptionFilter) : Bool :=
  f.isTagQuery && !(f.ids.getD []).isEmpty

end SubscriptionFilter

/-- `LEFT JOIN event_tags ON events.event_id = event_tags.event_id`, for the
queries that need it. -/
def joinedTags (db : Database) (f : SubscriptionFilter) (row : EventRow) :
    List (Option EventTagRow) :=
  if f.isTagQuery then
    match db.eventTags.filter fun t => t.eventId = row.eventId with
    | [] => [none]
    | tags => tags.map some
  else [none]

/-- The rows that one filter selects, before order and limit. -/
def select (db : Database) (f : SubscriptionFilter) : List EventRow :=
  db.events.flatMap fun row =>
    ((joinedTags db f row).filter (f.conditions row)).map fun _ => row

/-- How the rows of a query come: `ORDER BY event_created_at desc` if the
filter has a limit, or else `asc`.  Rows of one time come as PostgreSQL finds
them. -/
structure RowOrder where
  arrange : SubscriptionFilter → List EventRow → List EventRow
  perm (f : SubscriptionFilter) (rows : List EventRow) : (arrange f rows).Perm rows
  newestFirst (f : SubscriptionFilter) (rows : List EventRow) (hlimit : f.limit.isSome = true) :
    (arrange f rows).Pairwise fun r s => s.eventCreatedAt ≤ r.eventCreatedAt
  oldestFirst (f : SubscriptionFilter) (rows : List EventRow) (hlimit : f.limit.isSome = false) :
    (arrange f rows).Pairwise fun r s => r.eventCreatedAt ≤ s.eventCreatedAt

/-- Rows of one time come as they stand in the table. -/
def tableOrder : RowOrder where
  arrange f rows :=
    if f.limit.isSome then rows.insertionSort fun r s => s.eventCreatedAt ≤ r.eventCreatedAt
    else rows.insertionSort fun r s => r.eventCreatedAt ≤ s.eventCreatedAt
  perm f rows := by
    split
    · exact List.perm_insertionSort _ rows
    · exact List.perm_insertionSort _ rows
  newestFirst f rows hlimit := by
    have : Std.Total fun r s : EventRow => s.eventCreatedAt ≤ r.eventCreatedAt :=
      ⟨fun r s => le_total _ _⟩
    have : IsTrans EventRow fun r s => s.eventCreatedAt ≤ r.eventCreatedAt :=
      ⟨fun _ _ _ h₁ h₂ => h₂.trans h₁⟩
    rw [if_pos hlimit]
    exact List.pairwise_insertionSort _ rows
  oldestFirst f rows hlimit := by
    have : Std.Total fun r s : EventRow => r.eventCreatedAt ≤ s.eventCreatedAt :=
      ⟨fun r s => le_total _ _⟩
    have : IsTrans EventRow fun r s => r.eventCreatedAt ≤ s.eventCreatedAt :=
      ⟨fun _ _ _ h₁ h₂ => h₁.trans h₂⟩
    rw [if_neg (by rw [hlimit]; exact Bool.false_ne_true)]
    exact List.pairwise_insertionSort _ rows

/-- The newest `limit` rows, newest first, or else the oldest 500. -/
def orderAndLimit (f : SubscriptionFilter) (rows : List EventRow) (order : RowOrder) :
    List EventRow :=
  match f.limit with
  | some limit => (order.arrange f rows).take limit
  | none => (order.arrange f rows).take 500

/-- The query: the conditions of the first filter, united with the other
queries in parentheses, and then the order and the limit of the first. -/
def runQuery (db : Database) (filters : List SubscriptionFilter) (order : RowOrder := tableOrder) :
    List EventRow :=
  match filters with
  | [] => []
  | [f] => orderAndLimit f (select db f) order
  | f :: fs =>
      orderAndLimit f
        (select db f ++ fs.flatMap fun g => orderAndLimit g (select db g) order).dedup order

def findByFilters (fault : Option DbError) (filters : List SubscriptionFilter) (db : Database)
    (order : RowOrder := tableOrder) : Except DbError (List EventRow) :=
  if filters.isEmpty then .error .emptyFilters
  else if filters.any SubscriptionFilter.ambiguous then .error (.ambiguousColumn "event_id")
  else
    match fault <|> filters.findSome? SubscriptionFilter.error with
    | some e => .error e
    | none => .ok (runQuery db filters order)

/-- The event of a row. -/
def toNostrEvent (row : EventRow) : Event where
  id := Bytes.toHex row.eventId
  pubkey := Bytes.toHex row.eventPubkey
  createdAt := row.eventCreatedAt
  kind := row.eventKind
  tags := row.eventTags
  content := row.eventContent
  sig := Bytes.toHex row.eventSignature

end NostrMesh.Relay
