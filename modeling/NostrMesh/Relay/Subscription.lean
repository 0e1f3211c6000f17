/-
NostrMesh/Relay/Subscription.lean

What a `REQ` is answered before the end of the stored events: `fetchAndSend`
runs the query, leaves out the rows that are marked as deleted and the events
that no filter matches, and sends the rest.

A condition on a tag is decided by the table `event_tags`.  `TagIndex` says
that this table holds exactly what the trigger writes for the rows of
`events`.  Every change keeps it (`TagIndex.change`), and with it
`mem_select_tagQuery` says which rows a query for one tag selects.
-/
import NostrMesh.Relay.Strategies

namespace NostrMesh.Relay

open Tables

/-! ### `fetchAndSend` -/

def isEventMatchingFilter (filter : SubscriptionFilter) (event : Event) : Bool :=
  filter.ids.all (fun ids => ids.any fun id => Js.startsWith event.id id) &&
    filter.kinds.all (fun kinds => event.kind ∈ kinds) &&
    filter.since.all (fun since => since ≤ event.createdAt) &&
    filter.untilTime.all (fun untilTime => event.createdAt ≤ untilTime) &&
    filter.authors.all (fun authors => authors.any fun pubkey => Js.startsWith event.pubkey pubkey) &&
    filter.tags.all fun entry => event.tags.any fun tag =>
      tag.head?.any (fun name => name.toList = [entry.1]) && tag[1]?.any fun value => value ∈ entry.2

/-- The events of the rows that the query found. -/
def sendable (filters : List SubscriptionFilter) (rows : List EventRow) : List Event :=
  ((rows.filter fun row => row.deletedAt.isNone).map toNostrEvent).filter fun event =>
    filters.any fun filter => isEventMatchingFilter filter event

def fetchAndSend (fault : Option DbError) (filters : List SubscriptionFilter) (db : Database)
    (order : RowOrder := tableOrder) : Except DbError (List Event) :=
  match findByFilters fault filters db order with
  | .error e => .error e
  | .ok rows => .ok (sendable filters rows)

variable {db : Database} {row old new : EventRow} {t : EventTagRow}

theorem mem_sendable {filters : List SubscriptionFilter} {rows : List EventRow} {event : Event} :
    event ∈ sendable filters rows ↔
      (∃ row ∈ rows, row.deletedAt = none ∧ toNostrEvent row = event) ∧
        ∃ filter ∈ filters, isEventMatchingFilter filter event = true := by
  simp only [sendable, List.mem_filter, List.mem_map, List.any_eq_true, Option.isNone_iff_eq_none,
    and_assoc]

/-- The number of joined rows that the query for the filter takes. -/
def SubscriptionFilter.window (f : SubscriptionFilter) : ℕ := f.limit.getD 500

theorem orderAndLimit_eq (f : SubscriptionFilter) (rows : List EventRow) (order : RowOrder) :
    orderAndLimit f rows order = (order.arrange f rows).take f.window := by
  rw [orderAndLimit, SubscriptionFilter.window]
  rcases f.limit with - | limit <;> rfl

/-- Order and limit add no row. -/
theorem mem_of_mem_orderAndLimit {f : SubscriptionFilter} {rows : List EventRow} {order : RowOrder}
    (h : row ∈ orderAndLimit f rows order) : row ∈ rows := by
  rw [orderAndLimit_eq] at h
  exact (order.perm f rows).mem_iff.mp (List.mem_of_mem_take h)

/-- The rows of `event_tags` that the join puts beside a row. -/
theorem some_mem_joinedTags {f : SubscriptionFilter} (hquery : f.isTagQuery = true) :
    some t ∈ joinedTags db f row ↔ t ∈ db.eventTags ∧ t.eventId = row.eventId := by
  simp only [joinedTags, hquery, if_true]
  split
  · next hnil =>
    have hnone := List.filter_eq_nil_iff.mp hnil t
    simpa using hnone
  · simp [List.mem_filter]

/-- A row is selected if the conditions hold beside one of its joined rows. -/
theorem mem_select {f : SubscriptionFilter} : row ∈ select db f ↔
    row ∈ db.events ∧ ∃ tag ∈ joinedTags db f row, f.conditions row tag = true := by
  simp only [select, List.mem_flatMap, List.mem_map, List.mem_filter]
  constructor
  · rintro ⟨r, hr, tag, ⟨htag, hconditions⟩, rfl⟩
    exact ⟨hr, tag, htag, hconditions⟩
  · rintro ⟨hrow, tag, htag, hconditions⟩
    exact ⟨row, hrow, tag, ⟨htag, hconditions⟩, rfl⟩

/-- A query finds rows of the table. -/
theorem mem_events_of_mem_runQuery {filters : List SubscriptionFilter} {order : RowOrder}
    (h : row ∈ runQuery db filters order) : row ∈ db.events := by
  rcases filters with - | ⟨f, - | ⟨g, gs⟩⟩
  · cases h
  · exact (mem_select.mp (mem_of_mem_orderAndLimit h)).1
  · rcases List.mem_append.mp (List.mem_dedup.mp (mem_of_mem_orderAndLimit h)) with hf | hgs
    · exact (mem_select.mp hf).1
    · obtain ⟨f', -, hf'⟩ := List.mem_flatMap.mp hgs
      exact (mem_select.mp (mem_of_mem_orderAndLimit hf')).1

/-- A query that succeeds answers the rows that it finds. -/
theorem findByFilters_ok {fault : Option DbError} {filters : List SubscriptionFilter}
    {rows : List EventRow} {order : RowOrder} (h : findByFilters fault filters db order = .ok rows) :
    rows = runQuery db filters order := by
  simp only [findByFilters] at h
  split_ifs at h
  split at h
  · cases h
  · exact (Except.ok.inj h).symm

/-! ### The tag index -/

/-- `event_tags` holds what the trigger writes for the rows of `events`. -/
def TagIndex (db : Database) : Prop :=
  ∀ t, t ∈ db.eventTags ↔ ∃ row ∈ db.events, t ∈ tagRows row

/-- No two rows have one id. -/
def UniqueIds (rows : List EventRow) : Prop :=
  ∀ r ∈ rows, ∀ s ∈ rows, r.eventId = s.eventId → r = s

theorem eventId_of_mem_tagRows (h : t ∈ tagRows row) : t.eventId = row.eventId := by
  obtain ⟨tag, -, htag⟩ := List.mem_filterMap.mp h
  split at htag
  · simp only [Option.ite_none_right_eq_some, Option.some.injEq] at htag
    rw [← htag.2]
  · cases htag

theorem TagIndex.insert (h : TagIndex db) : TagIndex (db.change (.insert new)) := by
  intro t
  simp only [Database.change, processEventTags, Change.apply, List.mem_append, h t,
    List.mem_singleton]
  constructor
  · rintro (⟨row, hrow, ht⟩ | ht)
    · exact ⟨row, Or.inl hrow, ht⟩
    · exact ⟨new, Or.inr rfl, ht⟩
  · rintro ⟨row, hrow | rfl, ht⟩
    · exact Or.inl ⟨row, hrow, ht⟩
    · exact Or.inr ht

/-- An update takes away the entries of the old row, and no others: the id
tells them apart. -/
theorem TagIndex.update (h : TagIndex db) (hids : UniqueIds db.events) (hold : old ∈ db.events) :
    TagIndex (db.change (.update old new)) := by
  intro t
  have hrows : ∀ r, r ∈ (Change.update old new).apply db.events ↔ r = new ∨ r ∈ db.events ∧ r ≠ old :=
    fun r => mem_apply_update hold
  simp only [Database.change, processEventTags, deleteTagRows, List.mem_append, List.mem_filter,
    h t, decide_eq_true_eq, hrows]
  constructor
  · rintro (⟨⟨row, hrow, ht⟩, hne⟩ | ht)
    · refine ⟨row, Or.inr ⟨hrow, ?_⟩, ht⟩
      rintro rfl
      exact hne (eventId_of_mem_tagRows ht)
    · exact ⟨new, Or.inl rfl, ht⟩
  · rintro ⟨row, rfl | ⟨hrow, hne⟩, ht⟩
    · exact Or.inr ht
    · refine Or.inl ⟨⟨row, hrow, ht⟩, fun heq => hne (hids row hrow old hold ?_)⟩
      rw [← heq, eventId_of_mem_tagRows ht]

/-- **Every change keeps the tag index.** -/
theorem TagIndex.change {c : Change EventRow} (h : TagIndex db) (hids : UniqueIds db.events)
    (hc : ∀ old new, c = .update old new → old ∈ db.events) : TagIndex (db.change c) := by
  cases c with
  | none => exact h
  | insert new => exact h.insert
  | update old new => exact h.update hids (hc old new rfl)

/-! ### Strings that the trigger leaves as they are -/

/-- A character that a JSON text has as it is. -/
def IsPlain (c : Char) : Prop := c ≠ '"' ∧ c ≠ '\\' ∧ 32 ≤ c.toNat

theorem jsonEscape_of_isPlain {c : Char} (h : IsPlain c) : jsonEscape c = [c] := by
  obtain ⟨hquote, hbackslash, hprintable⟩ := h
  simp only [jsonEscape]
  rw [if_neg hquote, if_neg hbackslash, if_neg (by omega), if_neg (by omega), if_neg (by omega),
    if_neg (by omega), if_neg (by omega), if_neg (by omega)]

theorem jsonText_of_isPlain {s : String} (h : ∀ c ∈ s.toList, IsPlain c) :
    jsonText s = '"' :: s.toList ++ ['"'] := by
  have hescape : ∀ cs : List Char, (∀ c ∈ cs, IsPlain c) → cs.flatMap jsonEscape = cs := by
    intro cs hcs
    induction cs with
    | nil => rfl
    | cons c cs ih =>
        rw [List.flatMap_cons, jsonEscape_of_isPlain (hcs c List.mem_cons_self),
          ih fun c hc => hcs c (List.mem_cons_of_mem _ hc), List.singleton_append]
  rw [jsonText, hescape _ h]

theorem dropWhile_quotes {cs : List Char} (h : ∀ c ∈ cs, IsPlain c) :
    cs.dropWhile (fun c => c = '"') = cs := by
  rcases cs with - | ⟨c, cs⟩
  · rfl
  · simp [(h c List.mem_cons_self).1]

/-- A tag name or value without quotes, backslashes and control characters
is indexed as it is. -/
theorem trimQuotes_jsonText {s : String} (h : ∀ c ∈ s.toList, IsPlain c) :
    trimQuotes (jsonText s) = s := by
  have hreverse : ∀ c ∈ s.toList.reverse, IsPlain c := fun c hc => h c (List.mem_reverse.mp hc)
  have hfront : ('"' :: s.toList ++ ['"']).dropWhile (fun c => c = '"')
      = s.toList ++ ['"'] ∨ s.toList = [] := by
    rcases hs : s.toList with - | ⟨c, cs⟩
    · exact Or.inr rfl
    · have hc := (h c (by rw [hs]; exact List.mem_cons_self)).1
      exact Or.inl (by simp [hc])
  rw [jsonText_of_isPlain h, trimQuotes]
  -- an empty text leaves nothing but quotes
  rcases hfront with hfront | hnil
  · rw [hfront]
    simp only [List.reverse_append, List.reverse_cons, List.reverse_nil, List.nil_append,
      List.singleton_append, List.dropWhile_cons, decide_true, if_true]
    rw [dropWhile_quotes hreverse, List.reverse_reverse, String.ofList_toList]
  · have : s = "" := String.toList_eq_nil_iff.mp hnil
    subst this
    decide

/-! ### A query for one tag -/

/-- `{ kinds, "#name": values, limit }`. -/
def tagQuery (kinds : List ℕ) (name : Char) (values : List String) (limit : ℕ) :
    SubscriptionFilter :=
  ⟨none, none, some kinds, none, none, some limit, [(name, values)]⟩

variable {kinds : List ℕ} {name : Char} {values : List String} {limit : ℕ}

/-- **A query for a tag** selects the rows of its kinds for which the trigger
wrote the tag with one of the values. -/
theorem mem_select_tagQuery (h : TagIndex db) (hids : UniqueIds db.events) :
    row ∈ select db (tagQuery kinds name values limit) ↔
      row ∈ db.events ∧ row.eventKind ∈ kinds ∧
        ∃ t ∈ tagRows row, t.tagName.toList = [name] ∧ t.tagValue ∈ values := by
  have hconditions : ∀ (r : EventRow) (tag : Option EventTagRow),
      (tagQuery kinds name values limit).conditions r tag = true ↔
        r.eventKind ∈ kinds ∧ ∃ t, tag = some t ∧ t.tagName.toList = [name] ∧ t.tagValue ∈ values := by
    intro r tag
    rcases tag with - | t
    · simp [SubscriptionFilter.conditions, tagQuery, prefixesMatch, tagMatches]
    · simp only [SubscriptionFilter.conditions, tagQuery, prefixesMatch, tagMatches, Bool.true_and,
        Option.all_some, Option.all_none, Bool.and_true, List.all_cons, List.all_nil,
        Option.any_some, List.any_eq_true, Bool.and_eq_true, decide_eq_true_eq,
        Option.some.injEq, exists_eq_left']
      constructor
      · rintro ⟨hkind, value, hvalue, hname, rfl⟩
        exact ⟨hkind, hname, hvalue⟩
      · rintro ⟨hkind, hname, hvalue⟩
        exact ⟨hkind, t.tagValue, hvalue, hname, rfl⟩
  have hquery : (tagQuery kinds name values limit).isTagQuery = true := rfl
  rw [mem_select]
  constructor
  · -- the joined row was written for this very row, as ids tell rows apart
    rintro ⟨hrow, tag, htag, hcond⟩
    obtain ⟨hkind, t, rfl, hname, hvalue⟩ := (hconditions row tag).mp hcond
    obtain ⟨ht, hid⟩ := (some_mem_joinedTags hquery).mp htag
    obtain ⟨s, hs, hts⟩ := (h t).mp ht
    obtain rfl := hids s hs row hrow ((eventId_of_mem_tagRows hts).symm.trans hid)
    exact ⟨hrow, hkind, t, hts, hname, hvalue⟩
  · rintro ⟨hrow, hkind, t, ht, hname, hvalue⟩
    refine ⟨hrow, some t, ?_, (hconditions row (some t)).mpr ⟨hkind, t, rfl, hname, hvalue⟩⟩
    exact (some_mem_joinedTags hquery).mpr ⟨(h t).mpr ⟨row, hrow, ht⟩, eventId_of_mem_tagRows ht⟩

/-- Order and limit take rows away, but not all of them. -/
theorem runQuery_single (db : Database) (order : RowOrder) {f : SubscriptionFilter} (hpos : 0 < f.window) :
    (∀ row ∈ runQuery db [f] order, row ∈ select db f) ∧
      (select db f ≠ [] → runQuery db [f] order ≠ []) := by
  refine ⟨fun row hrow => mem_of_mem_orderAndLimit hrow, fun hne hnil => ?_⟩
  rw [runQuery, orderAndLimit_eq, List.take_eq_nil_iff] at hnil
  rcases hnil with hzero | hnil
  · exact absurd hzero (Nat.ne_of_gt hpos)
  · exact hne (List.Perm.eq_nil (hnil ▸ (order.perm f (select db f)).symm))

end NostrMesh.Relay
