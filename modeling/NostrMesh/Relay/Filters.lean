/-
NostrMesh/Relay/Filters.lean

The filter language of the relay, which is implemented twice: as a predicate
on events (`isEventMatchingFilter`, for live events) and as conditions on the
rows of a query (`select`, for stored ones).

The two agree criterion by criterion.  For prefixes of ids and public keys
this is `prefixMatches_iff`; a tag criterion is decided by the row of
`event_tags` that is joined, and agrees as long as the table holds the tags of
the events (`ExactTags`).  They do not agree on filters that SQL does not get
right (`Expressible`): two tag criteria would have to hold of one and the same
joined row, a criterion on ids is ambiguous next to the join, and numbers or
texts that PostgreSQL does not take make the query fail.  `agrees_iff` says
that these are the only exceptions, for texts without unpaired surrogates
(PostgreSQL does not take those as they are).
-/
import NostrMesh.Relay.Subscription

namespace NostrMesh.Relay

/-! ### `filterSchema` -/

def prefixSchema (s : String) : Bool :=
  s.toList.all Bytes.isLowerHex && 4 ≤ Js.length s && Js.length s ≤ 64

/-- Numbers that are not safe integers are refused. -/
def kindSchema (kind : ℕ) : Bool := kind ≤ 9007199254740991

def createdAtSchema (time : ℤ) : Bool := 0 ≤ time && time < 10000000000

/-- `/^#[a-z]$/` and its value. -/
def tagCriterionSchema (entry : Char × List String) : Bool :=
  97 ≤ entry.1.toNat && entry.1.toNat ≤ 122 &&
    entry.2.all fun value => value ≠ "" && Js.length value ≤ 1024

/-- A filter is an object, so that its tag criteria have different names. -/
def filterSchema (f : SubscriptionFilter) : Bool :=
  f.ids.all (fun ids => ids.all prefixSchema) && f.authors.all (fun authors => authors.all prefixSchema) &&
    f.kinds.all (fun kinds => kinds.all kindSchema) && f.since.all createdAtSchema &&
    f.untilTime.all createdAtSchema && f.limit.all (fun limit => limit ≤ 9007199254740991) &&
    f.tags.all tagCriterionSchema && decide (f.tags.map Prod.fst).Nodup

/-- What the proofs use of the schema. -/
structure WellFormed (f : SubscriptionFilter) : Prop where
  ids : ∀ ids, f.ids = some ids → ∀ entry ∈ ids, prefixSchema entry = true
  authors : ∀ authors, f.authors = some authors → ∀ entry ∈ authors, prefixSchema entry = true
  tags : ∀ entry ∈ f.tags, tagCriterionSchema entry = true
  names : (f.tags.map Prod.fst).Nodup

theorem wellFormed_of_filterSchema {f : SubscriptionFilter} (h : filterSchema f = true) :
    WellFormed f := by
  simp only [filterSchema, Bool.and_eq_true, Option.all_eq_true, List.all_eq_true,
    decide_eq_true_eq] at h
  obtain ⟨⟨⟨⟨⟨⟨⟨hids, hauthors⟩, -⟩, -⟩, -⟩, -⟩, htags⟩, hnames⟩ := h
  exact ⟨hids, hauthors, htags, hnames⟩

/-! ### Prefixes -/

theorem toNat_le_of_isLowerHex {c : Char} (h : Bytes.isLowerHex c = true) : c.toNat ≤ 0xFFFF := by
  simp only [Bytes.isLowerHex, Bool.or_eq_true, Bool.and_eq_true, decide_eq_true_eq] at h
  omega

/-- **A prefix condition** holds of the values whose hexadecimal form starts
with the prefix. -/
theorem prefixMatches_iff {value : Bytes} {entry : String} (hvalue : value.length = 32)
    (hhex : ∀ c ∈ entry.toList, Bytes.isLowerHex c = true) (hlength : entry.toList.length ≤ 64) :
    prefixMatches value entry = true ↔ Js.startsWith (Bytes.toHex value) entry = true := by
  have hlen : Js.length entry = entry.toList.length :=
    Js.length_of_forall_le fun c hc => toNat_le_of_isLowerHex (hhex c hc)
  rw [prefixMatches, hlen, Js.startsWith, Bytes.toHex, String.toList_ofList, List.isPrefixOf_iff_prefix]
  -- the whole value, whole bytes, and half of a byte
  by_cases h64 : entry.toList.length = 64
  · rw [if_pos h64, decide_eq_true_eq, ← Bytes.take_eq_ofHexChars_iff (by omega) hhex,
      List.take_of_length_le (by omega)]
    rfl
  · rw [if_neg h64]
    by_cases heven : entry.toList.length % 2 = 0
    · rw [if_pos heven, decide_eq_true_eq, ← Bytes.take_eq_ofHexChars_iff heven hhex]
      rfl
    · rw [if_neg heven, Bool.and_eq_true,
        ← Bytes.between_ofHexChars_iff (by omega) hhex (by omega)]
      simp only [toBuffer, Bytes.ofHex, String.toList_append]
      rfl

theorem prefixesMatch_iff {entries : Option (List String)} {value : Bytes} (hvalue : value.length = 32)
    (h : ∀ es, entries = some es → ∀ entry ∈ es, prefixSchema entry = true) :
    prefixesMatch entries value = true ↔
      entries.all (fun es => es.any fun entry => Js.startsWith (Bytes.toHex value) entry) = true := by
  rcases entries with - | es
  · simp [prefixesMatch]
  · simp only [prefixesMatch, Option.all_some, List.any_eq_true]
    refine exists_congr fun entry => and_congr_right fun hmem => ?_
    have hschema := h es rfl entry hmem
    simp only [prefixSchema, Bool.and_eq_true, List.all_eq_true, decide_eq_true_eq] at hschema
    obtain ⟨⟨hhex, -⟩, hlength⟩ := hschema
    rw [Js.length_of_forall_le fun c hc => toNat_le_of_isLowerHex (hhex c hc)] at hlength
    exact prefixMatches_iff hvalue hhex hlength

/-! ### Stored events and their tags -/

/-- The values that the columns of a row can have. -/
structure Storable (row : EventRow) : Prop where
  columns : row.columnError = none
  eventId : row.eventId.length = 32
  eventPubkey : row.eventPubkey.length = 32

/-- `event_tags` holds the one-letter tags of each event; whether it holds
those without a value makes no difference. -/
def ExactTags (db : Database) : Prop :=
  ∀ row ∈ db.events, ∀ name value, value ≠ "" →
    (⟨row.eventId, name, value⟩ ∈ db.eventTags ↔
      name.toList.length = 1 ∧ ∃ rest, name :: value :: rest ∈ row.eventTags)

/-- The query for the filter selects the row; a query that raises an error
selects nothing. -/
def Selects (db : Database) (f : SubscriptionFilter) (row : EventRow) : Prop :=
  f.ambiguous = false ∧ f.error = none ∧ row ∈ select db f

/-- For every stored event that is not deleted, the query selects it exactly
if the predicate accepts it. -/
def Agrees (f : SubscriptionFilter) : Prop :=
  ∀ db : Database, (∀ row ∈ db.events, Storable row) → ExactTags db →
    ∀ row ∈ db.events, row.deletedAt = none →
      (Selects db f row ↔ isEventMatchingFilter f (toNostrEvent row) = true)

/-- Filters that SQL gets right: the query raises no error and has at most
one tag criterion. -/
def Expressible (f : SubscriptionFilter) : Prop :=
  f.ambiguous = false ∧ f.error = none ∧ f.tags.length ≤ 1

/-- Every criterion can be met by a value that the columns take. -/
structure Satisfiable (f : SubscriptionFilter) : Prop where
  ids : f.ids ≠ some []
  authors : f.authors ≠ some []
  kinds : ∀ kinds, f.kinds = some kinds → ∃ kind ∈ kinds, integerError (kind : ℕ) = none
  time : ∃ time, integerError time = none ∧ (∀ since, f.since = some since → since ≤ time) ∧
    ∀ untilTime, f.untilTime = some untilTime → time ≤ untilTime
  tags : ∀ entry ∈ f.tags, ∃ value ∈ entry.2, textError value = none

/-! ### Criteria -/

/-- The criteria on the columns of `events`, in the reading of the predicate. -/
def ColumnCriteria (f : SubscriptionFilter) (row : EventRow) : Prop :=
  f.ids.all (fun ids => ids.any fun id => Js.startsWith (Bytes.toHex row.eventId) id) = true ∧
    f.authors.all (fun authors =>
      authors.any fun pubkey => Js.startsWith (Bytes.toHex row.eventPubkey) pubkey) = true ∧
    f.kinds.all (fun kinds => row.eventKind ∈ kinds) = true ∧
    f.since.all (fun since => since ≤ row.eventCreatedAt) = true ∧
    f.untilTime.all (fun untilTime => row.eventCreatedAt ≤ untilTime) = true

section

variable {f : SubscriptionFilter} {db : Database} {row : EventRow}

theorem matching_iff : isEventMatchingFilter f (toNostrEvent row) = true ↔
    ColumnCriteria f row ∧ ∀ entry ∈ f.tags, ∃ name value rest, name :: value :: rest ∈ row.eventTags ∧
      name.toList = [entry.1] ∧ value ∈ entry.2 := by
  have htag : ∀ (entry : Char × List String) (tag : List String),
      ((tag.head?.any fun name => name.toList = [entry.1]) &&
        tag[1]?.any fun value => value ∈ entry.2) = true ↔
        ∃ name value rest, tag = name :: value :: rest ∧ name.toList = [entry.1] ∧ value ∈ entry.2 := by
    intro entry tag
    rcases tag with - | ⟨name, - | ⟨value, rest⟩⟩
    · simp
    · simp
    · simp
  simp only [isEventMatchingFilter, toNostrEvent, Bool.and_eq_true, List.all_eq_true,
    List.any_eq_true, ColumnCriteria]
  constructor
  · rintro ⟨⟨⟨⟨⟨hids, hkinds⟩, hsince⟩, huntil⟩, hauthors⟩, htags⟩
    refine ⟨⟨hids, hauthors, hkinds, hsince, huntil⟩, fun entry hentry => ?_⟩
    obtain ⟨tag, hmem, hmatch⟩ := htags entry hentry
    obtain ⟨name, value, rest, rfl, hname, hvalue⟩ :=
      (htag entry tag).mp (Bool.and_eq_true_iff.mpr hmatch)
    exact ⟨name, value, rest, hmem, hname, hvalue⟩
  · rintro ⟨⟨hids, hauthors, hkinds, hsince, huntil⟩, htags⟩
    refine ⟨⟨⟨⟨⟨hids, hkinds⟩, hsince⟩, huntil⟩, hauthors⟩, fun entry hentry => ?_⟩
    obtain ⟨name, value, rest, hmem, hname, hvalue⟩ := htags entry hentry
    exact ⟨_, hmem, Bool.and_eq_true_iff.mp ((htag entry _).mpr ⟨name, value, rest, rfl, hname, hvalue⟩)⟩

/-- A joined row meets a tag criterion. -/
theorem tagMatches_iff {tag : Option EventTagRow} {entry : Char × List String} :
    tagMatches tag entry = true ↔
      ∃ t, tag = some t ∧ t.tagName.toList = [entry.1] ∧ t.tagValue ∈ entry.2 := by
  rcases tag with - | t
  · simp [tagMatches]
  · simp only [tagMatches, List.any_eq_true, Option.any_some, Bool.and_eq_true, decide_eq_true_eq,
      Option.some.injEq, exists_eq_left']
    constructor
    · rintro ⟨value, hvalue, hname, rfl⟩
      exact ⟨hname, hvalue⟩
    · rintro ⟨hname, hvalue⟩
      exact ⟨t.tagValue, hvalue, hname, rfl⟩

theorem conditions_iff (hwell : WellFormed f) (hrow : Storable row) {tag : Option EventTagRow} :
    f.conditions row tag = true ↔
      ColumnCriteria f row ∧ ∀ entry ∈ f.tags, tagMatches tag entry = true := by
  simp only [SubscriptionFilter.conditions, Bool.and_eq_true, List.all_eq_true,
    prefixesMatch_iff hrow.eventId hwell.ids, prefixesMatch_iff hrow.eventPubkey hwell.authors,
    ColumnCriteria]
  constructor
  · rintro ⟨⟨⟨⟨⟨hauthors, hids⟩, hkinds⟩, hsince⟩, huntil⟩, htags⟩
    exact ⟨⟨hids, hauthors, hkinds, hsince, huntil⟩, htags⟩
  · rintro ⟨⟨hids, hauthors, hkinds, hsince, huntil⟩, htags⟩
    exact ⟨⟨⟨⟨⟨hauthors, hids⟩, hkinds⟩, hsince⟩, huntil⟩, htags⟩

/-- The row of `event_tags` for a tag criterion is there exactly if the event
has the tag. -/
theorem exists_tagRow_iff (htags : ExactTags db) (hrow : row ∈ db.events) {entry : Char × List String}
    (hentry : tagCriterionSchema entry = true) :
    (∃ t ∈ db.eventTags, t.eventId = row.eventId ∧ t.tagName.toList = [entry.1] ∧
      t.tagValue ∈ entry.2) ↔
    ∃ name value rest, name :: value :: rest ∈ row.eventTags ∧ name.toList = [entry.1] ∧
      value ∈ entry.2 := by
  have hvalues : ∀ value ∈ entry.2, value ≠ "" := by
    simp only [tagCriterionSchema, Bool.and_eq_true, List.all_eq_true, decide_eq_true_eq] at hentry
    exact fun value hvalue => (hentry.2 value hvalue).1
  constructor
  · rintro ⟨⟨id, name, value⟩, ht, rfl, hname, hvalue⟩
    obtain ⟨-, rest, hmem⟩ := (htags row hrow name value (hvalues value hvalue)).mp ht
    exact ⟨name, value, rest, hmem, hname, hvalue⟩
  · rintro ⟨name, value, rest, hmem, hname, hvalue⟩
    refine ⟨⟨row.eventId, name, value⟩, ?_, rfl, hname, hvalue⟩
    exact (htags row hrow name value (hvalues value hvalue)).mpr
      ⟨by rw [hname, List.length_singleton], rest, hmem⟩

/-- **With at most one tag criterion** the query selects what the predicate
accepts. -/
theorem mem_select_iff_matching (hwell : WellFormed f) (hone : f.tags.length ≤ 1)
    (hrow : row ∈ db.events) (hstorable : Storable row) (htags : ExactTags db) :
    row ∈ select db f ↔ isEventMatchingFilter f (toNostrEvent row) = true := by
  rw [mem_select, matching_iff, and_iff_right hrow]
  simp only [conditions_iff hwell hstorable]
  rcases hf : f.tags with - | ⟨entry, - | ⟨entry', rest⟩⟩
  · -- no criterion on tags: nothing is joined
    have hjoined : joinedTags db f row = [none] := by
      simp [joinedTags, SubscriptionFilter.isTagQuery, hf]
    simp [hjoined]
  · -- one criterion: the joined row decides
    have hquery : f.isTagQuery = true := by simp [SubscriptionFilter.isTagQuery, hf]
    have hentry : tagCriterionSchema entry = true := hwell.tags entry (by simp [hf])
    simp only [List.mem_singleton, forall_eq, tagMatches_iff, ← exists_tagRow_iff htags hrow hentry]
    constructor
    · rintro ⟨tag, htag, hcolumns, t, rfl, hname, hvalue⟩
      obtain ⟨ht, hid⟩ := (some_mem_joinedTags hquery).mp htag
      exact ⟨hcolumns, t, ht, hid, hname, hvalue⟩
    · rintro ⟨hcolumns, t, ht, hid, hname, hvalue⟩
      exact ⟨some t, (some_mem_joinedTags hquery).mpr ⟨ht, hid⟩, hcolumns, t, rfl, hname, hvalue⟩
  · rw [hf] at hone
    simp at hone

/-- **Two tag criteria** would have to hold of one joined row, and select
nothing. -/
theorem select_of_two_tags (hwell : WellFormed f) (htwo : 1 < f.tags.length) : select db f = [] := by
  refine List.eq_nil_iff_forall_not_mem.mpr fun row hrow => ?_
  obtain ⟨-, tag, -, hconditions⟩ := mem_select.mp hrow
  simp only [SubscriptionFilter.conditions, Bool.and_eq_true, List.all_eq_true] at hconditions
  have hnames := hwell.names
  rcases hf : f.tags with - | ⟨entry, - | ⟨entry', rest⟩⟩
  · simp [hf] at htwo
  · simp [hf] at htwo
  · rw [hf] at hconditions hnames
    obtain ⟨t, ht, hname, -⟩ := tagMatches_iff.mp (hconditions.2 entry (by simp))
    obtain ⟨t', ht', hname', -⟩ := tagMatches_iff.mp (hconditions.2 entry' (by simp))
    obtain rfl : t = t' := Option.some.inj (ht.symm.trans ht')
    have heq : entry.1 = entry'.1 := by simpa using hname.symm.trans hname'
    simp [heq] at hnames

end

/-! ### Filters that some stored event meets -/

section

variable {f : SubscriptionFilter} {row : EventRow}

theorem columnError_eq_none_iff : row.columnError = none ↔
    textError row.eventContent = none ∧ integerError row.eventCreatedAt = none ∧
      row.eventDeduplication.bind Deduplication.error = none ∧ integerError row.eventKind = none ∧
      (∀ tag ∈ row.eventTags, ∀ s ∈ tag, textError s = none) ∧
      row.expiresAt.bind integerError = none ∧ row.remoteAddress.bind textError = none := by
  have horElse : ∀ x y : Option DbError, (x <|> y) = none ↔ x = none ∧ y = none := by
    intro x y
    rcases x with - | e <;> simp
  have hflatten : row.eventTags.flatten.findSome? textError = none ↔
      ∀ tag ∈ row.eventTags, ∀ s ∈ tag, textError s = none := by
    simp only [List.findSome?_eq_none_iff, List.mem_flatten]
    exact ⟨fun h tag htag s hs => h s ⟨tag, htag, hs⟩, fun h s ⟨tag, htag, hs⟩ => h tag htag s hs⟩
  simp only [EventRow.columnError, horElse, hflatten]

/-- A filter that accepts a stored event can be satisfied. -/
theorem satisfiable_of_matching (hrow : Storable row)
    (h : isEventMatchingFilter f (toNostrEvent row) = true) : Satisfiable f := by
  obtain ⟨⟨hids, hauthors, hkinds, hsince, huntil⟩, htags⟩ := matching_iff.mp h
  obtain ⟨-, htime, -, hkind, htexts, -, -⟩ := columnError_eq_none_iff.mp hrow.columns
  refine ⟨?_, ?_, ?_, ⟨row.eventCreatedAt, htime, ?_, ?_⟩, ?_⟩
  · intro hnil
    simp [hnil] at hids
  · intro hnil
    simp [hnil] at hauthors
  · intro kinds heq
    simp only [heq, Option.all_some, decide_eq_true_eq] at hkinds
    exact ⟨row.eventKind, hkinds, hkind⟩
  · intro since heq
    simpa [heq] using hsince
  · intro untilTime heq
    simpa [heq] using huntil
  · intro entry hentry
    obtain ⟨name, value, rest, hmem, -, hvalue⟩ := htags entry hentry
    exact ⟨value, hvalue, htexts _ hmem value (by simp)⟩

/-- A prefix can be completed. -/
theorem exists_startsWith {entry : String} (h : prefixSchema entry = true) :
    ∃ value : Bytes, value.length = 32 ∧ Js.startsWith (Bytes.toHex value) entry = true := by
  simp only [prefixSchema, Bool.and_eq_true, List.all_eq_true, decide_eq_true_eq] at h
  obtain ⟨⟨hhex, -⟩, hlength⟩ := h
  rw [Js.length_of_forall_le fun c hc => toNat_le_of_isLowerHex (hhex c hc)] at hlength
  let cs := entry.toList ++ List.replicate (64 - entry.toList.length) '0'
  have hcs : ∀ c ∈ cs, Bytes.isLowerHex c = true := by
    intro c hc
    rcases List.mem_append.mp hc with hc | hc
    · exact hhex c hc
    · rw [List.eq_of_mem_replicate hc]
      decide
  have hlen : cs.length = 64 := by
    rw [List.length_append, List.length_replicate]
    omega
  refine ⟨Bytes.ofHexChars cs, ?_, ?_⟩
  · rw [Bytes.length_ofHexChars fun c hc => ?_, hlen]
    obtain ⟨n, -, hn, -⟩ := Bytes.hexDigit_of_isLowerHex (hcs c hc)
    rw [hn, Option.isSome_some]
  · rw [Js.startsWith, Bytes.toHex, String.toList_ofList, Bytes.hexChars_ofHexChars (by omega) hcs,
      List.isPrefixOf_iff_prefix]
    exact List.prefix_append _ _

/-- A criterion on ids or authors can be met. -/
theorem exists_any_startsWith {entries : Option (List String)} (hne : entries ≠ some [])
    (h : ∀ es, entries = some es → ∀ entry ∈ es, prefixSchema entry = true) :
    ∃ value : Bytes, value.length = 32 ∧
      entries.all (fun es => es.any fun entry => Js.startsWith (Bytes.toHex value) entry) = true := by
  rcases entries with - | - | ⟨entry, es⟩
  · exact ⟨List.replicate 32 0, rfl, rfl⟩
  · exact absurd rfl hne
  · obtain ⟨value, hlength, hstarts⟩ := exists_startsWith (h _ rfl entry List.mem_cons_self)
    exact ⟨value, hlength, by simp [hstarts]⟩

/-- **A filter that can be satisfied** accepts an event that can be stored. -/
theorem exists_matching (hwell : WellFormed f) (h : Satisfiable f) :
    ∃ row, Storable row ∧ row.deletedAt = none ∧ isEventMatchingFilter f (toNostrEvent row) = true := by
  obtain ⟨id, hid, hids⟩ := exists_any_startsWith h.ids hwell.ids
  obtain ⟨pubkey, hpubkey, hauthors⟩ := exists_any_startsWith h.authors hwell.authors
  obtain ⟨kind, hkind, hkinds⟩ : ∃ kind : ℕ, integerError kind = none ∧
      f.kinds.all (fun kinds => kind ∈ kinds) = true := by
    rcases hf : f.kinds with - | kinds
    · exact ⟨0, by decide, rfl⟩
    · obtain ⟨kind, hmem, hfits⟩ := h.kinds kinds hf
      exact ⟨kind, hfits, by simpa using hmem⟩
  obtain ⟨time, htime, hsince, huntil⟩ := h.time
  let tags := f.tags.flatMap fun entry =>
    (entry.2.filter fun value => textError value = none).map fun value =>
      [String.singleton entry.1, value]
  refine ⟨⟨id, pubkey, kind, time, "", tags, [], none, none, none, 0, none⟩,
    ⟨columnError_eq_none_iff.mpr ⟨rfl, htime, rfl, hkind, ?_, rfl, rfl⟩, hid, hpubkey⟩, rfl, ?_⟩
  · -- names are letters, and values are chosen to fit
    intro tag htag s hs
    obtain ⟨entry, hentry, htag⟩ := List.mem_flatMap.mp htag
    obtain ⟨value, hvalue, rfl⟩ := List.mem_map.mp htag
    rcases List.mem_pair.mp hs with rfl | rfl
    · have hschema := hwell.tags entry hentry
      simp only [tagCriterionSchema, Bool.and_eq_true, decide_eq_true_eq] at hschema
      rw [textError, if_neg]
      intro hnul
      rw [String.toList_singleton, List.mem_singleton] at hnul
      rw [← hnul] at hschema
      exact absurd hschema.1.1 (by decide)
    · simpa using (List.mem_filter.mp hvalue).2
  · refine matching_iff.mpr ⟨⟨hids, hauthors, hkinds, ?_, ?_⟩, fun entry hentry => ?_⟩
    · rcases hf : f.since with - | since
      · rfl
      · simpa using hsince since hf
    · rcases hf : f.untilTime with - | untilTime
      · rfl
      · simpa using huntil untilTime hf
    · obtain ⟨value, hvalue, hfits⟩ := h.tags entry hentry
      refine ⟨String.singleton entry.1, value, [], ?_, String.toList_singleton _, hvalue⟩
      exact List.mem_flatMap.mpr ⟨entry, hentry, List.mem_map.mpr
        ⟨value, List.mem_filter.mpr ⟨hvalue, by simpa using hfits⟩, rfl⟩⟩

/-! ### Where the two readings agree -/

/-- The one-letter tags of a row. -/
def exactTagRows (row : EventRow) : List EventTagRow :=
  row.eventTags.filterMap fun
    | name :: value :: _ => if name.toList.length = 1 then some ⟨row.eventId, name, value⟩ else none
    | _ => none

theorem exactTags_single (row : EventRow) : ExactTags ⟨[row], exactTagRows row⟩ := by
  intro r hr name value _
  obtain rfl := List.mem_singleton.mp hr
  constructor
  · intro h
    obtain ⟨tag, htag, heq⟩ := List.mem_filterMap.mp h
    rcases tag with - | ⟨n, - | ⟨v, rest⟩⟩
    · cases heq
    · cases heq
    · simp only [Option.ite_none_right_eq_some, Option.some.injEq, EventTagRow.mk.injEq, true_and] at heq
      obtain ⟨hone, rfl, rfl⟩ := heq
      exact ⟨hone, rest, htag⟩
  · rintro ⟨hone, rest, htag⟩
    exact List.mem_filterMap.mpr ⟨_, htag, if_pos hone⟩

/-- What is not expressible selects nothing. -/
theorem not_selects (hwell : WellFormed f) (h : ¬ Expressible f) (db : Database) :
    ¬ Selects db f row := by
  rintro ⟨hambiguous, herror, hrow⟩
  have htwo : 1 < f.tags.length := not_le.mp fun hone => h ⟨hambiguous, herror, hone⟩
  rw [select_of_two_tags hwell htwo] at hrow
  cases hrow

/-- **Stored query and live match agree** on exactly those filters that are
expressible, or that no event meets that the table can store. -/
theorem agrees_iff (hschema : filterSchema f = true) : Agrees f ↔ (Satisfiable f → Expressible f) := by
  have hwell := wellFormed_of_filterSchema hschema
  constructor
  · intro hagrees hsatisfiable
    by_contra hnot
    -- the table with one row that matches
    obtain ⟨row, hrow, hlive, hmatch⟩ := exists_matching hwell hsatisfiable
    have hselects := hagrees ⟨[row], exactTagRows row⟩ (by simpa using hrow) (exactTags_single row) row
      List.mem_cons_self hlive
    exact not_selects hwell hnot _ (hselects.mpr hmatch)
  · intro himp db hstorable htags row hrow _
    by_cases hexpressible : Expressible f
    · obtain ⟨hambiguous, herror, hone⟩ := hexpressible
      rw [Selects, and_iff_right hambiguous, and_iff_right herror]
      exact mem_select_iff_matching hwell hone hrow (hstorable row hrow) htags
    · refine iff_of_false (not_selects hwell hexpressible db) fun hmatch => hexpressible (himp ?_)
      exact satisfiable_of_matching (hstorable row hrow) hmatch

end

/-- `{ "#t": ["nostr"] }`. -/
def oneTagFilter : SubscriptionFilter :=
  ⟨none, none, none, none, none, none, [('t', ["nostr"])]⟩

theorem agrees_oneTagFilter : Agrees oneTagFilter :=
  (agrees_iff (by decide +kernel)).mpr fun _ => ⟨by decide +kernel, by decide +kernel, by decide⟩

/-- `{ "#a": ["x"], "#b": ["y"] }`. -/
def twoTagFilter : SubscriptionFilter :=
  ⟨none, none, none, none, none, none, [('a', ["x"]), ('b', ["y"])]⟩

/-- A note with both tags. -/
def twoTagNote : ReceivedEvent where
  id := "db2a3abd0e0abfcc6ff7beaa9eba8a427a2635c27dab72db6c2741de67587869"
  pubkey := "f9308a019258c31049344f85f89d5229b531c845836f99b08601f113bce036f9"
  createdAt := 1700000000
  kind := 1
  tags := [["a", "x"], ["b", "y"]]
  content := "hello"
  sig := "d4009d0396844282103378563cc1cfd7023cc864b0adb623c362e3944daeec04" ++
    "301c58ff2ad05a19f8fda730e6dc7d42f607a060ae39d295873c48cbd1ea4f33"
  remoteAddress := some "::1"
  expiration := none

/-- **Two tag criteria**: the note is stored and passes the live match, but
the query does not select it. -/
theorem twoTagFilter_disagrees : filterSchema twoTagFilter = true ∧ ¬ Agrees twoTagFilter := by
  refine ⟨by decide +kernel, fun hagrees => ?_⟩
  let row := insertRow 0 (twoTagNote.incoming none)
  have hselects := hagrees ⟨[row], exactTagRows row⟩
    (by
      intro r hr
      rw [List.mem_singleton.mp hr]
      exact ⟨by decide +kernel, by decide +kernel, by decide +kernel⟩)
    (exactTags_single row) row List.mem_cons_self rfl
  have hrow := (hselects.mpr (by decide +kernel)).2.2
  have hempty : select ⟨[row], exactTagRows row⟩ twoTagFilter = [] := by decide +kernel
  rw [hempty] at hrow
  cases hrow

end NostrMesh.Relay
