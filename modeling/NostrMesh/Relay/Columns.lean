/-
NostrMesh/Relay/Columns.lean

Whether the integers that the schemas let pass fit the columns they go to.

`event_kind`, `event_created_at` and `expires_at` are four bytes wide; a kind
may be any safe integer, a timestamp and the time of an expiration tag have
ten decimal digits.  So the numbers from 2^31 on pass the schemas, and make
the statement fail (`inRange_of_columnError`, `inRange_of_filterError`).

Main result: `fitsColumns_iff`.
-/
import NostrMesh.Relay.LiveEvents

namespace NostrMesh.Relay.Columns

open LiveEvents (hexSchema)
open Traffic (Runtime getEventExpiration received)

/-! ### `eventSchema` -/

/-- A first string that is not empty, and any strings behind it. -/
def tagSchema : List String → Bool
  | [] => false
  | identifier :: _ => identifier ≠ ""

def eventSchema (event : Event) : Bool :=
  hexSchema 64 event.id && hexSchema 64 event.pubkey && createdAtSchema event.createdAt &&
    kindSchema event.kind && event.tags.all tagSchema && hexSchema 128 event.sig

/-! ### The property -/

/-- What a row has in the columns of type `integer`. -/
def integers (row : EventRow) : List ℤ :=
  (row.eventKind : ℤ) :: row.eventCreatedAt :: row.expiresAt.toList

/-- The integers that a query compares with these columns. -/
def comparedIntegers (filter : SubscriptionFilter) : List ℤ :=
  (filter.kinds.getD []).map Nat.cast ++ filter.since.toList ++ filter.untilTime.toList

/-- Four bytes, with a sign. -/
def InRange (n : ℤ) : Prop := -2147483648 ≤ n ∧ n ≤ 2147483647

instance (n : ℤ) : Decidable (InRange n) :=
  inferInstanceAs (Decidable (-2147483648 ≤ n ∧ n ≤ 2147483647))

/-- Every integer that `insert` or `upsert` writes for the event, and every
one that a query for the filter compares, fits its column. -/
structure FitsColumns (R : Runtime) (event : Event) (filter : SubscriptionFilter) : Prop where
  insert : ∀ now remoteAddress deduplication,
    ∀ n ∈ integers (insertRow now ((received R event remoteAddress).incoming deduplication)),
      InRange n
  upsert : ∀ now remoteAddress deduplication,
    ∀ n ∈ integers (upsertRow now ((received R event remoteAddress).incoming deduplication)),
      InRange n
  findByFilters : ∀ n ∈ comparedIntegers filter, InRange n

/-- The first expiration tag names a time after those of 31 bits. -/
def ExpiresLate (R : Runtime) (event : Event) : Prop :=
  ∃ tag text time,
    event.tags.find? (fun tag => 2 ≤ tag.length && tag.head? = some "expiration") = some tag ∧
      tag[1]? = some text ∧ R.safeInteger text = some time ∧
        2147483648 ≤ time ∧ time < 10000000000

/-- No number of the event or the filter is 2^31 or more. -/
structure NothingWide (R : Runtime) (event : Event) (filter : SubscriptionFilter) : Prop where
  kind : event.kind < 2147483648
  createdAt : event.createdAt < 2147483648
  expiration : ¬ ExpiresLate R event
  kinds : ∀ kinds, filter.kinds = some kinds → ∀ kind ∈ kinds, kind < 2147483648
  since : ∀ since, filter.since = some since → since < 2147483648
  untilTime : ∀ untilTime, filter.untilTime = some untilTime → untilTime < 2147483648

variable {R : Runtime} {event : Event} {filter : SubscriptionFilter} {row : EventRow} {n : ℤ}

/-! ### The errors of the columns -/

theorem integerError_eq_none_iff : integerError n = none ↔ InRange n := by
  rw [integerError]
  split_ifs with h
  · exact ⟨fun _ => h, fun _ => rfl⟩
  · exact ⟨nofun, fun hrange => absurd hrange h⟩

theorem textError_ne (s : String) : textError s ≠ some (.integerOutOfRange n) := by
  rw [textError]
  split_ifs
  · simp
  · simp

theorem deduplicationError_ne (d : Deduplication) : d.error ≠ some (.integerOutOfRange n) := by
  rcases d with ⟨pubkey, kind⟩ | values
  · exact textError_ne pubkey
  · intro h
    obtain ⟨value, -, hvalue⟩ := List.exists_of_findSome?_eq_some h
    exact textError_ne value hvalue

/-- A row whose integers fit is not refused for one of them. -/
theorem columnError_ne_integerOutOfRange (h : ∀ m ∈ integers row, InRange m) :
    row.columnError ≠ some (.integerOutOfRange n) := by
  have hkind : integerError row.eventKind = none :=
    integerError_eq_none_iff.mpr (h _ List.mem_cons_self)
  have hcreatedAt : integerError row.eventCreatedAt = none :=
    integerError_eq_none_iff.mpr (h _ (List.mem_cons_of_mem _ List.mem_cons_self))
  have hexpires : row.expiresAt.bind integerError = none := by
    rw [Option.bind_eq_none_iff]
    intro time htime
    refine integerError_eq_none_iff.mpr (h time ?_)
    simp [integers, htime]
  intro herror
  rw [EventRow.columnError, hkind, hcreatedAt, hexpires] at herror
  simp only [Option.orElse_eq_orElse, Option.orElse_eq_or, Option.none_or, Option.or_eq_some_iff,
    Option.bind_eq_some_iff] at herror
  obtain ⟨-, ⟨d, -, hd⟩ | ⟨-, htags | ⟨-, address, -, haddress⟩⟩⟩ | hcontent := herror.symm
  · exact deduplicationError_ne d hd
  · obtain ⟨text, -, htext⟩ := List.exists_of_findSome?_eq_some htags
    exact textError_ne text htext
  · exact textError_ne address haddress
  · exact textError_ne _ hcontent

/-- A statement that is not refused writes integers that fit. -/
theorem inRange_of_columnError (h : row.columnError = none) : ∀ n ∈ integers row, InRange n := by
  obtain ⟨-, hcreatedAt, -, hkind, -, hexpires, -⟩ := columnError_eq_none_iff.mp h
  intro n hn
  rcases List.mem_cons.mp hn with rfl | hn
  · exact integerError_eq_none_iff.mp hkind
  rcases List.mem_cons.mp hn with rfl | hn
  · exact integerError_eq_none_iff.mp hcreatedAt
  · have hn := Option.mem_toList.mp hn
    exact integerError_eq_none_iff.mp (Option.bind_eq_none_iff.mp hexpires n hn)

/-- A query that is not refused compares integers that fit. -/
theorem inRange_of_filterError (h : filter.error = none) :
    ∀ n ∈ comparedIntegers filter, InRange n := by
  simp only [SubscriptionFilter.error, Option.orElse_eq_orElse, Option.orElse_eq_or,
    Option.or_eq_none_iff, List.findSome?_eq_none_iff, Option.bind_eq_none_iff] at h
  obtain ⟨-, -, hkinds, hsince, huntil, -⟩ := h
  intro n hn
  rcases List.mem_append.mp hn with hn | hn
  · rcases List.mem_append.mp hn with hn | hn
    · obtain ⟨kind, hkind, rfl⟩ := List.mem_map.mp hn
      exact integerError_eq_none_iff.mp (hkinds kind (by simpa using hkind))
    · exact integerError_eq_none_iff.mp (hsince n (Option.mem_toList.mp hn))
  · exact integerError_eq_none_iff.mp (huntil n (Option.mem_toList.mp hn))

/-! ### What the schemas let pass -/

theorem eventSchema_eq_true_iff : eventSchema event = true ↔
    hexSchema 64 event.id = true ∧ hexSchema 64 event.pubkey = true ∧
      createdAtSchema event.createdAt = true ∧ kindSchema event.kind = true ∧
      (∀ tag ∈ event.tags, tagSchema tag = true) ∧ hexSchema 128 event.sig = true := by
  simp only [eventSchema, Bool.and_eq_true, List.all_eq_true, and_assoc]

/-- A timestamp that the schema lets pass fits unless it is wide. -/
theorem inRange_iff_of_createdAtSchema {time : ℤ} (h : createdAtSchema time = true) :
    InRange time ↔ time < 2147483648 := by
  simp only [createdAtSchema, Bool.and_eq_true, decide_eq_true_eq] at h
  rw [InRange]
  omega

theorem inRange_kind_iff {kind : ℕ} : InRange kind ↔ kind < 2147483648 := by
  rw [InRange]
  omega

theorem inRange_expiration_iff :
    (∀ time, getEventExpiration R event = some time → InRange time) ↔ ¬ ExpiresLate R event := by
  constructor
  · rintro h ⟨tag, text, time, htag, htext, htime, hlow, hhigh⟩
    have hexpiration : getEventExpiration R event = some time := by
      rw [getEventExpiration, htag, Option.bind_some, htext, Option.bind_some, htime,
        Option.filter_some]
      exact if_pos (decide_eq_true ⟨by omega, hhigh⟩)
    have := (h time hexpiration).2
    omega
  · intro h time htime
    rw [getEventExpiration, Option.filter_eq_some_iff] at htime
    obtain ⟨hbind, hbounds⟩ := htime
    obtain ⟨tag, htag, hbind⟩ := Option.bind_eq_some_iff.mp hbind
    obtain ⟨text, htext, hnumber⟩ := Option.bind_eq_some_iff.mp hbind
    rw [decide_eq_true_eq] at hbounds
    refine ⟨by omega, ?_⟩
    by_contra hwide
    exact h ⟨tag, text, time, htag, htext, hnumber, by omega, hbounds.2⟩

theorem forall_mem_integers {P : ℤ → Prop} : (∀ n ∈ integers row, P n) ↔
    P row.eventKind ∧ P row.eventCreatedAt ∧ ∀ time, row.expiresAt = some time → P time := by
  rw [integers, List.forall_mem_cons, List.forall_mem_cons]
  simp only [Option.mem_toList]

theorem forall_mem_comparedIntegers {P : ℤ → Prop} : (∀ n ∈ comparedIntegers filter, P n) ↔
    (∀ kinds, filter.kinds = some kinds → ∀ kind ∈ kinds, P (kind : ℕ)) ∧
      (∀ since, filter.since = some since → P since) ∧
      ∀ untilTime, filter.untilTime = some untilTime → P untilTime := by
  rw [comparedIntegers, List.forall_mem_append, List.forall_mem_append, List.forall_mem_map,
    and_assoc]
  simp only [Option.mem_toList]
  refine and_congr_left fun _ => ?_
  rcases filter.kinds with - | kinds
  · simp
  · simp

/-- **The integers of an event and of a filter** that the schemas accept fit
their columns exactly if none of them is wide. -/
theorem fitsColumns_iff (R : Runtime) (hevent : eventSchema event = true)
    (hfilter : filterSchema filter = true) :
    FitsColumns R event filter ↔ NothingWide R event filter := by
  obtain ⟨-, -, hcreatedAt, -, -, -⟩ := eventSchema_eq_true_iff.mp hevent
  simp only [filterSchema, Bool.and_eq_true, Option.all_eq_true] at hfilter
  obtain ⟨⟨⟨⟨⟨-, hsince⟩, huntil⟩, -⟩, -⟩, -⟩ := hfilter
  have hquery : (∀ n ∈ comparedIntegers filter, InRange n) ↔
      (∀ kinds, filter.kinds = some kinds → ∀ kind ∈ kinds, kind < 2147483648) ∧
        (∀ since, filter.since = some since → since < 2147483648) ∧
        ∀ untilTime, filter.untilTime = some untilTime → untilTime < 2147483648 := by
    rw [forall_mem_comparedIntegers]
    refine and_congr ?_ (and_congr ?_ ?_)
    · exact forall₄_congr fun _ _ _ _ => inRange_kind_iff
    · exact forall₂_congr fun time h => inRange_iff_of_createdAtSchema (hsince time h)
    · exact forall₂_congr fun time h => inRange_iff_of_createdAtSchema (huntil time h)
  -- both statements send the same integers
  have hrow : ∀ now remoteAddress deduplication, (∀ n ∈ integers (insertRow now
      ((received R event remoteAddress).incoming deduplication)), InRange n) ↔
        event.kind < 2147483648 ∧ event.createdAt < 2147483648 ∧ ¬ ExpiresLate R event := by
    intro now remoteAddress deduplication
    rw [forall_mem_integers]
    exact and_congr inRange_kind_iff
      (and_congr (inRange_iff_of_createdAtSchema hcreatedAt) inRange_expiration_iff)
  constructor
  · rintro ⟨hinsert, -, hfind⟩
    obtain ⟨hkind, htime, hexpires⟩ := (hrow 0 none none).mp (hinsert 0 none none)
    obtain ⟨hkinds, hsince', huntil'⟩ := hquery.mp hfind
    exact ⟨hkind, htime, hexpires, hkinds, hsince', huntil'⟩
  · rintro ⟨hkind, htime, hexpires, hkinds, hsince', huntil'⟩
    have hfits := fun now remoteAddress deduplication =>
      (hrow now remoteAddress deduplication).mpr ⟨hkind, htime, hexpires⟩
    exact ⟨hfits, hfits, hquery.mpr ⟨hkinds, hsince', huntil'⟩⟩

/-! ### A note that expires in the year 2100 -/

def yearTexts : Runtime where
  eventHash _ _ := ""
  verify _ _ _ := true
  safeInteger text := some (Js.numberOfDecimal text.toList)

/-- A note with an expiration tag. -/
def noteUntil (time : String) : Event where
  id := "86e50107226a1890472cfdcde525a35858bd0a2d23b23e01695f33009e9bd526"
  pubkey := "f9308a019258c31049344f85f89d5229b531c845836f99b08601f113bce036f9"
  createdAt := 1700000000
  kind := 1
  tags := [["expiration", time]]
  content := "for a long time"
  sig := "4540d986540cc3f124016539074e80092c389d726e1f79bafb2f3b54ebbc5d67" ++
    "93308a66dc33e8272d3b2cd6cfa5712a387db3e585c4d478f989be992bad8566"

def allNotes : SubscriptionFilter where
  ids := none
  authors := none
  kinds := some [1]
  since := some 1600000000
  untilTime := none
  limit := none
  tags := []

theorem fitsColumns_noteUntil2030 : FitsColumns yearTexts (noteUntil "1893456000") allNotes := by
  refine (fitsColumns_iff yearTexts (by decide +kernel) (by decide +kernel)).mpr ?_
  refine ⟨by decide, by decide, ?_, ?_, ?_, ?_⟩
  · rintro ⟨tag, text, time, htag, htext, htime, hlow, -⟩
    obtain rfl := Option.some.inj htag
    obtain rfl := Option.some.inj htext
    obtain rfl := Option.some.inj htime
    exact absurd hlow (by decide +kernel)
  · intro kinds hkinds
    obtain rfl := Option.some.inj hkinds
    decide
  · intro since hsince
    obtain rfl := Option.some.inj hsince
    decide
  · intro untilTime huntil
    cases huntil

/-- The column `expires_at` ends in the year 2038. -/
theorem not_fitsColumns_noteUntil2100 :
    eventSchema (noteUntil "4102444800") = true ∧ filterSchema allNotes = true ∧
      ¬ FitsColumns yearTexts (noteUntil "4102444800") allNotes := by
  refine ⟨by decide +kernel, by decide +kernel, fun h => ?_⟩
  have hexpires : getEventExpiration yearTexts (noteUntil "4102444800") = some 4102444800 := by
    decide +kernel
  have hrange := (forall_mem_integers.mp (h.insert 0 none none)).2.2 4102444800 hexpires
  exact absurd hrange (by decide)

end NostrMesh.Relay.Columns
