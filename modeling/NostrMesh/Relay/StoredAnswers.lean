/-
NostrMesh/Relay/StoredAnswers.lean

How order, limit and join decide what a `REQ` is answered: of several filters
(`union_iff`), of one filter with a limit (`isTop_sent_iff`), and how often an
event is sent (`nodup_sent_iff`).

The query cuts off the joined rows, and only then `fetchAndSend` leaves out
what is deleted or does not match.  Hence everything is read off the place of
a row in the order in which the joined rows come: a row is `within` a filter
if its first copy comes before the limit.  That order is any that the query
allows (`RowOrder`), and every list of filters may have one of its own.  The
lists that are cut off are those of `Windows`.
-/
import NostrMesh.Lib.Window
import NostrMesh.Relay.Addresses
import NostrMesh.Relay.Filters

namespace NostrMesh.Relay

open NewestFirst Tables Windows

/-! ### Queries that are answered -/

/-- The query for the filter raises no error. -/
def SubscriptionFilter.Runs (f : SubscriptionFilter) : Prop := f.ambiguous = false ∧ f.error = none

instance (f : SubscriptionFilter) : Decidable f.Runs :=
  inferInstanceAs (Decidable (f.ambiguous = false ∧ f.error = none))

/-- The rows that a query finds; a query that raises an error finds none. -/
def selected (filters : List SubscriptionFilter) (db : Database) (order : RowOrder := tableOrder) :
    List EventRow :=
  match findByFilters none filters db order with
  | .ok rows => rows
  | .error _ => []

/-- The events that are sent before the end of the stored events. -/
def sent (filters : List SubscriptionFilter) (db : Database) (order : RowOrder := tableOrder) :
    List Event :=
  match fetchAndSend none filters db order with
  | .ok events => events
  | .error _ => []

/-- The row is not deleted, and its event passes the live match. -/
def live (filters : List SubscriptionFilter) (row : EventRow) : Bool :=
  row.deletedAt.isNone && filters.any fun filter => isEventMatchingFilter filter (toNostrEvent row)

variable {db : Database} {filters : List SubscriptionFilter} {f g : SubscriptionFilter}
  {gs : List SubscriptionFilter} {row : EventRow} {order : RowOrder}

theorem selected_of_runs (hne : filters ≠ []) (h : ∀ f ∈ filters, f.Runs) :
    selected filters db order = runQuery db filters order := by
  have hempty : filters.isEmpty = false := by simpa using hne
  have hambiguous : filters.any SubscriptionFilter.ambiguous = false := by
    simp only [List.any_eq_false]
    exact fun f hf => by simp [(h f hf).1]
  have herror : filters.findSome? SubscriptionFilter.error = none :=
    List.findSome?_eq_none_iff.mpr fun f hf => (h f hf).2
  simp [selected, findByFilters, hempty, hambiguous, herror]

/-- One filter that raises an error takes the answers of all others away. -/
theorem selected_of_not_runs (hf : f ∈ filters) (h : ¬ f.Runs) : selected filters db order = [] := by
  rw [selected, findByFilters]
  split_ifs with hempty hambiguous
  · rfl
  · rfl
  · have herror : filters.findSome? SubscriptionFilter.error ≠ none := by
      intro hnone
      refine h ⟨?_, List.findSome?_eq_none_iff.mp hnone f hf⟩
      simp only [List.any_eq_true, not_exists, not_and, Bool.not_eq_true] at hambiguous
      exact hambiguous f hf
    obtain ⟨e, he⟩ := Option.ne_none_iff_exists'.mp herror
    simp [he]

theorem sendable_eq (rows : List EventRow) :
    sendable filters rows = (rows.filter (live filters)).map toNostrEvent := by
  rw [sendable, List.filter_map, List.filter_filter]
  congr 2
  funext row
  exact Bool.and_comm _ _

theorem mem_events_of_mem_selected (h : row ∈ selected filters db order) : row ∈ db.events := by
  rw [selected] at h
  split at h
  · next rows hrows =>
    rw [findByFilters_ok hrows] at h
    exact mem_events_of_mem_runQuery h
  · cases h

theorem sent_eq : sent filters db order =
    ((selected filters db order).filter (live filters)).map toNostrEvent := by
  rw [sent, fetchAndSend, selected]
  rcases findByFilters none filters db order with e | rows
  · rfl
  · exact sendable_eq rows

/-! ### Places -/

/-- How often the join with `event_tags` repeats a row. -/
def joins (db : Database) (f : SubscriptionFilter) (row : EventRow) : ℕ :=
  ((joinedTags db f row).filter (f.conditions row)).length

/-- The joined rows of a filter, as they come. -/
def joined (db : Database) (f : SubscriptionFilter) (order : RowOrder) : List EventRow :=
  order.arrange f (select db f)

/-- The place of a row among the joined rows. -/
def place (db : Database) (f : SubscriptionFilter) (order : RowOrder) (row : EventRow) : ℕ :=
  (joined db f order).idxOf row

/-- The place of its second copy, if the join repeats it. -/
def secondPlace (db : Database) (f : SubscriptionFilter) (order : RowOrder) (row : EventRow) : ℕ :=
  ((joined db f order).erase row).idxOf row + 1

/-- The filter selects the row, and it comes before the limit. -/
def within (db : Database) (f : SubscriptionFilter) (order : RowOrder) (row : EventRow) : Bool :=
  row ∈ select db f && place db f order row < f.window

theorem mem_joined : row ∈ joined db f order ↔ row ∈ select db f := (order.perm _ _).mem_iff

theorem length_joined : (joined db f order).length = (select db f).length :=
  (order.perm _ _).length_eq

theorem select_eq : select db f = db.events.flatMap fun row => List.replicate (joins db f row) row := by
  simp only [select, joins, List.map_const']

/-- The copies of a row are those of the join. -/
theorem count_joined (hevents : db.events.Nodup) (hrow : row ∈ db.events) :
    (joined db f order).count row = joins db f row := by
  rw [joined, (order.perm _ _).count_eq, select_eq, count_flatMap_replicate,
    List.count_eq_one_of_mem hevents hrow, one_mul]

theorem mem_orderAndLimit_select :
    row ∈ orderAndLimit f (select db f) order ↔ within db f order row = true := by
  rw [orderAndLimit_eq, within, Bool.and_eq_true, decide_eq_true_eq, decide_eq_true_eq]
  constructor
  · intro h
    have hrow := List.mem_of_mem_take h
    exact ⟨mem_joined.mp hrow, (List.mem_take_iff_idxOf_lt hrow).mp h⟩
  · rintro ⟨hrow, hplace⟩
    exact (List.mem_take_iff_idxOf_lt (mem_joined.mpr hrow)).mpr hplace

/-- **One filter** finds the rows within it. -/
theorem mem_selected_single :
    row ∈ selected [f] db order ↔ f.Runs ∧ within db f order row = true := by
  by_cases hruns : f.Runs
  · rw [selected_of_runs (by simp) (by simpa using hruns), runQuery, mem_orderAndLimit_select,
      and_iff_right hruns]
  · rw [selected_of_not_runs List.mem_cons_self hruns]
    exact iff_of_false (by simp) fun h => hruns h.1

/-- A filter has no row within it if it takes none or selects none. -/
theorem forall_not_within_iff :
    (∀ row, within db f order row = false) ↔ f.window = 0 ∨ select db f = [] := by
  have hempty : (∀ row, within db f order row = false) ↔ orderAndLimit f (select db f) order = [] := by
    simp only [List.eq_nil_iff_forall_not_mem, mem_orderAndLimit_select, Bool.not_eq_true]
  rw [hempty, orderAndLimit_eq, List.take_eq_nil_iff]
  refine or_congr_right ⟨fun h => ?_, fun h => ?_⟩
  · exact List.Perm.eq_nil (h ▸ (order.perm f (select db f)).symm)
  · exact List.Perm.eq_nil (h ▸ order.perm f (select db f))

/-! ### Several filters -/

/-- The query for the list finds what the queries for its filters find; each
has the order `orders` gives it. -/
def IsUnion (db : Database) (orders : List SubscriptionFilter → RowOrder)
    (filters : List SubscriptionFilter) : Prop :=
  ∀ row, row ∈ selected filters db (orders filters) ↔ ∃ f ∈ filters, row ∈ selected [f] db (orders [f])

/-- The rows within some filter. -/
def reached (db : Database) (orders : List SubscriptionFilter → RowOrder)
    (filters : List SubscriptionFilter) : List EventRow :=
  db.events.dedup.filter fun row => filters.any fun f => within db f (orders [f]) row

/-- The rows that a query for several filters puts in the order of the first:
those that the first selects, and those within another. -/
def united (db : Database) (f : SubscriptionFilter) (gs : List SubscriptionFilter)
    (order : RowOrder) : List EventRow :=
  order.arrange f (select db f ++ gs.flatMap fun g => orderAndLimit g (select db g) order).dedup

/-- The query unites all rows that are reached, and the limit of the first
filter has room for them and cuts off the others. -/
structure LimitFits (db : Database) (orders : List SubscriptionFilter → RowOrder)
    (f : SubscriptionFilter) (gs : List SubscriptionFilter) : Prop where
  united : ∀ row ∈ reached db orders (f :: gs), row ∈ united db f gs (orders (f :: gs))
  room : (reached db orders (f :: gs)).length ≤ f.window
  cut : ∀ row ∈ Relay.united db f gs (orders (f :: gs)), row ∉ reached db orders (f :: gs) →
    (reached db orders (f :: gs)).length = f.window ∧
      ∀ r ∈ reached db orders (f :: gs),
        (Relay.united db f gs (orders (f :: gs))).idxOf r < (Relay.united db f gs (orders (f :: gs))).idxOf row

/-- Every query runs, and the rows fit; or a query raises an error, and those
that run would find nothing. -/
def Unites (db : Database) (orders : List SubscriptionFilter → RowOrder) (f : SubscriptionFilter)
    (gs : List SubscriptionFilter) : Prop :=
  (∀ h ∈ f :: gs, h.Runs) ∧ LimitFits db orders f gs ∨
    (∃ h ∈ f :: gs, ¬ h.Runs) ∧ ∀ h ∈ f :: gs, h.Runs → h.window = 0 ∨ select db h = []

variable {orders : List SubscriptionFilter → RowOrder}

theorem mem_events_of_within (h : within db f order row = true) : row ∈ db.events := by
  rw [within, Bool.and_eq_true, decide_eq_true_eq] at h
  exact (mem_select.mp h.1).1

theorem mem_reached :
    row ∈ reached db orders filters ↔ ∃ f ∈ filters, within db f (orders [f]) row = true := by
  rw [reached, List.mem_filter, List.any_eq_true, List.mem_dedup]
  refine and_iff_right_of_imp ?_
  rintro ⟨f, -, h⟩
  exact mem_events_of_within h

theorem mem_united :
    row ∈ united db f gs order ↔ row ∈ select db f ∨ ∃ g ∈ gs, within db g order row = true := by
  rw [united, (order.perm _ _).mem_iff, List.mem_dedup, List.mem_append, List.mem_flatMap]
  simp only [mem_orderAndLimit_select]

theorem nodup_united : (united db f gs order).Nodup :=
  (order.perm _ _).nodup_iff.mpr (List.nodup_dedup _)

/-- Where all queries take rows of one time alike, only what the first filter
selects can be in the way. -/
theorem limitFits_iff_of_alike (halike : ∀ h ∈ f :: gs, orders [h] = orders (f :: gs)) :
    LimitFits db orders f gs ↔
      (reached db orders (f :: gs)).length ≤ f.window ∧
        ∀ row ∈ select db f, row ∉ reached db orders (f :: gs) →
          (reached db orders (f :: gs)).length = f.window ∧
            ∀ r ∈ reached db orders (f :: gs),
              (united db f gs (orders (f :: gs))).idxOf r < (united db f gs (orders (f :: gs))).idxOf row := by
  constructor
  · intro h
    exact ⟨h.room, fun row hrow => h.cut row (mem_united.mpr (Or.inl hrow))⟩
  · rintro ⟨hroom, hcut⟩
    refine ⟨fun row hrow => ?_, hroom, fun row hrow hnot => ?_⟩
    · obtain ⟨k, hk, hwithin⟩ := mem_reached.mp hrow
      rw [halike k hk] at hwithin
      rcases List.mem_cons.mp hk with rfl | hk
      · rw [within, Bool.and_eq_true, decide_eq_true_eq] at hwithin
        exact mem_united.mpr (Or.inl hwithin.1)
      · exact mem_united.mpr (Or.inr ⟨k, hk, hwithin⟩)
    · rcases mem_united.mp hrow with hrow | ⟨k, hk, hwithin⟩
      · exact hcut row hrow hnot
      · rw [← halike k (List.mem_cons_of_mem _ hk)] at hwithin
        exact absurd (mem_reached.mpr ⟨k, List.mem_cons_of_mem _ hk, hwithin⟩) hnot

theorem runQuery_eq_take :
    runQuery db (f :: g :: gs) order = (united db f (g :: gs) order).take f.window := by
  rw [runQuery, orderAndLimit_eq]
  · rfl
  · simp

/-- **The limit of the first filter** decides whether the rows within the
filters are found. -/
theorem forall_mem_runQuery_iff :
    (∀ row, row ∈ runQuery db (f :: g :: gs) (orders (f :: g :: gs)) ↔
        ∃ h ∈ f :: g :: gs, within db h (orders [h]) row = true) ↔
      LimitFits db orders f (g :: gs) := by
  have hreached : (reached db orders (f :: g :: gs)).Nodup := (List.nodup_dedup _).filter _
  simp only [← mem_reached, runQuery_eq_take]
  -- `UNION` leaves different rows, so that it counts how many there are
  constructor
  · intro h
    have hsub : reached db orders (f :: g :: gs) ⊆ united db f (g :: gs) (orders (f :: g :: gs)) :=
      fun row hrow => List.mem_of_mem_take ((h row).mpr hrow)
    obtain ⟨hroom, hcut⟩ := (forall_mem_take_iff nodup_united hreached hsub).mp h
    exact ⟨hsub, hroom, hcut⟩
  · rintro ⟨hsub, hroom, hcut⟩
    exact (forall_mem_take_iff nodup_united hreached hsub).mpr ⟨hroom, hcut⟩

theorem isUnion_iff : IsUnion db orders (f :: g :: gs) ↔ Unites db orders f (g :: gs) := by
  simp only [IsUnion, mem_selected_single]
  by_cases hruns : ∀ h ∈ f :: g :: gs, h.Runs
  · have hnone : ¬ ∃ h ∈ f :: g :: gs, ¬ h.Runs := fun ⟨h, hh, hbad⟩ => hbad (hruns h hh)
    rw [Unites, and_iff_right hruns, or_iff_left fun h => hnone h.1, ← forall_mem_runQuery_iff,
      selected_of_runs (by simp) hruns]
    refine forall_congr' fun row => iff_congr Iff.rfl (exists_congr fun h => ?_)
    exact and_congr_right fun hh => and_iff_right (hruns h hh)
  · -- one error, and the list finds nothing
    obtain ⟨b, hb, hbad⟩ := not_forall₂.mp hruns
    rw [Unites, or_iff_right fun h => hruns h.1, and_iff_right ⟨b, hb, hbad⟩,
      selected_of_not_runs hb hbad]
    simp only [List.not_mem_nil, false_iff, not_exists, not_and, Bool.not_eq_true]
    constructor
    · exact fun h k hk hkruns => forall_not_within_iff.mp fun row => h row k hk hkruns
    · exact fun h row k hk hkruns => forall_not_within_iff.mpr (h k hk hkruns) row

/-- **A list of filters** is answered with the union of what its filters are
answered alone if it `Unites`, and in every order of the filters alike if it
does so in every order. -/
theorem union_iff (db : Database) (orders : List SubscriptionFilter → RowOrder)
    (f g : SubscriptionFilter) (gs : List SubscriptionFilter) :
    (IsUnion db orders (f :: g :: gs) ↔ Unites db orders f (g :: gs)) ∧
      ((IsUnion db orders (f :: g :: gs) ∧
          ∀ order : List SubscriptionFilter, order.Perm (f :: g :: gs) → ∀ row,
            row ∈ selected order db (orders order) ↔
              row ∈ selected (f :: g :: gs) db (orders (f :: g :: gs))) ↔
        ∀ f' gs', (f' :: gs').Perm (f :: g :: gs) → Unites db orders f' gs') := by
  have hunites : ∀ f' gs', (f' :: gs').Perm (f :: g :: gs) →
      (IsUnion db orders (f' :: gs') ↔ Unites db orders f' gs') := by
    rintro f' (- | ⟨g', gs'⟩) hperm
    · simpa using hperm.length_eq
    · exact isUnion_iff
  refine ⟨isUnion_iff, fun ⟨hunion, horder⟩ f' gs' hperm => ?_, fun h => ⟨?_, fun order hperm row => ?_⟩⟩
  · refine (hunites f' gs' hperm).mp fun row => ?_
    rw [horder _ hperm row, hunion row]
    exact exists_congr fun h => and_congr_left fun _ => hperm.mem_iff.symm
  · exact isUnion_iff.mpr (h f (g :: gs) (List.Perm.refl _))
  · rcases order with - | ⟨f', gs'⟩
    · simpa using hperm.length_eq
    · rw [(hunites f' gs' hperm).mpr (h f' gs' hperm) row,
        isUnion_iff.mpr (h f (g :: gs) (List.Perm.refl _)) row]
      exact exists_congr fun h => and_congr_left fun _ => hperm.mem_iff

def newerNote : ReceivedEvent where
  id := "515007284bc6248741c54333c26deae4a736339901cfd47b3d496b947c4e3c76"
  pubkey := "f9308a019258c31049344f85f89d5229b531c845836f99b08601f113bce036f9"
  createdAt := 1700000001
  kind := 1
  tags := []
  content := "newer"
  sig := "2633f1012ca13e53cfc9adcea6ec97c532f4e57f9f34b9eaf2acba07d513b8ba" ++
    "4aca9ca17cf59ccc6837fc0406cdd58b33507716f3b5dbba4fe6225b5694e296"
  remoteAddress := some "::1"
  expiration := none

def olderNote : ReceivedEvent where
  id := "bf4fa0c1fde29db6f891b65ca4b51802bb2dd10c8a4b3e4f3a8f234d35b45664"
  pubkey := "f9308a019258c31049344f85f89d5229b531c845836f99b08601f113bce036f9"
  createdAt := 1700000000
  kind := 1
  tags := []
  content := "older"
  sig := "eda0a1ca308ed994d9e461f4c4c0fa9b75007ab363f053323d52b0d276e81473" ++
    "50b5d9dd614a5c5602f5f2f9a190037092ca9edad3864eb004a3ca0cb9a6498c"
  remoteAddress := some "::1"
  expiration := none

def newerRow : EventRow := insertRow 0 (newerNote.incoming none)

def olderRow : EventRow := insertRow 0 (olderNote.incoming none)

def twoNotes : Database := ⟨[newerRow, olderRow], []⟩

/-- `{ "kinds": [1], "limit": limit }`. -/
def notes (limit : Option ℕ) : SubscriptionFilter := ⟨none, none, some [1], none, none, limit, []⟩

theorem runs_notes (limit : Option ℕ) : (notes limit).Runs := ⟨rfl, rfl⟩

/-- The filter selects all notes. -/
theorem select_notes (limit : Option ℕ) (h : ∀ row ∈ db.events, row.eventKind = 1) :
    select db (notes limit) = db.events := by
  have hrow : ∀ row ∈ db.events, ((joinedTags db (notes limit) row).filter
      ((notes limit).conditions row)).map (fun _ => row) = [row] := by
    intro row hrow
    have htag : (notes limit).isTagQuery = false := rfl
    have hconditions : (notes limit).conditions row none = true := by
      simp [SubscriptionFilter.conditions, notes, prefixesMatch, h row hrow]
    simp [joinedTags, htag, hconditions]
  rw [select, List.flatMap_congr hrow]
  simp

/-- What two notes of different times answer to one or two such filters. -/
theorem runQuery_notes {new old : EventRow} (hnew : new.eventKind = 1) (hold : old.eventKind = 1)
    (hlt : old.eventCreatedAt < new.eventCreatedAt) :
    runQuery ⟨[new, old], []⟩ [notes (some 1), notes none] = [new] ∧
      runQuery ⟨[new, old], []⟩ [notes none, notes (some 1)] = [old, new] ∧
      runQuery ⟨[new, old], []⟩ [notes none] = [old, new] := by
  have hne : new ≠ old := by
    rintro rfl
    exact lt_irrefl _ hlt
  have hselect : ∀ limit, select ⟨[new, old], []⟩ (notes limit) = [new, old] := fun limit =>
    select_notes limit (by simp [hnew, hold])
  have hlimit : ∀ limit, (notes limit).limit = limit := fun _ => rfl
  simp [runQuery, hselect, orderAndLimit, hlimit, tableOrder, List.insertionSort, List.orderedInsert,
    not_le.mpr hlt, hlt.le, hne, hne.symm]

/-- **The limit of the first filter** cuts off what the second one finds, and
in the other order it does not. -/
theorem notes_not_union : filterSchema (notes (some 1)) = true ∧ filterSchema (notes none) = true ∧
    ¬ IsUnion twoNotes (fun _ => tableOrder) [notes (some 1), notes none] ∧
    selected [notes (some 1), notes none] twoNotes = [newerRow] ∧
    selected [notes none, notes (some 1)] twoNotes = [olderRow, newerRow] := by
  have hselected : ∀ filters, filters ≠ [] → (∀ f ∈ filters, ∃ limit, f = notes limit) →
      selected filters twoNotes = runQuery twoNotes filters := by
    refine fun filters hne hnotes => selected_of_runs hne fun f hf => ?_
    obtain ⟨limit, rfl⟩ := hnotes f hf
    exact runs_notes limit
  obtain ⟨hfirst, hsecond, halone⟩ := @runQuery_notes newerRow olderRow rfl rfl (by decide)
  rw [hselected _ (by simp) (by simp), hselected _ (by simp) (by simp)]
  refine ⟨by decide +kernel, by decide +kernel, fun hunion => ?_, hfirst, hsecond⟩
  have hfound := (hunion olderRow).mpr ⟨notes none, by simp, by
    rw [hselected _ (by simp) (by simp), twoNotes, halone]
    exact List.mem_cons_self⟩
  rw [hselected _ (by simp) (by simp), twoNotes, hfirst, List.mem_singleton] at hfound
  exact absurd (congrArg EventRow.eventCreatedAt hfound) (by decide)

/-! ### A limit -/

/-- A row that is sent and that the join repeats has its second copy after
the limit. -/
def RepeatsLate (db : Database) (f : SubscriptionFilter) (order : RowOrder) : Prop :=
  ∀ row ∈ db.events, live [f] row = true → 2 ≤ joins db f row → f.window ≤ secondPlace db f order row

instance (db : Database) (f : SubscriptionFilter) (order : RowOrder) :
    Decidable (RepeatsLate db f order) :=
  inferInstanceAs (Decidable (∀ row ∈ db.events, live [f] row = true → 2 ≤ joins db f row →
    f.window ≤ secondPlace db f order row))

/-- The first joined rows are `n` that can be sent, and the query misses no
newer one. -/
structure AllLive (db : Database) (f : SubscriptionFilter) (order : RowOrder) (n : ℕ) : Prop where
  enough : n ≤ (select db f).length
  live : ∀ row, within db f order row = true → live [f] row = true
  newest : ∀ row ∈ db.events, Relay.live [f] row = true → row ∉ select db f →
    ∀ r, within db f order r = true → row.eventCreatedAt ≤ r.eventCreatedAt

/-- The limit takes every row that can be sent, or nothing else. -/
def TakesNewest (db : Database) (f : SubscriptionFilter) (order : RowOrder) (n : ℕ) : Prop :=
  RepeatsLate db f order ∧
    ((∀ row ∈ db.events, live [f] row = true → within db f order row = true) ∨ AllLive db f order n)

/-- The index on `event_id` keeps the ids apart, whatever else the table
holds. -/
theorem nodup_ids_of_unique (h : Unique flatSchema.enforced db.events) : db.ids.Nodup :=
  List.pairwise_map.mpr ((h _ eventIdUnique_mem_enforced).imp fun hclash heq =>
    hclash (clash_eventIdUnique_iff.mpr heq))

theorem eventId_injOn (hids : db.ids.Nodup) {r : EventRow} (hr : r ∈ db.events) (hrow : row ∈ db.events)
    (h : (toNostrEvent r).id = (toNostrEvent row).id) : r = row :=
  List.inj_on_of_nodup_map hids hr hrow (Bytes.toHex_injective h)

theorem toNostrEvent_injOn (hids : db.ids.Nodup) {p : EventRow → Bool} :
    ∀ r ∈ db.events.filter p, ∀ s ∈ db.events.filter p, toNostrEvent r = toNostrEvent s → r = s :=
  fun _ hr _ hs h =>
    eventId_injOn hids (List.mem_filter.mp hr).1 (List.mem_filter.mp hs).1 (congrArg Event.id h)

theorem nodup_events (hids : db.ids.Nodup) : db.events.Nodup := hids.of_map

/-- The rows of the first joined rows that are sent differ if the second
copies come late. -/
theorem nodup_filter_take_joined_iff (hids : db.ids.Nodup) :
    (((joined db f order).take f.window).filter (live [f])).Nodup ↔ RepeatsLate db f order := by
  have hmem : ∀ row, 2 ≤ (joined db f order).count row → row ∈ db.events := fun row htwice =>
    (mem_select.mp (mem_joined.mp (List.count_pos_iff.mp (Nat.zero_lt_two.trans_le htwice)))).1
  have hcount : ∀ row ∈ db.events, (joined db f order).count row = joins db f row := fun row hrow =>
    count_joined (nodup_events hids) hrow
  rw [nodup_filter_take_iff]
  constructor
  · intro h row hrow hlive hjoins
    exact h row hlive (by rwa [hcount row hrow])
  · intro h row hlive htwice
    have hrow := hmem row htwice
    exact h row hrow hlive (by rwa [← hcount row hrow])

/-- **A filter with a limit** is answered with the newest events that are not
deleted and match, exactly if its query runs and takes them. -/
theorem isTop_sent_iff {n : ℕ} (hids : db.ids.Nodup) (hlimit : f.limit = some n) :
    IsTop Event.createdAt n ((db.events.filter (live [f])).map toNostrEvent) (sent [f] db order) ↔
      f.Runs ∧ TakesNewest db f order n ∨
        ¬ f.Runs ∧ (n = 0 ∨ ∀ row ∈ db.events, live [f] row = false) := by
  by_cases hruns : f.Runs
  · rw [and_iff_right hruns, or_iff_left fun h => h.1 hruns]
    have hwindow : f.window = n := by rw [SubscriptionFilter.window, hlimit, Option.getD_some]
    have hselected : selected [f] db order = (joined db f order).take n := by
      rw [selected_of_runs (by simp) (by simpa using hruns), runQuery, orderAndLimit_eq, hwindow, joined]
    have hwithin : ∀ row, row ∈ (joined db f order).take n ↔ within db f order row = true := by
      intro row
      rw [← hwindow, joined, ← orderAndLimit_eq, mem_orderAndLimit_select]
    have hsub : joined db f order ⊆ db.events := fun r hr => (mem_select.mp (mem_joined.mp hr)).1
    have hsorted : (joined db f order).Pairwise fun r s => s.eventCreatedAt ≤ r.eventCreatedAt :=
      order.newestFirst f _ (by rw [hlimit, Option.isSome_some])
    have hchosen : (selected [f] db order).filter (live [f]) ⊆ db.events.filter (live [f]) :=
      List.filter_subset _ fun r hr => mem_events_of_mem_selected hr
    have htime : ∀ r : EventRow, Event.createdAt (toNostrEvent r) = EventRow.eventCreatedAt r :=
      fun _ => rfl
    -- back from events to rows, and from rows to places in the order
    rw [sent_eq, isTop_map_iff htime ((nodup_events hids).filter _) (toNostrEvent_injOn hids) hchosen, hselected,
      isTop_filter_take_iff (nodup_events hids) hsorted hsub, TakesNewest,
      ← nodup_filter_take_joined_iff hids, hwindow]
    refine and_congr_right fun _ => or_congr ?_ ?_
    · simp only [hwithin]
    · simp only [hwithin, mem_joined]
      rw [List.length_take, length_joined, min_eq_left_iff]
      constructor
      · rintro ⟨henough, hlive, hnewest⟩
        exact ⟨henough, hlive, hnewest⟩
      · intro hall
        exact ⟨hall.enough, hall.live, hall.newest⟩
  · rw [or_iff_right fun h => hruns h.1, and_iff_right hruns, sent_eq,
      selected_of_not_runs List.mem_cons_self hruns, List.filter_nil, List.map_nil, isTop_nil_iff,
      List.map_eq_nil_iff, List.filter_eq_nil_iff]
    simp only [Bool.not_eq_true]

/-- A limit of one takes the newer of two notes. -/
theorem isTop_sent_notes : IsTop Event.createdAt 1
    ((twoNotes.events.filter (live [notes (some 1)])).map toNostrEvent)
    (sent [notes (some 1)] twoNotes) := by
  have hids : twoNotes.ids.Nodup := by decide +kernel
  have hselect : select twoNotes (notes (some 1)) = [newerRow, olderRow] := select_notes _ (by decide)
  refine (isTop_sent_iff hids rfl).mpr (Or.inl ⟨runs_notes _, fun row _ _ htwice => ?_, Or.inr ⟨?_, ?_, ?_⟩⟩)
  · -- without a condition on tags no row is joined twice
    have hone : joins twoNotes (notes (some 1)) row ≤ 1 := List.length_filter_le _ [none]
    omega
  · rw [hselect]
    decide
  · have hlive : ∀ row ∈ twoNotes.events, live [notes (some 1)] row = true := by decide +kernel
    exact fun row hrow => hlive row (mem_events_of_within hrow)
  · intro row hrow _ hnot
    rw [hselect] at hnot
    exact absurd hrow hnot

/-- **A deleted row** takes the place of the only event that is asked for. -/
theorem deleted_newest_hides : filterSchema (notes (some 1)) = true ∧
    ¬ IsTop Event.createdAt 1
      (([{ newerRow with deletedAt := some 1 }, olderRow].filter (live [notes (some 1)])).map toNostrEvent)
      (sent [notes (some 1)] ⟨[{ newerRow with deletedAt := some 1 }, olderRow], []⟩) := by
  refine ⟨by decide +kernel, fun htop => ?_⟩
  have hsent : sent [notes (some 1)] ⟨[{ newerRow with deletedAt := some 1 }, olderRow], []⟩ = [] := by
    decide +kernel
  rw [hsent, isTop_nil_iff] at htop
  revert htop
  decide +kernel

/-! ### Repetitions -/

theorem nodup_sent_iff_nodup_rows (hids : db.ids.Nodup) :
    ((sent filters db order).map Event.id).Nodup ↔
      ((selected filters db order).filter (live filters)).Nodup := by
  rw [sent_eq, List.map_map]
  constructor
  · exact List.Nodup.of_map _
  · refine fun hnodup => (List.nodup_map_iff_inj_on hnodup).mpr fun r hr s hs h => ?_
    exact eventId_injOn hids (mem_events_of_mem_selected (List.mem_filter.mp hr).1)
      (mem_events_of_mem_selected (List.mem_filter.mp hs).1) h

/-- **Every event is sent at most once**, unless one filter alone is asked
for and the join repeats a row before the limit. -/
theorem nodup_sent_iff (hids : db.ids.Nodup) :
    ((sent filters db order).map Event.id).Nodup ↔
      ∀ f : SubscriptionFilter, filters = [f] → f.Runs → RepeatsLate db f order := by
  rw [nodup_sent_iff_nodup_rows hids]
  rcases filters with - | ⟨f, - | ⟨g, gs⟩⟩
  · exact iff_of_true (by simp [selected, findByFilters]) fun f hf => by simp at hf
  · simp only [List.cons.injEq, and_true, forall_eq']
    by_cases hruns : f.Runs
    · -- one filter: its joined rows, as they are
      rw [selected_of_runs (by simp) (by simpa using hruns), runQuery, orderAndLimit_eq, ← joined,
        nodup_filter_take_joined_iff hids]
      exact (imp_iff_right hruns).symm
    · rw [selected_of_not_runs List.mem_cons_self hruns]
      exact iff_of_true List.nodup_nil fun h => absurd h hruns
  · -- `UNION` takes the repetitions away
    refine iff_of_true (List.Nodup.filter _ ?_) fun f hf => by simp at hf
    by_cases hruns : ∀ h ∈ f :: g :: gs, h.Runs
    · rw [selected_of_runs (by simp) hruns, runQuery_eq_take]
      exact nodup_united.sublist (List.take_sublist _ _)
    · obtain ⟨b, hb, hbad⟩ := not_forall₂.mp hruns
      rw [selected_of_not_runs hb hbad]
      exact List.nodup_nil

/-- A note with two topics. -/
def topicsNote : ReceivedEvent where
  id := "64ffc4bb05083bbdd8385505e520219a50c6184a9743fc304f34f65b4a31dd3e"
  pubkey := "f9308a019258c31049344f85f89d5229b531c845836f99b08601f113bce036f9"
  createdAt := 1700000000
  kind := 1
  tags := [["t", "a"], ["t", "b"]]
  content := "hello"
  sig := "02be3053d12a455163e5f32eac15d7c8efd8f037ff26bb880e999b8bb47d7f7a" ++
    "7a87a584b9820aa14bbadfafca09c65a7eddbf6d9865acc5cb5081f15dc1c187"
  remoteAddress := some "::1"
  expiration := none

def topicsRow : EventRow := insertRow 0 (topicsNote.incoming none)

/-- `{ "#t": values }`. -/
def topics (values : List String) : SubscriptionFilter :=
  ⟨none, none, none, none, none, none, [('t', values)]⟩

theorem nodup_sent_topics :
    ((sent [topics ["a"]] ⟨[topicsRow], tagRows topicsRow⟩).map Event.id).Nodup := by
  refine (nodup_sent_iff (by decide +kernel)).mpr fun f hf _ => ?_
  obtain rfl : topics ["a"] = f := by simpa using hf
  decide +kernel

/-- **Two topics** of a note that are both asked for send it twice. -/
theorem topics_sent_twice : filterSchema (topics ["a", "b"]) = true ∧
    ¬ ((sent [topics ["a", "b"]] ⟨[topicsRow], tagRows topicsRow⟩).map Event.id).Nodup := by
  decide +kernel

end NostrMesh.Relay
