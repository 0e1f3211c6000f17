/-
NostrMesh/Relay/TagArchive.lean

What the archival loop does to `event_tags`, when no statement of it fails.

The trigger `insert_event_tags` is declared on `events`.  It fires for the
rows that the script deletes from the local partition, and then deletes the
rows of `event_tags` with their id; it does not fire for the rows that the
script inserts into the foreign partition.  So the archived events stay, and
the index loses them.

`Inv` says where a run stands: what has left `events_hot`, what has been
added to the storage node, and what is left of `event_tags`.
`tagQueriesUnchanged_iff` reads off it when tag queries answer as before:
exactly if no row of the archived range had an entry that a filter can name.
-/
import NostrMesh.Relay.Archive
import NostrMesh.Relay.StoredAnswers

namespace NostrMesh.Relay.TagArchive

open Archive Tables

/-! ### The loop and the trigger -/

/-- The two partitions and the place of the script, and the tags. -/
structure State where
  script : Archive.State
  eventTags : List EventTagRow

/-- `events`, over both partitions, and `event_tags`. -/
def State.tables (s : State) : Database := ⟨s.script.eventsHot ++ s.script.remote, s.eventTags⟩

/-- What the script does when no statement fails. -/
def Succeeds : Action → Prop
  | .finish | .countEmpty | .count | .copy _ | .delete => True
  | .arrive _ | .interrupt | .countFails | .copyFails | .deleteFails => False

/-- The rows that a step deletes from the local partition. -/
def deletedRows : Action → Archive.State → List EventRow
  | .delete, ⟨hot, _, .copying pass⟩ => windowRows pass.batchStart pass.batchEnd hot
  | _, _ => []

/-- The trigger, for each row that is deleted. -/
def deleteTags (rows : List EventRow) (tags : List EventTagRow) : List EventTagRow :=
  rows.foldl (fun tags row => deleteTagRows row tags) tags

/-- A step of the script that succeeds. -/
def SuccessStep (P : Params) (s s' : State) : Prop :=
  ∃ a, Succeeds a ∧ Step P a s.script s'.script ∧
    s'.eventTags = deleteTags (deletedRows a s.script) s.eventTags

/-- A run of the loop from `BATCH_START=$MIN_TS` to its end. -/
def Archives (P : Params) (minTs : ℤ) (hot remote : List EventRow) (tags : List EventTagRow)
    (s : State) : Prop :=
  Relation.ReflTransGen (SuccessStep P) ⟨⟨hot, remote, .window minTs⟩, tags⟩ s ∧
    s.script.position = .stopped

/-- The set of events that the filter selects. -/
def selectedEvents (db : Database) (f : SubscriptionFilter) : Set Event :=
  {event | ∃ row ∈ selected [f] db, toNostrEvent row = event}

/-- Every filter of the schema with a tag criterion selects the same events. -/
def TagQueriesUnchanged (before after : Database) : Prop :=
  ∀ f, filterSchema f = true → f.isTagQuery = true → selectedEvents after f = selectedEvents before f

/-- A filter of the schema can ask for this name and value. -/
def Nameable (t : EventTagRow) : Prop :=
  ∃ name, t.tagName.toList = [name] ∧ tagCriterionSchema (name, [t.tagValue]) = true ∧
    textError t.tagValue = none

/-- The row has an entry in `event_tags` that a filter can name. -/
def Indexed (tags : List EventTagRow) (row : EventRow) : Prop :=
  ∃ t ∈ tags, t.eventId = row.eventId ∧ Nameable t

/-! ### What each statement does -/

variable {P : Params} {minTs : ℤ} {hot remote : List EventRow} {tags : List EventTagRow}
  {s s' : State}

theorem deleteTags_eq (rows : List EventRow) (tags : List EventTagRow) :
    deleteTags rows tags = tags.filter fun t => rows.all fun row => t.eventId ≠ row.eventId := by
  induction rows generalizing tags with
  | nil => simp [deleteTags]
  | cons row rows ih =>
      rw [deleteTags, List.foldl_cons]
      refine (ih _).trans ?_
      rw [deleteTagRows, List.filter_filter]
      refine List.filter_congr fun t _ => ?_
      rw [List.all_cons, Bool.and_comm]

/-- The storage node keeps its rows, and gets some of the copied ones. -/
theorem copyRows_eq (rows remote : List EventRow) :
    ∃ added ⊆ rows, copyRows rows remote = remote ++ added := by
  induction rows generalizing remote with
  | nil => exact ⟨[], List.Subset.refl _, (List.append_nil _).symm⟩
  | cons row rows ih =>
      rcases insertIgnore_cases [eventsDataEventIdUidx.toUniqueIndex] row remote with
        ⟨he, -⟩ | ⟨he, -⟩
      · obtain ⟨added, hsub, hadded⟩ := ih (remote ++ [row])
        refine ⟨row :: added, List.cons_subset_cons row hsub, ?_⟩
        rw [copyRows, List.foldl_cons, he]
        refine hadded.trans ?_
        rw [List.append_assoc, List.singleton_append]
      · -- suppressed by its id
        obtain ⟨added, hsub, hadded⟩ := ih remote
        refine ⟨added, List.Subset.trans hsub (List.subset_cons_self row rows), ?_⟩
        rw [copyRows, List.foldl_cons, he]
        exact hadded

theorem inWindow_iff {a b : ℤ} {row : EventRow} :
    inWindow a b row = true ↔ a ≤ row.eventCreatedAt ∧ row.eventCreatedAt < b := by
  simp [inWindow]

theorem mem_windowRows {a b : ℤ} {row : EventRow} :
    row ∈ windowRows a b hot ↔ row ∈ hot ∧ a ≤ row.eventCreatedAt ∧ row.eventCreatedAt < b := by
  rw [windowRows, List.mem_filter, inWindow_iff]

/-! ### Where a run stands -/

/-- The tables after everything from `minTs` to `frontier` has been archived. -/
structure Archived (P : Params) (minTs : ℤ) (hot remote : List EventRow) (tags : List EventTagRow)
    (frontier : ℤ) (s : State) : Prop where
  eventsHot : s.script.eventsHot = hot.filter fun row => !inWindow minTs frontier row
  remote : ∃ added ⊆ windowRows minTs P.cutoff hot, s.script.remote = remote ++ added
  eventTags : s.eventTags =
    tags.filter fun t => (windowRows minTs frontier hot).all fun row => t.eventId ≠ row.eventId

/-- The windows come one after the other; with a negative width they run away
to the left, and hold nothing. -/
def Reached (P : Params) (minTs batchStart : ℤ) : Prop :=
  (0 ≤ P.batchWindow → minTs ≤ batchStart ∧ batchStart ≤ max minTs P.cutoff) ∧
    (P.batchWindow < 0 → batchStart ≤ minTs)

def Inv (P : Params) (minTs : ℤ) (hot remote : List EventRow) (tags : List EventTagRow)
    (s : State) : Prop :=
  match s.script.position with
  | .window batchStart =>
      Reached P minTs batchStart ∧ Archived P minTs hot remote tags batchStart s
  | .copying pass =>
      (minTs ≤ pass.batchStart ∧ pass.batchStart ≤ pass.batchEnd ∧ pass.batchEnd ≤ P.cutoff ∧
        0 ≤ P.batchWindow) ∧ Archived P minTs hot remote tags pass.batchStart s
  | .stopped => Archived P minTs hot remote tags P.cutoff s

theorem inv_start : Inv P minTs hot remote tags ⟨⟨hot, remote, .window minTs⟩, tags⟩ := by
  have hnone : ∀ row, inWindow minTs minTs row = false := by
    intro row
    rw [Bool.eq_false_iff, ne_eq, inWindow_iff]
    omega
  refine ⟨⟨by omega, by omega⟩, ⟨?_, ⟨[], List.nil_subset _, (List.append_nil _).symm⟩, ?_⟩⟩
  · simp [hnone]
  · have hwindow : windowRows minTs minTs hot = [] := by simp [windowRows, hnone]
    rw [hwindow]
    exact (List.filter_true tags).symm

/-- The frontier can be moved over times that no row of `events_hot` has. -/
theorem Archived.move {b b' : ℤ} (h : Archived P minTs hot remote tags b s)
    (hsame : ∀ row ∈ hot, inWindow minTs b row = inWindow minTs b' row)
    (hhot : s'.script.eventsHot = s.script.eventsHot) (hremote : s'.script.remote = s.script.remote)
    (htags : s'.eventTags = s.eventTags) : Archived P minTs hot remote tags b' s' := by
  refine ⟨?_, ?_, ?_⟩
  · rw [hhot, h.eventsHot]
    exact List.filter_congr fun row hrow => by rw [hsame row hrow]
  · rw [hremote]
    exact h.remote
  · have hwindow : windowRows minTs b hot = windowRows minTs b' hot :=
      List.filter_congr hsame
    rw [htags, h.eventTags, hwindow]

/-- The delete of a window, and the trigger. -/
theorem Archived.delete {pass : Pass} (h : Archived P minTs hot remote tags pass.batchStart s)
    (hstart : minTs ≤ pass.batchStart) (hend : pass.batchStart ≤ pass.batchEnd)
    (hhot : s'.script.eventsHot
      = s.script.eventsHot.filter fun row => !inWindow pass.batchStart pass.batchEnd row)
    (hremote : s'.script.remote = s.script.remote)
    (htags : s'.eventTags
      = deleteTags (windowRows pass.batchStart pass.batchEnd s.script.eventsHot) s.eventTags) :
    Archived P minTs hot remote tags pass.batchEnd s' := by
  have hsplit : ∀ row, inWindow minTs pass.batchEnd row
      = (inWindow minTs pass.batchStart row || inWindow pass.batchStart pass.batchEnd row) := by
    intro row
    rw [Bool.eq_iff_iff, Bool.or_eq_true, inWindow_iff, inWindow_iff, inWindow_iff]
    omega
  refine ⟨?_, ?_, ?_⟩
  · rw [hhot, h.eventsHot, List.filter_filter]
    exact List.filter_congr fun row _ => by rw [hsplit, Bool.not_or, Bool.and_comm]
  · rw [hremote]
    exact h.remote
  · rw [htags, deleteTags_eq, h.eventTags, List.filter_filter]
    refine List.filter_congr fun t _ => ?_
    rw [Bool.eq_iff_iff]
    simp only [Bool.and_eq_true, List.all_eq_true, mem_windowRows, h.eventsHot, List.mem_filter,
      decide_eq_true_eq, Bool.not_eq_true', Bool.eq_false_iff, ne_eq, inWindow_iff]
    constructor
    · rintro ⟨hnew, hold⟩ row ⟨hrow, hmin, hlt⟩
      by_cases hbefore : row.eventCreatedAt < pass.batchStart
      · exact hold row ⟨hrow, hmin, hbefore⟩
      · exact hnew row ⟨⟨hrow, by omega⟩, by omega, hlt⟩
    · intro hall
      exact ⟨fun row hrow => hall row ⟨hrow.1.1, by omega, hrow.2.2⟩,
        fun row hrow => hall row ⟨hrow.1, hrow.2.1, by omega⟩⟩

/-- A page of the window goes to the storage node. -/
theorem Archived.copy {pass : Pass} {order : List EventRow}
    (h : Archived P minTs hot remote tags pass.batchStart s)
    (hstart : minTs ≤ pass.batchStart) (hend : pass.batchEnd ≤ P.cutoff)
    (horder : IsOrder (windowRows pass.batchStart pass.batchEnd s.script.eventsHot) order)
    (hhot : s'.script.eventsHot = s.script.eventsHot)
    (hremote : s'.script.remote
      = copyRows (page P.batchSize pass.subOffset order) s.script.remote)
    (htags : s'.eventTags = s.eventTags) :
    Archived P minTs hot remote tags pass.batchStart s' := by
  obtain ⟨added, hsub, hadded⟩ := h.remote
  obtain ⟨new, hnew, hcopied⟩ :=
    copyRows_eq (page P.batchSize pass.subOffset order) s.script.remote
  refine ⟨hhot.trans h.eventsHot, ⟨added ++ new, ?_, ?_⟩, htags.trans h.eventTags⟩
  · refine List.append_subset.mpr ⟨hsub, fun row hrow => ?_⟩
    have hpage : row ∈ order := List.mem_of_mem_drop (List.mem_of_mem_take (hnew hrow))
    obtain ⟨hin, hfrom, hto⟩ := mem_windowRows.mp (horder.1.mem_iff.mp hpage)
    rw [h.eventsHot] at hin
    exact mem_windowRows.mpr ⟨List.mem_of_mem_filter hin, by omega, by omega⟩
  · rw [hremote, hcopied, hadded, List.append_assoc]

theorem inv_step (h : SuccessStep P s s') (hinv : Inv P minTs hot remote tags s) :
    Inv P minTs hot remote tags s' := by
  obtain ⟨a, hsucceeds, hstep, htags⟩ := h
  obtain ⟨script, eventTags⟩ := s
  obtain ⟨script', eventTags'⟩ := s'
  cases hstep with
  | finish hot' remote' batchStart hdone =>
      obtain ⟨hreached, harchived⟩ := hinv
      refine harchived.move (fun row _ => ?_) rfl rfl htags
      rw [Bool.eq_iff_iff, inWindow_iff, inWindow_iff]
      rcases lt_or_ge P.batchWindow 0 with hw | hw
      · have := hreached.2 hw
        omega
      · have := hreached.1 hw
        omega
  | countEmpty hot' remote' batchStart hlt hempty =>
      obtain ⟨hreached, harchived⟩ := hinv
      have hbatchEnd : batchEndOf P batchStart = min (batchStart + P.batchWindow) P.cutoff := rfl
      refine ⟨⟨fun hw => ?_, fun hw => ?_⟩, harchived.move (fun row hrow => ?_) rfl rfl htags⟩
      · have := hreached.1 hw
        omega
      · have := hreached.2 hw
        omega
      · rw [Bool.eq_iff_iff, inWindow_iff, inWindow_iff]
        -- a row of the window would still be in `events_hot`
        have hno : ¬ (minTs ≤ batchStart ∧ batchStart ≤ row.eventCreatedAt ∧
            row.eventCreatedAt < batchEndOf P batchStart) := by
          rintro ⟨hmin, hfrom, hto⟩
          have hstill : row ∈ hot' := by
            have heq : hot' = hot.filter fun row => !inWindow minTs batchStart row :=
              harchived.eventsHot
            rw [heq, List.mem_filter, Bool.not_eq_true', Bool.eq_false_iff, ne_eq, inWindow_iff]
            exact ⟨hrow, by omega⟩
          have hmem := mem_windowRows.mpr ⟨hstill, hfrom, hto⟩
          rw [hempty] at hmem
          cases hmem
        rcases lt_or_ge P.batchWindow 0 with hw | hw
        · have := hreached.2 hw
          omega
        · have := hreached.1 hw
          omega
  | count hot' remote' batchStart hlt hne =>
      obtain ⟨hreached, harchived⟩ := hinv
      have hbatchEnd : batchEndOf P batchStart = min (batchStart + P.batchWindow) P.cutoff := rfl
      obtain ⟨row, hrow⟩ := List.exists_mem_of_ne_nil _ hne
      obtain ⟨-, hfrom, hto⟩ := mem_windowRows.mp hrow
      have hw : 0 ≤ P.batchWindow := by omega
      have hmin := hreached.1 hw
      refine ⟨⟨hmin.1, ?_, ?_, hw⟩, harchived.move (fun _ _ => rfl) rfl rfl htags⟩
      · show batchStart ≤ batchEndOf P batchStart
        omega
      · show batchEndOf P batchStart ≤ P.cutoff
        omega
  | copy hot' remote' pass order _ horder =>
      obtain ⟨⟨hstart, hmid, hend, hw⟩, harchived⟩ := hinv
      exact ⟨⟨hstart, hmid, hend, hw⟩, harchived.copy hstart hend horder rfl rfl htags⟩
  | delete hot' remote' pass _ =>
      obtain ⟨⟨hstart, hmid, hend, hw⟩, harchived⟩ := hinv
      refine ⟨⟨fun _ => ⟨by omega, by omega⟩, fun hneg => by omega⟩, ?_⟩
      exact harchived.delete hstart hmid rfl rfl htags
  | _ => exact hsucceeds.elim

/-- **A run that ends** has archived everything from `minTs` to the cutoff. -/
theorem archived_of_archives (h : Archives P minTs hot remote tags s) :
    Archived P minTs hot remote tags P.cutoff s := by
  obtain ⟨hrun, hstopped⟩ := h
  have hinv : Inv P minTs hot remote tags s := by
    clear hstopped
    induction hrun with
    | refl => exact inv_start
    | tail _ hstep ih => exact inv_step hstep ih
  rwa [Inv, hstopped] at hinv

/-! ### What a tag query selects -/

variable {db : Database} {f : SubscriptionFilter} {row : EventRow}

/-- How often a row is joined to tags that meet the conditions. -/
theorem joins_of_isTagQuery (hquery : f.isTagQuery = true) : joins db f row =
    (db.eventTags.filter fun t => t.eventId = row.eventId ∧ f.conditions row (some t)).length := by
  have hnone : f.conditions row none = false := by
    rcases hf : f.tags with - | ⟨entry, rest⟩
    · simp [SubscriptionFilter.isTagQuery, hf] at hquery
    · simp [SubscriptionFilter.conditions, hf, tagMatches]
  have hfilter : (db.eventTags.filter fun t => t.eventId = row.eventId ∧ f.conditions row (some t))
      = (db.eventTags.filter fun t => t.eventId = row.eventId).filter
          fun t => f.conditions row (some t) := by
    rw [List.filter_filter]
    exact List.filter_congr fun t _ => by simp [Bool.and_comm]
  rw [hfilter, joins, joinedTags, if_pos hquery]
  generalize db.eventTags.filter (fun t => t.eventId = row.eventId) = joined
  rcases joined with - | ⟨t, ts⟩
  · simp [hnone]
  · rw [List.filter_map, List.length_map]
    rfl

/-- A tag that meets the conditions of a filter can be named. -/
theorem nameable_of_conditions (hschema : filterSchema f = true) (hquery : f.isTagQuery = true)
    (herror : f.error = none) {t : EventTagRow} (h : f.conditions row (some t) = true) :
    Nameable t := by
  obtain ⟨entry, rest, hf⟩ : ∃ entry rest, f.tags = entry :: rest := by
    rcases hf : f.tags with - | ⟨entry, rest⟩
    · simp [SubscriptionFilter.isTagQuery, hf] at hquery
    · exact ⟨entry, rest, rfl⟩
  have hentry : entry ∈ f.tags := by simp [hf]
  simp only [SubscriptionFilter.conditions, Bool.and_eq_true, List.all_eq_true] at h
  obtain ⟨t', ht', hname, hvalue⟩ := tagMatches_iff.mp (h.2 entry hentry)
  obtain rfl := Option.some.inj ht'
  refine ⟨entry.1, hname, ?_, ?_⟩
  · have hcriterion := (wellFormed_of_filterSchema hschema).tags entry hentry
    simp only [tagCriterionSchema, Bool.and_eq_true, List.all_eq_true] at hcriterion ⊢
    refine ⟨hcriterion.1, fun value hmem => ?_⟩
    rw [List.mem_singleton] at hmem
    exact hcriterion.2 value (hmem ▸ hvalue)
  · -- the values are the last parameters of the query
    simp only [SubscriptionFilter.error, Option.orElse_eq_orElse, Option.orElse_eq_or,
      Option.or_eq_none_iff] at herror
    exact List.findSome?_eq_none_iff.mp herror.2.2.2.2.2 _
      (List.mem_flatMap.mpr ⟨entry, hentry, hvalue⟩)

/-- A row that no filter can name is joined to nothing. -/
theorem joins_eq_zero (hschema : filterSchema f = true) (hquery : f.isTagQuery = true)
    (herror : f.error = none) (h : ¬ Indexed db.eventTags row) : joins db f row = 0 := by
  rw [joins_of_isTagQuery hquery, List.length_eq_zero_iff, List.filter_eq_nil_iff]
  intro t ht hmatch
  obtain ⟨hid, hconditions⟩ := of_decide_eq_true hmatch
  exact h ⟨t, ht, hid, nameable_of_conditions hschema hquery herror hconditions⟩

/-- Rows that give nothing can be left out. -/
theorem flatMap_filter_of_eq_nil {p : EventRow → Bool} {g : EventRow → List EventRow}
    (h : ∀ row ∈ hot, p row = false → g row = []) : (hot.filter p).flatMap g = hot.flatMap g := by
  induction hot with
  | nil => rfl
  | cons row rows ih =>
      have hrest := ih fun r hr => h r (List.mem_cons_of_mem _ hr)
      by_cases hp : p row = true
      · rw [List.filter_cons_of_pos hp, List.flatMap_cons, List.flatMap_cons, hrest]
      · rw [List.filter_cons_of_neg hp, List.flatMap_cons, hrest,
          h row List.mem_cons_self (Bool.eq_false_iff.mpr hp), List.nil_append]

/-! ### Unchanged exactly without indexed rows -/

/-- **Nothing is selected otherwise** if no archived row is indexed. -/
theorem select_eq_of_not_indexed (h : Archived P minTs hot remote tags P.cutoff s)
    (hclear : ∀ row ∈ hot, inWindow minTs P.cutoff row = true → ¬ Indexed tags row)
    (hschema : filterSchema f = true) (hquery : f.isTagQuery = true) (herror : f.error = none) :
    select s.tables f = select ⟨hot ++ remote, tags⟩ f := by
  have hnone : ∀ row ∈ hot, inWindow minTs P.cutoff row = true →
      List.replicate (joins ⟨hot ++ remote, tags⟩ f row) row = [] := fun row hrow hin => by
    rw [joins_eq_zero hschema hquery herror (hclear row hrow hin), List.replicate_zero]
  have hjoins : ∀ row, joins s.tables f row = joins ⟨hot ++ remote, tags⟩ f row := by
    intro row
    rw [joins_of_isTagQuery hquery, joins_of_isTagQuery hquery, State.tables, h.eventTags,
      List.filter_filter]
    congr 1
    refine List.filter_congr fun t ht => ?_
    rw [Bool.eq_iff_iff, Bool.and_eq_true, List.all_eq_true, decide_eq_true_eq]
    refine ⟨fun hboth => hboth.1, fun hmatch => ⟨hmatch, fun archived harchived => ?_⟩⟩
    -- an entry that matches is not one of an archived row
    rw [decide_eq_true_eq]
    intro hid
    exact hclear archived (List.mem_filter.mp harchived).1 (List.mem_filter.mp harchived).2
      ⟨t, ht, hid, nameable_of_conditions hschema hquery herror hmatch.2⟩
  obtain ⟨added, hsub, hadded⟩ := h.remote
  have hnew : added.flatMap (fun row => List.replicate (joins ⟨hot ++ remote, tags⟩ f row) row)
      = [] := by
    refine List.flatMap_eq_nil_iff.mpr fun row hrow => ?_
    obtain ⟨hmem, hin⟩ := List.mem_filter.mp (hsub hrow)
    exact hnone row hmem hin
  rw [select_eq, select_eq]
  simp only [hjoins]
  rw [State.tables, h.eventsHot, hadded, List.flatMap_append, List.flatMap_append,
    List.flatMap_append, hnew, List.append_nil,
    flatMap_filter_of_eq_nil fun row hrow hp => hnone row hrow (by simpa using hp)]

/-- The filter for one name and one value, with the largest limit there is. -/
def tagFilter (name : Char) (value : String) : SubscriptionFilter :=
  ⟨none, none, none, none, none, some 9007199254740991, [(name, [value])]⟩

theorem mem_select_tagFilter {name : Char} {value : String} :
    row ∈ select db (tagFilter name value) ↔
      row ∈ db.events ∧ ∃ t ∈ db.eventTags, t.eventId = row.eventId ∧ t.tagName.toList = [name] ∧
        t.tagValue = value := by
  rw [mem_select]
  refine and_congr_right fun _ => ⟨?_, ?_⟩
  · rintro ⟨tag, htag, hconditions⟩
    simp only [SubscriptionFilter.conditions, tagFilter, Bool.and_eq_true, List.all_eq_true,
      List.mem_singleton, forall_eq] at hconditions
    obtain ⟨t, rfl, hname, hmatch⟩ := tagMatches_iff.mp hconditions.2
    obtain ⟨ht, hid⟩ := (some_mem_joinedTags rfl).mp htag
    exact ⟨t, ht, hid, hname, List.mem_singleton.mp hmatch⟩
  · rintro ⟨t, ht, hid, hname, hmatch⟩
    refine ⟨some t, (some_mem_joinedTags rfl).mpr ⟨ht, hid⟩, ?_⟩
    simp only [SubscriptionFilter.conditions, tagFilter, prefixesMatch, Bool.and_eq_true,
      List.all_eq_true, List.mem_singleton, forall_eq]
    exact ⟨by simp, tagMatches_iff.mpr ⟨t, rfl, hname, List.mem_singleton.mpr hmatch⟩⟩

/-- Nothing is cut off, as long as that many rows fit. -/
theorem mem_selected_of_mem_select {name : Char} {value : String} (hvalue : textError value = none)
    (hsize : (select db (tagFilter name value)).length ≤ 9007199254740991)
    (h : row ∈ select db (tagFilter name value)) : row ∈ selected [tagFilter name value] db := by
  have hruns : (tagFilter name value).Runs := by
    refine ⟨rfl, ?_⟩
    simp [SubscriptionFilter.error, tagFilter, prefixErrors, hvalue]
  rw [selected_of_runs (by simp) (by simpa using hruns), runQuery, orderAndLimit_eq,
    List.take_of_length_le]
  · exact mem_joined.mpr h
  · exact length_joined.trans_le hsize

/-- **An indexed row that is archived** is not found any more. -/
theorem exists_selectedEvents_ne (h : Archived P minTs hot remote tags P.cutoff s)
    (hsize : ∀ f, (select ⟨hot ++ remote, tags⟩ f).length ≤ 9007199254740991)
    (hrow : row ∈ hot) (hin : inWindow minTs P.cutoff row = true) (hindexed : Indexed tags row) :
    ¬ TagQueriesUnchanged ⟨hot ++ remote, tags⟩ s.tables := by
  obtain ⟨t, ht, hid, name, hname, hcriterion, hvalue⟩ := hindexed
  intro hsame
  have hbefore : toNostrEvent row ∈ selectedEvents ⟨hot ++ remote, tags⟩ (tagFilter name t.tagValue) :=
    ⟨row, mem_selected_of_mem_select hvalue (hsize _)
      (mem_select_tagFilter.mpr ⟨List.mem_append_left _ hrow, t, ht, hid, hname, rfl⟩), rfl⟩
  have hschema : filterSchema (tagFilter name t.tagValue) = true := by
    simp [filterSchema, tagFilter, hcriterion]
  rw [← hsame _ hschema rfl] at hbefore
  obtain ⟨row', hrow', heq⟩ := hbefore
  have hid' : row'.eventId = row.eventId := Bytes.toHex_injective (congrArg Event.id heq)
  -- the entries with this id are gone
  have hgone : ∀ t' ∈ s.eventTags, t'.eventId ≠ row.eventId := by
    intro t' ht'
    rw [h.eventTags, List.mem_filter, List.all_eq_true] at ht'
    exact of_decide_eq_true (ht'.2 row (List.mem_filter.mpr ⟨hrow, hin⟩))
  have hselect : row' ∈ select s.tables (tagFilter name t.tagValue) := by
    have hwithin := (mem_selected_single.mp hrow').2
    exact of_decide_eq_true (Bool.and_eq_true_iff.mp hwithin).1
  obtain ⟨-, t', ht', heq', -⟩ := mem_select_tagFilter.mp hselect
  exact hgone t' ht' (heq'.trans hid')

/-- **When tag queries are unchanged**: exactly if no row of `events_hot`
between `minTs` and the cutoff has an entry that a filter can name.  (The
tables of PostgreSQL are too small to reach the size.) -/
theorem tagQueriesUnchanged_iff (harchives : Archives P minTs hot remote tags s)
    (hsize : ∀ f, (select ⟨hot ++ remote, tags⟩ f).length ≤ 9007199254740991) :
    TagQueriesUnchanged ⟨hot ++ remote, tags⟩ s.tables ↔
      ∀ row ∈ hot, inWindow minTs P.cutoff row = true → ¬ Indexed tags row := by
  have harchived := archived_of_archives harchives
  constructor
  · intro hsame row hrow hin hindexed
    exact exists_selectedEvents_ne harchived hsize hrow hin hindexed hsame
  · intro hclear f hschema hquery
    by_cases hruns : f.Runs
    · have hselect := select_eq_of_not_indexed harchived hclear hschema hquery hruns.2
      have hselected : selected [f] s.tables = selected [f] ⟨hot ++ remote, tags⟩ := by
        rw [selected_of_runs (by simp) (by simpa using hruns),
          selected_of_runs (by simp) (by simpa using hruns), runQuery, runQuery, hselect]
      rw [selectedEvents, selectedEvents, hselected]
    · -- a query that raises an error selects nothing before and after
      rw [selectedEvents, selectedEvents, selected_of_not_runs List.mem_cons_self hruns,
        selected_of_not_runs List.mem_cons_self hruns]

/-! ### Runs that end -/

theorem exists_isOrder (rows : List EventRow) : ∃ order, IsOrder rows order := by
  have : Std.Total fun r s : EventRow => r.eventCreatedAt ≤ s.eventCreatedAt :=
    ⟨fun r s => le_total _ _⟩
  have : IsTrans EventRow fun r s : EventRow => r.eventCreatedAt ≤ s.eventCreatedAt :=
    ⟨fun _ _ _ h₁ h₂ => h₁.trans h₂⟩
  exact ⟨_, List.perm_insertionSort _ rows, List.pairwise_insertionSort _ rows⟩

/-- The pages of a window are copied one after the other, and then it is
deleted. -/
theorem exists_pass (n : ℕ) {pass : Pass} (hn : pass.windowCount - pass.subOffset ≤ n) :
    ∃ hot' remote' tags', Relation.ReflTransGen (SuccessStep P)
      ⟨⟨hot, remote, .copying pass⟩, tags⟩ ⟨⟨hot', remote', .window pass.batchEnd⟩, tags'⟩ := by
  have hdelete : ∀ (remote : List EventRow) (pass : Pass), ¬ pass.subOffset < pass.windowCount →
      ∃ hot' remote' tags', Relation.ReflTransGen (SuccessStep P)
        ⟨⟨hot, remote, .copying pass⟩, tags⟩ ⟨⟨hot', remote', .window pass.batchEnd⟩, tags'⟩ :=
    fun remote pass hdone => ⟨_, _, _, .single ⟨.delete, trivial, .delete _ _ _ hdone, rfl⟩⟩
  induction n generalizing remote pass with
  | zero => exact hdelete remote pass (by omega)
  | succ n ih =>
      by_cases hmore : pass.subOffset < pass.windowCount
      · obtain ⟨order, horder⟩ := exists_isOrder (windowRows pass.batchStart pass.batchEnd hot)
        have hsize := P.batchSize_pos
        have hnext : (pass.next P (some order)).windowCount - (pass.next P (some order)).subOffset
            ≤ n := by
          show pass.windowCount - (pass.subOffset + P.batchSize) ≤ n
          omega
        have hcopy : SuccessStep P ⟨⟨hot, remote, .copying pass⟩, tags⟩
            ⟨⟨hot, copyRows (page P.batchSize pass.subOffset order) remote,
              .copying (pass.next P (some order))⟩, tags⟩ :=
          ⟨.copy order, trivial, .copy _ _ _ _ hmore horder, rfl⟩
        obtain ⟨hot', remote', tags', hrun⟩ := ih hnext
        exact ⟨hot', remote', tags', .head hcopy hrun⟩
      · exact hdelete remote pass hmore

/-- **The loop ends**, if its windows have some width. -/
theorem exists_archives (hwidth : 0 < P.batchWindow) (minTs : ℤ) (hot remote : List EventRow)
    (tags : List EventTagRow) : ∃ s, Archives P minTs hot remote tags s := by
  obtain ⟨n, hn⟩ : ∃ n : ℕ, P.cutoff - minTs ≤ n := ⟨(P.cutoff - minTs).toNat, by omega⟩
  induction n generalizing minTs hot remote tags with
  | zero =>
      exact ⟨⟨⟨hot, remote, .stopped⟩, tags⟩,
        .single ⟨.finish, trivial, .finish _ _ _ (by omega), rfl⟩, rfl⟩
  | succ n ih =>
      by_cases hlt : minTs < P.cutoff
      · have hbatchEnd : batchEndOf P minTs = min (minTs + P.batchWindow) P.cutoff := rfl
        have hnext : P.cutoff - batchEndOf P minTs ≤ n := by omega
        by_cases hempty : windowRows minTs (batchEndOf P minTs) hot = []
        · obtain ⟨s, hrun, hstopped⟩ := ih (batchEndOf P minTs) hot remote tags hnext
          have hskip : SuccessStep P ⟨⟨hot, remote, .window minTs⟩, tags⟩
              ⟨⟨hot, remote, .window (batchEndOf P minTs)⟩, tags⟩ :=
            ⟨.countEmpty, trivial, .countEmpty _ _ _ hlt hempty, rfl⟩
          exact ⟨s, .head hskip hrun, hstopped⟩
        · let pass : Pass := ⟨minTs, batchEndOf P minTs,
            (windowRows minTs (batchEndOf P minTs) hot).length, 0, remote, [], []⟩
          obtain ⟨hot', remote', tags', hpass⟩ :=
            exists_pass pass.windowCount (Nat.sub_le pass.windowCount pass.subOffset)
          obtain ⟨s, hrun, hstopped⟩ := ih (batchEndOf P minTs) hot' remote' tags' hnext
          have hcount : SuccessStep P ⟨⟨hot, remote, .window minTs⟩, tags⟩
              ⟨⟨hot, remote, .copying pass⟩, tags⟩ :=
            ⟨.count, trivial, .count _ _ _ hlt hempty, rfl⟩
          exact ⟨s, .head hcount (hpass.trans hrun), hstopped⟩
      · exact ⟨⟨⟨hot, remote, .stopped⟩, tags⟩,
          .single ⟨.finish, trivial, .finish _ _ _ hlt, rfl⟩, rfl⟩

/-- A row is joined at most once to each tag. -/
theorem length_select_le (db : Database) (f : SubscriptionFilter) :
    (select db f).length ≤ db.events.length * (db.eventTags.length + 1) := by
  have hjoins : ∀ row, joins db f row ≤ db.eventTags.length + 1 := by
    intro row
    refine (List.length_filter_le _ _).trans ?_
    rw [joinedTags]
    split
    · split
      · exact Nat.le_add_left 1 _
      · rw [List.length_map]
        exact (List.length_filter_le _ _).trans (Nat.le_succ _)
    · exact Nat.le_add_left 1 _
  rw [select_eq]
  induction db.events with
  | nil => simp
  | cons row rows ih =>
      have hrow := hjoins row
      rw [List.flatMap_cons, List.length_append, List.length_replicate, List.length_cons,
        Nat.succ_mul]
      omega

/-- A note without tags is archived beside one with topics that was archived
before. -/
theorem tagQueriesUnchanged_olderRow : ∃ s, Archives dayParams 1700000000 [olderRow] [topicsRow]
      (tagRows topicsRow) s ∧
    TagQueriesUnchanged ⟨[olderRow] ++ [topicsRow], tagRows topicsRow⟩ s.tables := by
  obtain ⟨s, harchives⟩ : ∃ s, Archives dayParams 1700000000 [olderRow] [topicsRow]
      (tagRows topicsRow) s := exists_archives (by decide) _ _ _ _
  refine ⟨s, harchives, (tagQueriesUnchanged_iff harchives fun f => ?_).mpr ?_⟩
  · exact (length_select_le _ _).trans (by decide +kernel)
  · rintro row hrow - ⟨t, ht, hid, -⟩
    obtain rfl := List.mem_singleton.mp hrow
    have hother : ∀ t ∈ tagRows topicsRow, t.eventId ≠ olderRow.eventId := by decide +kernel
    exact hother t ht hid

/-- The note with topics is archived, and no topic finds it any more. -/
theorem archives_topicsRow : ¬ ∀ (P : Params) (minTs : ℤ) (hot remote : List EventRow)
    (tags : List EventTagRow) (s : State), Archives P minTs hot remote tags s →
      TagQueriesUnchanged ⟨hot ++ remote, tags⟩ s.tables := by
  intro h
  obtain ⟨s, harchives⟩ : ∃ s, Archives dayParams 1700000000 [topicsRow] [] (tagRows topicsRow) s :=
    exists_archives (by decide) _ _ _ _
  refine exists_selectedEvents_ne (archived_of_archives harchives) (fun f => ?_)
    List.mem_cons_self (by decide) ?_ (h _ _ _ _ _ s harchives)
  · exact (length_select_le _ _).trans (by decide +kernel)
  · exact ⟨⟨topicsRow.eventId, "t", "a"⟩, by decide +kernel, rfl, 't', rfl, by decide, by decide⟩

end NostrMesh.Relay.TagArchive
