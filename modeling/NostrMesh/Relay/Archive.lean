/-
NostrMesh/Relay/Archive.lean

The archival loop of `archive-events.sh`, with rows arriving in `events_hot`
while it runs.

The outer loop walks over windows of `event_created_at`.  For each it counts
the rows, copies them to the storage node page by page, and deletes the
window from `events_hot`.  The copies and the delete are separate `psql`
calls.  Each may fail, and then has no effect; a count that fails ends the
script (`set -e`), while `|| echo 0` turns a failed copy or delete into a
number and the loop goes on.  (A server that takes no conflict target on a
foreign table is the choice where every copy fails.)

A `Pass` is the work on one window.  Its last fields record what no variable of
the script holds: the rows on the storage node when the window was counted,
the row order that each copy call read (`none` for a call that failed), and
the rows that arrived in the window since.  The delete of a window is
`Covered` if those records show every row it removes; `neverLoses_of_covered`
says that a loop whose deletes are all covered loses nothing.  It is so if all
copy calls succeed and read one order, and no row arrives
(`covered_of_oneOrder`).
-/
import Mathlib.Logic.Relation
import NostrMesh.Relay.Schema

namespace NostrMesh.Relay.Archive

open Tables

/-! ### The loop -/

/-- The arguments of the script. -/
structure Params where
  cutoff : ℤ
  batchWindow : ℤ
  batchSize : ℕ
  batchSize_pos : 0 < batchSize

/-- The work on the window from `batchStart` to `batchEnd`. -/
structure Pass where
  batchStart : ℤ
  batchEnd : ℤ
  windowCount : ℕ
  subOffset : ℕ
  counted : List EventRow
  copies : List (Option (List EventRow))
  arrived : List EventRow

/-- Where the script stands. -/
inductive Position
  | window (batchStart : ℤ)
  | copying (pass : Pass)
  | stopped

structure State where
  eventsHot : List EventRow
  remote : List EventRow
  position : Position

/-- `event_created_at >= batchStart AND event_created_at < batchEnd`. -/
def inWindow (batchStart batchEnd : ℤ) (row : EventRow) : Bool :=
  batchStart ≤ row.eventCreatedAt && row.eventCreatedAt < batchEnd

def windowRows (batchStart batchEnd : ℤ) (rows : List EventRow) : List EventRow :=
  rows.filter (inWindow batchStart batchEnd)

/-- `BATCH_END`. -/
def batchEndOf (P : Params) (batchStart : ℤ) : ℤ :=
  min (batchStart + P.batchWindow) P.cutoff

/-- A result of `SELECT … ORDER BY event_created_at`: the rows in some order
that respects the times. -/
def IsOrder (rows order : List EventRow) : Prop :=
  List.Perm order rows ∧ order.Pairwise fun r s => r.eventCreatedAt ≤ s.eventCreatedAt

/-- `LIMIT size OFFSET offset`. -/
def page (size offset : ℕ) (order : List EventRow) : List EventRow :=
  (order.drop offset).take size

/-- The unique index of the storage node. -/
def eventsDataEventIdUidx : IndexDef := ⟨"events_data_event_id_uidx", [.eventId], none⟩

/-- `INSERT … ON CONFLICT (event_id) DO NOTHING`. -/
def copyRows (rows remote : List EventRow) : List EventRow :=
  rows.foldl
    (fun remote row =>
      (insertIgnore [eventsDataEventIdUidx.toUniqueIndex] row remote).apply remote)
    remote

/-- A row arrives during the work on a window. -/
def Pass.arrive (pass : Pass) (row : EventRow) : Pass :=
  if inWindow pass.batchStart pass.batchEnd row then
    { pass with arrived := pass.arrived ++ [row] }
  else pass

def Position.arrive (row : EventRow) : Position → Position
  | .copying pass => .copying (pass.arrive row)
  | position => position

/-- The next sub-batch, after a copy call that did `copy`. -/
def Pass.next (P : Params) (pass : Pass) (copy : Option (List EventRow)) : Pass :=
  { pass with subOffset := pass.subOffset + P.batchSize, copies := pass.copies ++ [copy] }

/-- What can happen next: which call comes and whether it succeeds. -/
inductive Action
  | arrive (row : EventRow)
  | interrupt
  | finish
  | countFails
  | countEmpty
  | count
  | copy (order : List EventRow)
  | copyFails
  | delete
  | deleteFails

/-- One step: of the script, or of another writer of `events_hot`. -/
inductive Step (P : Params) : Action → State → State → Prop
  /-- Another writer inserts a row. -/
  | arrive (hot remote position row) :
      Step P (.arrive row) ⟨hot, remote, position⟩ ⟨hot ++ [row], remote, position.arrive row⟩
  /-- The script is interrupted. -/
  | interrupt (hot remote position) :
      Step P .interrupt ⟨hot, remote, position⟩ ⟨hot, remote, .stopped⟩
  /-- `[ "$BATCH_START" -lt "$CUTOFF" ]` is false. -/
  | finish (hot remote batchStart) :
      ¬ batchStart < P.cutoff →
      Step P .finish ⟨hot, remote, .window batchStart⟩ ⟨hot, remote, .stopped⟩
  | countFails (hot remote batchStart) :
      batchStart < P.cutoff →
      Step P .countFails ⟨hot, remote, .window batchStart⟩ ⟨hot, remote, .stopped⟩
  | countEmpty (hot remote batchStart) :
      batchStart < P.cutoff →
      windowRows batchStart (batchEndOf P batchStart) hot = [] →
      Step P .countEmpty ⟨hot, remote, .window batchStart⟩
        ⟨hot, remote, .window (batchEndOf P batchStart)⟩
  | count (hot remote batchStart) :
      batchStart < P.cutoff →
      windowRows batchStart (batchEndOf P batchStart) hot ≠ [] →
      Step P .count ⟨hot, remote, .window batchStart⟩
        ⟨hot, remote, .copying
          { batchStart
            batchEnd := batchEndOf P batchStart
            windowCount := (windowRows batchStart (batchEndOf P batchStart) hot).length
            subOffset := 0
            counted := remote
            copies := []
            arrived := [] }⟩
  | copy (hot remote) (pass : Pass) (order) :
      pass.subOffset < pass.windowCount →
      IsOrder (windowRows pass.batchStart pass.batchEnd hot) order →
      Step P (.copy order) ⟨hot, remote, .copying pass⟩
        ⟨hot, copyRows (page P.batchSize pass.subOffset order) remote,
          .copying (pass.next P (some order))⟩
  | copyFails (hot remote) (pass : Pass) :
      pass.subOffset < pass.windowCount →
      Step P .copyFails ⟨hot, remote, .copying pass⟩ ⟨hot, remote, .copying (pass.next P none)⟩
  | delete (hot remote) (pass : Pass) :
      ¬ pass.subOffset < pass.windowCount →
      Step P .delete ⟨hot, remote, .copying pass⟩
        ⟨hot.filter fun row => !inWindow pass.batchStart pass.batchEnd row, remote,
          .window pass.batchEnd⟩
  | deleteFails (hot remote) (pass : Pass) :
      ¬ pass.subOffset < pass.windowCount →
      Step P .deleteFails ⟨hot, remote, .copying pass⟩ ⟨hot, remote, .window pass.batchEnd⟩

/-- The ids in one of the two tables. -/
def held (s : State) : List Bytes :=
  s.eventsHot.map EventRow.eventId ++ s.remote.map EventRow.eventId

/-- The row was on the storage node when the window was counted, or a copy call
that succeeded has read it since. -/
def Pass.Reaches (P : Params) (pass : Pass) (row : EventRow) : Prop :=
  row.eventId ∈ pass.counted.map EventRow.eventId ∨
    ∃ i order, pass.copies[i]? = some (some order) ∧ row ∈ page P.batchSize (i * P.batchSize) order

/-- Every row that the delete removes was reached. -/
def Pass.Covered (P : Params) (pass : Pass) (hot : List EventRow) : Prop :=
  ∀ row ∈ windowRows pass.batchStart pass.batchEnd hot, pass.Reaches P row

/-- Any step. -/
def AnyStep (P : Params) (s s' : State) : Prop := ∃ a, Step P a s s'

/-- A step that is no delete of a window that the copies have not covered. -/
def CoveredStep (P : Params) (s s' : State) : Prop :=
  ∃ a, Step P a s s' ∧
    (a = .delete → ∀ pass, s.position = .copying pass → pass.Covered P s.eventsHot)

/-- At every point of every run of `step` from the first window on, each event
that was ever in one of the two tables still is. -/
def NeverLoses (step : State → State → Prop) (hot remote : List EventRow) (minTs : ℤ) : Prop :=
  ∀ s s', Relation.ReflTransGen step ⟨hot, remote, .window minTs⟩ s →
    Relation.ReflTransGen step s s' → held s ⊆ held s'

/-! ### What the copies have reached -/

variable {P : Params}

theorem mem_held {s : State} {id : Bytes} :
    id ∈ held s ↔ (∃ r ∈ s.eventsHot, r.eventId = id) ∨ ∃ r ∈ s.remote, r.eventId = id := by
  simp [held]

theorem eventId_copyRows (rows : List EventRow) {remote : List EventRow} {id : Bytes}
    (h : id ∈ rows.map EventRow.eventId ∨ id ∈ remote.map EventRow.eventId) :
    id ∈ (copyRows rows remote).map EventRow.eventId := by
  induction rows generalizing remote with
  | nil => simpa [copyRows] using h
  | cons row rows ih =>
      refine ih ?_
      dsimp only
      rw [List.map_cons, List.mem_cons] at h
      rcases insertIgnore_cases [eventsDataEventIdUidx.toUniqueIndex] row remote with
        ⟨he, -⟩ | ⟨he, u, hu, r, hr, hclash⟩
      · rw [he]
        rcases h with (rfl | h) | h
        · exact Or.inr (by simp [Change.apply])
        · exact Or.inl h
        · exact Or.inr (by simpa [Change.apply] using Or.inl h)
      · rw [he]
        rcases h with (rfl | h) | h
        · -- the row is suppressed by one with the same id
          obtain rfl := List.mem_singleton.mp hu
          have hid : r.eventId = row.eventId := by
            simpa [UniqueIndex.Clash, IndexDef.toUniqueIndex, IndexDef.key, eventsDataEventIdUidx,
              EventRow.column] using hclash
          exact Or.inr (hid ▸ List.mem_map_of_mem hr)
        · exact Or.inl h
        · exact Or.inr h

/-- What holds during the work on a window: the rows that were counted are
still there, before those that arrived, and what the calls have reached is on
the storage node. -/
structure Pass.Inv (P : Params) (pass : Pass) (hot remote : List EventRow) : Prop where
  window : ∃ base, windowRows pass.batchStart pass.batchEnd hot = base ++ pass.arrived ∧
    base.length = pass.windowCount
  offset : pass.subOffset = pass.copies.length * P.batchSize
  order : pass.arrived = [] → ∀ order, some order ∈ pass.copies →
    List.Perm order (windowRows pass.batchStart pass.batchEnd hot)
  reached : ∀ row, pass.Reaches P row → row.eventId ∈ remote.map EventRow.eventId

def Inv (P : Params) (s : State) : Prop :=
  match s.position with
  | .copying pass => pass.Inv P s.eventsHot s.remote
  | _ => True

theorem windowRows_append (a b : ℤ) (hot : List EventRow) (row : EventRow) :
    windowRows a b (hot ++ [row])
      = windowRows a b hot ++ if inWindow a b row then [row] else [] := by
  rw [windowRows, windowRows, List.filter_append, List.filter_singleton, Bool.cond_eq_ite]

theorem Pass.Inv.arrive {pass : Pass} {hot remote : List EventRow} (h : pass.Inv P hot remote)
    (row : EventRow) : (pass.arrive row).Inv P (hot ++ [row]) remote := by
  obtain ⟨base, hbase, hlen⟩ := h.window
  by_cases hin : inWindow pass.batchStart pass.batchEnd row = true
  · rw [Pass.arrive, if_pos hin]
    refine ⟨⟨base, ?_, hlen⟩, h.offset, fun harr => ?_, h.reached⟩
    · rw [windowRows_append, hbase, if_pos hin, List.append_assoc]
    · -- something has arrived, so nothing is claimed of the orders
      simp at harr
  · rw [Pass.arrive, if_neg hin]
    have hsame : windowRows pass.batchStart pass.batchEnd (hot ++ [row])
        = windowRows pass.batchStart pass.batchEnd hot := by
      rw [windowRows_append, if_neg hin, List.append_nil]
    exact ⟨⟨base, hsame.trans hbase, hlen⟩, h.offset, fun harr order hmem =>
      hsame ▸ h.order harr order hmem, h.reached⟩

/-- What the pass has reached after one more call. -/
theorem Pass.reaches_next {pass : Pass} {copy : Option (List EventRow)} {row : EventRow}
    (h : (pass.next P copy).Reaches P row) :
    pass.Reaches P row ∨
      ∃ order, copy = some order ∧ row ∈ page P.batchSize (pass.copies.length * P.batchSize) order := by
  obtain hcounted | ⟨i, order, hcopy, hrow⟩ := h
  · exact Or.inl (Or.inl hcounted)
  · rw [Pass.next, List.getElem?_append] at hcopy
    split at hcopy
    · exact Or.inl (Or.inr ⟨i, order, hcopy, hrow⟩)
    · next hlt =>
      obtain ⟨hi, heq⟩ := List.getElem?_eq_some_iff.mp hcopy
      have hi' : i = pass.copies.length := by
        simp at hi
        omega
      subst hi'
      exact Or.inr ⟨order, by simpa using heq, hrow⟩

theorem Pass.Inv.copy {pass : Pass} {hot remote order : List EventRow} (h : pass.Inv P hot remote)
    (horder : IsOrder (windowRows pass.batchStart pass.batchEnd hot) order) :
    (pass.next P (some order)).Inv P hot
      (copyRows (page P.batchSize pass.subOffset order) remote) := by
  refine ⟨h.window, ?_, fun harr order' hmem => ?_, fun row hreaches => eventId_copyRows _ ?_⟩
  · simp [Pass.next, h.offset, Nat.add_mul]
  · rcases List.mem_append.mp hmem with hold | hnew
    · exact h.order harr order' hold
    · obtain rfl : order' = order := by simpa using hnew
      exact horder.1
  · obtain hold | ⟨order', heq, hrow⟩ := Pass.reaches_next hreaches
    · exact Or.inr (h.reached row hold)
    · obtain rfl := Option.some.inj heq
      rw [h.offset]
      exact Or.inl (List.mem_map_of_mem hrow)

theorem Pass.Inv.copyFails {pass : Pass} {hot remote : List EventRow}
    (h : pass.Inv P hot remote) : (pass.next P none).Inv P hot remote := by
  refine ⟨h.window, ?_, fun harr order hmem => ?_, fun row hreaches => ?_⟩
  · simp [Pass.next, h.offset, Nat.add_mul]
  · exact h.order harr order (by simpa [Pass.next] using hmem)
  · obtain hold | ⟨order, heq, -⟩ := Pass.reaches_next hreaches
    · exact h.reached row hold
    · cases heq

theorem inv_step {a : Action} {s s' : State} (h : Step P a s s') (hinv : Inv P s) : Inv P s' := by
  cases h with
  | arrive hot remote position row =>
      cases position with
      | window _ => trivial
      | copying pass => exact Pass.Inv.arrive hinv row
      | stopped => trivial
  | count hot remote batchStart _ _ =>
      refine ⟨⟨_, (List.append_nil _).symm, rfl⟩, (Nat.zero_mul _).symm, fun _ _ hmem => ?_, ?_⟩
      · cases hmem
      · rintro row (hcounted | ⟨i, order, hcopy, -⟩)
        · exact hcounted
        · cases hcopy
  | copy hot remote pass order _ horder => exact Pass.Inv.copy hinv horder
  | copyFails hot remote pass _ => exact Pass.Inv.copyFails hinv
  | _ => trivial

/-- The pages of one order hold its first rows. -/
theorem mem_page_of_mem_take {size n : ℕ} {order : List EventRow} {row : EventRow}
    (h : row ∈ order.take (n * size)) : ∃ i < n, row ∈ page size (i * size) order := by
  induction n with
  | zero => simp at h
  | succ n ih =>
      rw [Nat.add_mul, Nat.one_mul, List.take_add, List.mem_append] at h
      rcases h with hold | hnew
      · obtain ⟨i, hi, hrow⟩ := ih hold
        exact ⟨i, Nat.lt_succ_of_lt hi, hrow⟩
      · exact ⟨n, Nat.lt_succ_self n, hnew⟩

/-- **A pass that is through covers its window** if every copy call succeeded,
all of them read the rows in one order, and no row arrived since the count. -/
theorem covered_of_oneOrder {pass : Pass} {hot remote order : List EventRow}
    (h : pass.Inv P hot remote) (hdone : ¬ pass.subOffset < pass.windowCount)
    (hall : ∀ copy ∈ pass.copies, copy = some order) (harr : pass.arrived = []) :
    pass.Covered P hot := by
  intro row hrow
  obtain ⟨base, hbase, hlen⟩ := h.window
  rw [harr, List.append_nil] at hbase
  rw [h.offset] at hdone
  rcases hcopies : pass.copies with - | ⟨copy, copies⟩
  · -- no copy call: the window was empty
    rw [hcopies, List.length_nil, Nat.zero_mul] at hdone
    rw [hbase, List.length_eq_zero_iff.mp (by omega : base.length = 0)] at hrow
    cases hrow
  · have hcopy : some order ∈ pass.copies := by
      rw [← hall copy (hcopies ▸ List.mem_cons_self), hcopies]
      exact List.mem_cons_self
    have hperm := h.order harr order hcopy
    have hlength : order.length ≤ pass.copies.length * P.batchSize := by
      rw [hperm.length_eq, hbase]
      omega
    have hfirst : row ∈ order.take (pass.copies.length * P.batchSize) := by
      rw [List.take_of_length_le hlength]
      exact hperm.mem_iff.mpr hrow
    obtain ⟨i, hi, hpage⟩ := mem_page_of_mem_take hfirst
    refine Or.inr ⟨i, order, ?_, hpage⟩
    rw [List.getElem?_eq_getElem hi, hall _ (List.getElem_mem hi)]

/-! ### Nothing is lost -/

theorem held_subset_of_coveredStep {s s' : State} (h : CoveredStep P s s') (hinv : Inv P s) :
    held s ⊆ held s' := by
  obtain ⟨a, hstep, hcov⟩ := h
  intro id hid
  rw [mem_held] at hid ⊢
  cases hstep with
  | arrive hot remote position row =>
      exact hid.imp_left fun ⟨r, hr, he⟩ => ⟨r, List.mem_append_left _ hr, he⟩
  | copy hot remote pass order _ _ =>
      rcases hid with hid | ⟨r, hr, he⟩
      · exact Or.inl hid
      · obtain ⟨r', hr', he'⟩ := List.mem_map.mp
          (eventId_copyRows (page P.batchSize pass.subOffset order)
            (Or.inr (List.mem_map_of_mem hr)))
        exact Or.inr ⟨r', hr', he'.trans he⟩
  | delete hot remote pass hdone =>
      rcases hid with ⟨r, hr, he⟩ | hid
      · by_cases hin : inWindow pass.batchStart pass.batchEnd r = true
        · have hreaches := hcov rfl pass rfl r (List.mem_filter.mpr ⟨hr, hin⟩)
          obtain ⟨r', hr', he'⟩ := List.mem_map.mp (Pass.Inv.reached hinv r hreaches)
          exact Or.inr ⟨r', hr', he'.trans he⟩
        · -- not in the window, so not deleted
          exact Or.inl ⟨r, List.mem_filter.mpr ⟨hr, by simpa using hin⟩, he⟩
      · exact Or.inr hid
  | _ => exact hid

theorem inv_of_coveredRun {s s' : State} (h : Relation.ReflTransGen (CoveredStep P) s s')
    (hinv : Inv P s) : Inv P s' := by
  induction h with
  | refl => exact hinv
  | tail _ hstep ih =>
      obtain ⟨a, hstep, -⟩ := hstep
      exact inv_step hstep ih

/-- **A loop whose deletes are all covered loses nothing**, whatever rows
arrive and wherever it is interrupted. -/
theorem neverLoses_of_covered (P : Params) (hot remote : List EventRow) (minTs : ℤ) :
    NeverLoses (CoveredStep P) hot remote minTs := by
  intro s s' hs hs'
  have hinv : Inv P s := inv_of_coveredRun hs trivial
  induction hs' with
  | refl => exact List.Subset.refl _
  | tail hrun hstep ih =>
      exact List.Subset.trans ih
        (held_subset_of_coveredStep hstep (inv_of_coveredRun (hs.trans hrun) trivial))

/-- A note in `events_hot`. -/
def noteRow : EventRow where
  eventId := Bytes.ofHex "f6ba3ca62212c06f6e7dff7f9e5269d153015944690b99a427fe38778a1941b9"
  eventPubkey := Bytes.ofHex "87ba3a258367ea438900a86e70924f0446e7ef120a3d5b668f3ba56910ec993f"
  eventKind := 1
  eventCreatedAt := 1700000000
  eventContent := "hello"
  eventTags := []
  eventSignature := []
  eventDeduplication := none
  remoteAddress := none
  expiresAt := none
  firstSeen := 0
  deletedAt := none

/-- The default batches, up to a day after the note. -/
def dayParams : Params := ⟨1700086400, 86400, 5000, by decide⟩

/-- One failed copy, and the delete removes a row that is nowhere else. -/
theorem noteRow_lost : ¬ NeverLoses (AnyStep dayParams) [noteRow] [] 1700000000 := by
  intro h
  let pass : Pass := ⟨1700000000, 1700086400, 1, 0, [], [], []⟩
  have hcount : AnyStep dayParams ⟨[noteRow], [], .window 1700000000⟩
      ⟨[noteRow], [], .copying pass⟩ :=
    ⟨.count, .count _ _ _ (by decide) (by decide)⟩
  have hcopy : AnyStep dayParams ⟨[noteRow], [], .copying pass⟩
      ⟨[noteRow], [], .copying (pass.next dayParams none)⟩ :=
    ⟨.copyFails, .copyFails _ _ _ (by decide)⟩
  have hdelete : AnyStep dayParams ⟨[noteRow], [], .copying (pass.next dayParams none)⟩
      ⟨[], [], .window 1700086400⟩ :=
    ⟨.delete, .delete _ _ _ (by decide)⟩
  have hrun := (Relation.ReflTransGen.single hcount).tail hcopy |>.tail hdelete
  exact absurd (h _ _ .refl hrun (a := noteRow.eventId) (by decide)) (by decide)

end NostrMesh.Relay.Archive
