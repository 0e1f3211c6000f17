/-
NostrMesh/Lib/Feed.lean

A snapshot, and the announcements that come after it.

A reader wants the items of a table that others change.  It takes a snapshot
and receives the items in it one after the other; besides, every item that is
added is announced to it.  A `Feed` is what there is to say about this reader
at one moment.  `Feed.Step` lists what may happen until the next one, in an
order that leaves no gap:

* an item is announced when it is added, or later, but not earlier;
* an announcement that is no longer on its way has been received, also before
  the snapshot.

So each item of the table is received, or is still to come from the snapshot
or by an announcement (`Feed.Covered`), whatever the order of the steps.
-/
import Mathlib.Data.Set.Insert

variable {α : Type*}

/-- A reader of a table. -/
structure Feed (α : Type*) where
  table : Set α
  /-- The items whose announcement is on its way. -/
  announced : Set α
  /-- What is left of the snapshot, once it has been taken. -/
  rest : Option (Set α)
  received : Set α

namespace Feed

/-- What may happen between two moments. -/
structure Step (f f' : Feed α) : Prop where
  received : f.received ⊆ f'.received
  table : f'.table ⊆ f.table ∪ f'.announced
  announced : f.announced ⊆ f'.announced ∪ f'.received
  /-- A snapshot has what the table has. -/
  rest : ∀ R', f'.rest = some R' →
    (f.rest = none ∧ f'.table ⊆ R') ∨ ∃ R, f.rest = some R ∧ R ⊆ R' ∪ f'.received

/-- Once there is a snapshot, each item has been received or is to come. -/
def Covered (f : Feed α) : Prop := ∀ R, f.rest = some R → f.table ⊆ f.received ∪ f.announced ∪ R

variable {f f' : Feed α}

theorem covered_of_rest_eq_none (h : f.rest = none) : f.Covered :=
  fun _ hR => nomatch h.symm.trans hR

/-- A step that does not touch the snapshot. -/
theorem Step.of_rest_eq (hrest : f'.rest = f.rest) (hreceived : f.received ⊆ f'.received)
    (htable : f'.table ⊆ f.table ∪ f'.announced)
    (hannounced : f.announced ⊆ f'.announced ∪ f'.received) : Step f f' :=
  ⟨hreceived, htable, hannounced,
    fun R' hR' => Or.inr ⟨R', hrest.symm.trans hR', Set.subset_union_left⟩⟩

/-- **Every step keeps the items covered.** -/
theorem Step.covered (h : Step f f') (hf : f.Covered) : f'.Covered := by
  intro R' hR' a ha
  rcases h.rest R' hR' with ⟨-, htable⟩ | ⟨R, hR, hrest⟩
  · -- the snapshot has just been taken
    exact Or.inr (htable ha)
  · rcases h.table ha with hold | hnew
    · -- an item of before is covered as it was, or has been received since
      rcases hf R hR hold with (hreceived | hannounced) | hleft
      · exact Or.inl (Or.inl (h.received hreceived))
      · rcases h.announced hannounced with hstill | hreceived
        · exact Or.inl (Or.inr hstill)
        · exact Or.inl (Or.inl hreceived)
      · rcases hrest hleft with hstill | hreceived
        · exact Or.inr hstill
        · exact Or.inl (Or.inl hreceived)
    · exact Or.inl (Or.inr hnew)

/-- **No gap**: when the snapshot has been received, each item of the table
has, unless its announcement is on its way. -/
theorem Covered.mem_received (h : f.Covered) (hrest : f.rest = some ∅) {a : α} (ha : a ∈ f.table)
    (hannounced : a ∉ f.announced) : a ∈ f.received := by
  rcases h ∅ hrest ha with (hreceived | hstill) | hleft
  · exact hreceived
  · exact absurd hstill hannounced
  · exact hleft.elim

end Feed
