/-
NostrMesh/Lib/Table.lean

Tables with partial unique indexes, and the two insert statements that look
at a conflict instead of failing on it:

* `insertIgnore` — `INSERT … ON CONFLICT DO NOTHING`;
* `upsert`       — `INSERT … ON CONFLICT (arbiter) DO UPDATE SET … WHERE …`.

A unique index is its name and its key function; a row whose key is `none`
is outside the index (its predicate is false, or a key column is null).  A
statement yields the `Change` it makes to the table, so that a row trigger
can be run on the same change.
-/
import Mathlib.Data.List.Basic
import Mathlib.Data.List.Pairwise

namespace Tables

variable {ρ κ : Type*}

/-! ### Unique indexes -/

/-- A (partial) unique index. -/
structure UniqueIndex (ρ κ : Type*) where
  name : String
  key : ρ → Option κ

/-- The index does not allow both rows. -/
def UniqueIndex.Clash (u : UniqueIndex ρ κ) (r s : ρ) : Prop :=
  u.key r ≠ none ∧ u.key r = u.key s

instance [DecidableEq κ] (u : UniqueIndex ρ κ) (r s : ρ) : Decidable (u.Clash r s) :=
  inferInstanceAs (Decidable (_ ∧ _))

theorem UniqueIndex.Clash.symm {u : UniqueIndex ρ κ} {r s : ρ} (h : u.Clash r s) :
    u.Clash s r :=
  ⟨h.2 ▸ h.1, h.2.symm⟩

theorem UniqueIndex.Clash.trans {u : UniqueIndex ρ κ} {r s q : ρ} (h₁ : u.Clash r s)
    (h₂ : u.Clash s q) : u.Clash r q :=
  ⟨h₁.1, h₁.2.trans h₂.2⟩

/-- No index of `us` is violated within `t`. -/
def Unique (us : List (UniqueIndex ρ κ)) (t : List ρ) : Prop :=
  ∀ u ∈ us, t.Pairwise fun r s => ¬ u.Clash r s

variable {us : List (UniqueIndex ρ κ)} {t : List ρ} {u : UniqueIndex ρ κ} {r s row : ρ}

theorem unique_nil : Unique us ([] : List ρ) := fun _ _ => List.Pairwise.nil

/-- In a table that respects an index, the key determines the row. -/
theorem Unique.eq_of_clash (h : Unique us t) (hu : u ∈ us) (hr : r ∈ t) (hs : s ∈ t)
    (hc : u.Clash r s) : r = s := by
  by_contra hne
  have : Std.Symm fun r s => ¬ u.Clash r s := ⟨fun _ _ h hc => h hc.symm⟩
  exact (h u hu).forall hr hs hne hc

/-! ### Changes -/

/-- What one statement does to one row of a table. -/
inductive Change (ρ : Type*)
  | none
  | insert (new : ρ)
  | update (old new : ρ)
  deriving DecidableEq

/-- The row count that the database reports. -/
def Change.rowCount : Change ρ → ℕ
  | none => 0
  | insert _ => 1
  | update _ _ => 1

/-- The table after the change. -/
def Change.apply [DecidableEq ρ] : Change ρ → List ρ → List ρ
  | none, t => t
  | insert new, t => t ++ [new]
  | update old new, t => t.map fun r => if r = old then new else r

variable [DecidableEq ρ] [DecidableEq κ]

theorem mem_apply_update {old new : ρ} (h : old ∈ t) :
    r ∈ (Change.update old new).apply t ↔ r = new ∨ r ∈ t ∧ r ≠ old := by
  simp only [Change.apply, List.mem_map]
  constructor
  · rintro ⟨q, hq, rfl⟩
    split
    · exact Or.inl rfl
    · next hne => exact Or.inr ⟨hq, hne⟩
  · rintro (rfl | ⟨hr, hne⟩)
    · exact ⟨old, h, if_pos rfl⟩
    · exact ⟨r, hr, if_neg hne⟩

/-! ### The statements -/

/-- The first index under which `row` cannot stand next to the rows of `t`. -/
def violated (us : List (UniqueIndex ρ κ)) (t : List ρ) (row : ρ) : Option (UniqueIndex ρ κ) :=
  us.find? fun u => t.any fun r => u.Clash r row

/-- `INSERT … ON CONFLICT DO NOTHING`: any conflict suppresses the row. -/
def insertIgnore (us : List (UniqueIndex ρ κ)) (row : ρ) (t : List ρ) : Change ρ :=
  match violated us t row with
  | some _ => .none
  | none => .insert row

/-- `INSERT … ON CONFLICT (arbiter) DO UPDATE SET merge WHERE guard`: a row
that clashes under the arbiter is updated if the guard lets it, and any other
clash is an error with the name of its index. -/
def upsert (us : List (UniqueIndex ρ κ)) (arbiter : UniqueIndex ρ κ) (guard : ρ → Bool)
    (merge : ρ → ρ) (row : ρ) (t : List ρ) : Except String (Change ρ) :=
  match t.find? fun r => arbiter.Clash r row with
  | some old =>
      if guard old then
        match violated us (t.filter fun r => r ≠ old) (merge old) with
        | some u => .error u.name
        | none => .ok (.update old (merge old))
      else .ok .none
  | none =>
      match violated us t row with
      | some u => .error u.name
      | none => .ok (.insert row)

omit [DecidableEq ρ] in
theorem violated_eq_none_iff :
    violated us t row = none ↔ ∀ u ∈ us, ∀ r ∈ t, ¬ u.Clash r row := by
  simp [violated, List.find?_eq_none]

omit [DecidableEq ρ] in
theorem violated_eq_some (h : violated us t row = some u) :
    u ∈ us ∧ ∃ r ∈ t, u.Clash r row := by
  refine ⟨List.mem_of_find?_eq_some h, ?_⟩
  simpa using List.find?_some h

omit [DecidableEq ρ] in
/-- The two ways an ignoring insert can go. -/
theorem insertIgnore_cases (us : List (UniqueIndex ρ κ)) (row : ρ) (t : List ρ) :
    (insertIgnore us row t = .insert row ∧ ∀ u ∈ us, ∀ r ∈ t, ¬ u.Clash r row) ∨
    (insertIgnore us row t = .none ∧ ∃ u ∈ us, ∃ r ∈ t, u.Clash r row) := by
  rcases e : violated us t row with - | u
  · exact Or.inl ⟨by simp [insertIgnore, e], violated_eq_none_iff.mp e⟩
  · exact Or.inr ⟨by simp [insertIgnore, e], u, violated_eq_some e⟩

variable {arbiter : UniqueIndex ρ κ} {guard : ρ → Bool} {merge : ρ → ρ} {c : Change ρ}

/-- The three ways an upsert can succeed. -/
theorem upsert_cases (h : upsert us arbiter guard merge row t = .ok c) :
    (c = .insert row ∧ (∀ r ∈ t, ¬ arbiter.Clash r row) ∧ ∀ u ∈ us, ∀ r ∈ t, ¬ u.Clash r row) ∨
    (∃ old ∈ t, arbiter.Clash old row ∧ guard old = true ∧ c = .update old (merge old) ∧
      ∀ u ∈ us, ∀ r ∈ t, r ≠ old → ¬ u.Clash r (merge old)) ∨
    (c = .none ∧ ∃ old ∈ t, arbiter.Clash old row ∧ guard old = false) := by
  rw [upsert] at h
  rcases e : t.find? fun r => arbiter.Clash r row with - | old
  · simp only [e] at h
    have hno : ∀ r ∈ t, ¬ arbiter.Clash r row := by simpa using e
    rcases ev : violated us t row with - | u
    · simp only [ev, Except.ok.injEq] at h
      exact Or.inl ⟨h.symm, hno, violated_eq_none_iff.mp ev⟩
    · simp [ev] at h
  · simp only [e] at h
    have hold : old ∈ t := List.mem_of_find?_eq_some e
    have hclash : arbiter.Clash old row := by simpa using List.find?_some e
    rcases hg : guard old with - | -
    · simp only [hg, Bool.false_eq_true, if_false, Except.ok.injEq] at h
      exact Or.inr (Or.inr ⟨h.symm, old, hold, hclash, hg⟩)
    · rcases ev : violated us (t.filter fun r => r ≠ old) (merge old) with - | u
      · simp only [hg, if_true, ev, Except.ok.injEq] at h
        refine Or.inr (Or.inl ⟨old, hold, hclash, hg, h.symm, fun u hu r hr hne => ?_⟩)
        exact violated_eq_none_iff.mp ev u hu r (List.mem_filter.mpr ⟨hr, by simpa using hne⟩)
      · simp only [hg, if_true, ev, reduceCtorEq] at h

/-- An upsert succeeds if the row that it leaves clashes with no other. -/
theorem exists_upsert
    (hinsert : (∀ r ∈ t, ¬ arbiter.Clash r row) → ∀ u ∈ us, ∀ r ∈ t, ¬ u.Clash r row)
    (hupdate : ∀ old ∈ t, arbiter.Clash old row → guard old = true →
      ∀ u ∈ us, ∀ r ∈ t, r ≠ old → ¬ u.Clash r (merge old)) :
    ∃ c, upsert us arbiter guard merge row t = .ok c := by
  rw [upsert]
  rcases e : t.find? fun r => arbiter.Clash r row with - | old
  · have hno : ∀ r ∈ t, ¬ arbiter.Clash r row := by simpa using e
    exact ⟨.insert row, by simp only [violated_eq_none_iff.mpr (hinsert hno)]⟩
  · have hclash : arbiter.Clash old row := by simpa using List.find?_some e
    rcases hg : guard old with - | -
    · exact ⟨.none, by simp only [Bool.false_eq_true, if_false, hg]⟩
    · refine ⟨.update old (merge old), ?_⟩
      have hviolated : violated us (t.filter fun r => r ≠ old) (merge old) = none := by
        refine violated_eq_none_iff.mpr fun u hu r hr => ?_
        obtain ⟨hmem, hne⟩ := List.mem_filter.mp hr
        exact hupdate old (List.mem_of_find?_eq_some e) hclash hg u hu r hmem (by simpa using hne)
      simp only [hg, if_true, hviolated]

/-! ### The indexes are respected -/

omit [DecidableEq κ] in
theorem Unique.insert (h : Unique us t) (hno : ∀ u ∈ us, ∀ r ∈ t, ¬ u.Clash r row) :
    Unique us ((Change.insert row).apply t) := by
  intro u hu
  refine List.pairwise_append.mpr ⟨h u hu, List.pairwise_singleton _ _, ?_⟩
  intro r hr s hs
  rw [List.mem_singleton.mp hs]
  exact hno u hu r hr

omit [DecidableEq κ] in
theorem Unique.update {old new : ρ} (h : Unique us t) (hu : u ∈ us) (hold : u.key old ≠ none)
    (hno : ∀ v ∈ us, ∀ r ∈ t, r ≠ old → ¬ v.Clash r new) :
    Unique us ((Change.update old new).apply t) := by
  intro v hv
  refine List.pairwise_map.mpr (List.Pairwise.imp_of_mem ?_ ((h u hu).and (h v hv)))
  rintro r s hr hs ⟨hur, hvr⟩
  by_cases hro : r = old
  · by_cases hso : s = old
    · -- the updated row is in an index, so it is there only once
      exact absurd ⟨hro ▸ hold, by rw [hro, hso]⟩ hur
    · rw [if_pos hro, if_neg hso]
      exact fun hc => hno v hv s hs hso hc.symm
  · rw [if_neg hro]
    split
    · exact hno v hv r hr hro
    · exact hvr

omit [DecidableEq ρ] [DecidableEq κ] in
/-- A change of all rows that keeps their keys. -/
theorem Unique.map {f : ρ → ρ} (h : Unique us t) (hkey : ∀ u ∈ us, ∀ r, u.key (f r) = u.key r) :
    Unique us (t.map f) := by
  intro u hu
  refine List.pairwise_map.mpr ((h u hu).imp fun {r s} hrs hc => hrs ?_)
  rwa [UniqueIndex.Clash, hkey u hu r, hkey u hu s] at hc

/-- **Ignoring inserts keep the indexes.** -/
theorem Unique.insertIgnore (h : Unique us t) :
    Unique us ((insertIgnore us row t).apply t) := by
  rcases insertIgnore_cases us row t with ⟨he, hno⟩ | ⟨he, -⟩
  · rw [he]
    exact h.insert hno
  · rw [he]
    exact h

/-- **Upserts keep the indexes.** -/
theorem Unique.upsert (h : Unique us t) (ha : arbiter ∈ us)
    (hc : upsert us arbiter guard merge row t = .ok c) : Unique us (c.apply t) := by
  rcases upsert_cases hc with ⟨rfl, -, hno⟩ | ⟨old, -, hclash, -, rfl, hno⟩ | ⟨rfl, -⟩
  · exact h.insert hno
  · exact h.update ha hclash.1 hno
  · exact h

end Tables
