/-
NostrMesh/Lib/Keyed.lean

Tables with a primary key, and the statements on one key:

* `lookup` — `SELECT … WHERE key = k`;
* `modify` — `UPDATE … SET … WHERE key = k`;
* `upsert` — `INSERT … ON CONFLICT (key) DO UPDATE SET …`;
* `delete` — `DELETE … WHERE key = k`.

What a statement does to one key it does to no other: `lookup_modify`,
`lookup_upsert` and `lookup_delete` say this for every key at once.  Where keys are unique, a sum
over all rows changes at the row of the key only (`sum_modify`).
-/
import Mathlib.Algebra.BigOperators.Group.List.Basic
import Mathlib.Data.List.Basic
import Mathlib.Tactic.Abel

namespace Keyed

variable {ρ κ : Type*} [DecidableEq κ] (key : ρ → κ)

def lookup (k : κ) (t : List ρ) : Option ρ := t.find? fun r => key r = k

def modify (k : κ) (f : ρ → ρ) (t : List ρ) : List ρ := t.map fun r => if key r = k then f r else r

/-- The new row, or what `merge` makes of the row that has its key. -/
def upsert (new : ρ) (merge : ρ → ρ) (t : List ρ) : List ρ :=
  match lookup key (key new) t with
  | none => t ++ [new]
  | some _ => modify key (key new) merge t

def delete (k : κ) (t : List ρ) : List ρ := t.filter fun r => key r ≠ k

variable {key} {k : κ} {f : ρ → ρ} {t : List ρ} {new r : ρ}

theorem mem_of_lookup (h : lookup key k t = some r) : r ∈ t := List.mem_of_find?_eq_some h

theorem key_of_lookup (h : lookup key k t = some r) : key r = k :=
  of_decide_eq_true (List.find?_some (p := fun r => decide (key r = k)) h)

@[simp] theorem lookup_nil : lookup key k ([] : List ρ) = none := rfl

theorem lookup_cons (r : ρ) (t : List ρ) :
    lookup key k (r :: t) = if key r = k then some r else lookup key k t := by
  rw [lookup, List.find?_cons]
  by_cases h : key r = k
  · simp [h]
  · simp [h, lookup]

/-- An update that leaves keys alone, seen from each key. -/
theorem lookup_modify (hf : ∀ r, key r = k → key (f r) = k) (k' : κ) :
    lookup key k' (modify key k f t)
      = if k' = k then (lookup key k t).map f else lookup key k' t := by
  induction t with
  | nil => simp [modify]
  | cons r t ih =>
      rw [modify, List.map_cons, lookup_cons, lookup_cons, lookup_cons, ← modify, ih]
      by_cases hr : key r = k
      · by_cases hk : k' = k
        · simp [hr, hk, hf r hr]
        · have hne : ¬ k = k' := fun h => hk h.symm
          simp [hr, hk, hf r hr, hne]
      · by_cases hk : k' = k
        · simp [hr, hk]
        · simp [hr, hk]

theorem lookup_append_singleton (h : lookup key (key new) t = none) (k' : κ) :
    lookup key k' (t ++ [new]) = if k' = key new then some new else lookup key k' t := by
  rw [lookup, List.find?_append]
  by_cases hk : k' = key new
  · subst hk
    rw [lookup] at h
    simp [h]
  · have hne : ¬ key new = k' := fun h => hk h.symm
    simp [hk, hne, lookup]

/-- An upsert, seen from each key. -/
theorem lookup_upsert (merge : ρ → ρ)
    (hmerge : ∀ r, key r = key new → key (merge r) = key new) (k' : κ) :
    lookup key k' (upsert key new merge t) =
      if k' = key new then some ((lookup key (key new) t).elim new merge)
      else lookup key k' t := by
  rcases h : lookup key (key new) t with - | old
  · rw [upsert, h]
    exact lookup_append_singleton h k'
  · simp only [upsert, h]
    rw [lookup_modify hmerge, h]
    rfl

/-- A deletion, seen from each key. -/
theorem lookup_delete (k' : κ) :
    lookup key k' (delete key k t) = if k' = k then none else lookup key k' t := by
  by_cases hk : k' = k
  · subst hk
    rw [if_pos rfl]
    simp [lookup, delete]
  · rw [if_neg hk, lookup, delete, List.find?_filter, lookup]
    refine congrArg (fun p => t.find? p) (funext fun r => ?_)
    by_cases hr : key r = k'
    · simp [hr, hk]
    · simp [hr]

/-! ### Size -/

@[simp] theorem length_modify : (modify key k f t).length = t.length := List.length_map _

/-- An upsert adds a row only where the key is new. -/
theorem length_upsert (merge : ρ → ρ) : (upsert key new merge t).length =
    if lookup key (key new) t = none then t.length + 1 else t.length := by
  rcases h : lookup key (key new) t with - | old
  · simp [upsert, h]
  · simp [upsert, h]

/-- The rows after an upsert that overwrites. -/
theorem mem_upsert_const (h : r ∈ upsert key new (fun _ => new) t) : r = new ∨ r ∈ t := by
  rw [upsert] at h
  split at h
  · exact (List.mem_append.mp h).symm.imp_left List.mem_singleton.mp
  · obtain ⟨old, hold, rfl⟩ := List.mem_map.mp h
    split
    · exact Or.inl rfl
    · exact Or.inr hold

/-! ### Unique keys -/

/-- What an update leaves alone, it leaves alone in all rows. -/
theorem map_modify_of_eq {β : Type*} {g : ρ → β} (hg : ∀ r, key r = k → g (f r) = g r) :
    (modify key k f t).map g = t.map g := by
  rw [modify, List.map_map]
  refine List.map_congr_left fun r _ => ?_
  by_cases hr : key r = k
  · simp [hr, hg r hr]
  · simp [hr]

theorem nodup_modify (hf : ∀ r, key r = k → key (f r) = k) (h : (t.map key).Nodup) :
    ((modify key k f t).map key).Nodup := by
  rwa [map_modify_of_eq fun r hr => (hf r hr).trans hr.symm]

theorem not_mem_of_lookup_eq_none (h : lookup key k t = none) : k ∉ t.map key := by
  simpa [lookup] using h

theorem nodup_append_singleton (h : (t.map key).Nodup) (hnew : lookup key (key new) t = none) :
    ((t ++ [new]).map key).Nodup := by
  simp only [List.map_append, List.map_cons, List.map_nil]
  refine List.nodup_append.mpr ⟨h, by simp, fun k hk k' hk' heq => ?_⟩
  rw [heq, List.mem_singleton.mp hk'] at hk
  exact not_mem_of_lookup_eq_none hnew hk

theorem nodup_upsert (merge : ρ → ρ) (hmerge : ∀ r, key r = key new → key (merge r) = key new)
    (h : (t.map key).Nodup) : ((upsert key new merge t).map key).Nodup := by
  rcases hnew : lookup key (key new) t with - | old
  · rw [upsert, hnew]
    exact nodup_append_singleton h hnew
  · simp only [upsert, hnew]
    exact nodup_modify hmerge h

theorem nodup_delete (h : (t.map key).Nodup) : ((delete key k t).map key).Nodup :=
  h.sublist (List.filter_sublist.map key)

/-- Where keys are unique, a row is the one that its key finds. -/
theorem lookup_of_mem (hnodup : (t.map key).Nodup) (h : r ∈ t) : lookup key (key r) t = some r := by
  induction t with
  | nil => cases h
  | cons r' t ih =>
      obtain ⟨hne, hnodup⟩ := List.nodup_cons.mp hnodup
      rw [lookup_cons]
      obtain rfl | h := List.mem_cons.mp h
      · exact if_pos rfl
      · have hkey : key r' ≠ key r := fun heq => hne (heq.symm ▸ List.mem_map_of_mem h)
        rw [if_neg hkey]
        exact ih hnodup h

/-- An update of a key that is not there changes nothing. -/
theorem modify_of_not_mem (h : k ∉ t.map key) : modify key k f t = t := by
  rw [modify]
  refine (List.map_congr_left fun r hr => ?_).trans (List.map_id t)
  have hkey : key r ≠ k := fun heq => h (heq ▸ List.mem_map_of_mem hr)
  exact if_neg hkey

/-- **A sum over all rows** changes by the difference at the row that is
updated. -/
theorem sum_modify {M : Type*} [AddCommGroup M] (g : ρ → M) (hnodup : (t.map key).Nodup)
    (h : lookup key k t = some r) :
    ((modify key k f t).map g).sum = (t.map g).sum + (g (f r) - g r) := by
  induction t with
  | nil => cases h
  | cons r' t ih =>
      obtain ⟨hne, hnodup⟩ := List.nodup_cons.mp hnodup
      rw [lookup_cons] at h
      rw [modify, List.map_cons, List.map_cons, List.map_cons, List.sum_cons, List.sum_cons, ← modify]
      split at h
      · next hr =>
        obtain rfl := Option.some.inj h
        rw [if_pos hr, modify_of_not_mem (hr ▸ hne)]
        abel
      · next hr =>
        rw [if_neg hr, ih hnodup h]
        abel

end Keyed
