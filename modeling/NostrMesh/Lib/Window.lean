/-
NostrMesh/Lib/Window.lean

The first `n` elements of a list, as a query with an order and a limit cuts
them out.

* `forall_mem_take_iff` — when they are the members of a given list: it has
  at most `n` members, and what it leaves out comes after `n` of them;
* `nodup_filter_take_iff` — when an element that is repeated gets into the
  first `n` only once;
* `isTop_filter_take_iff` — when they are the `n` newest of the elements that
  count (`NewestFirst.IsTop`), the others being left out afterwards.
-/
import NostrMesh.Lib.Newest
import Mathlib.Data.List.Dedup
import Mathlib.Data.List.Sort

namespace Windows

open NewestFirst

variable {α : Type*}

/-! ### A list that is cut off -/

section

variable [DecidableEq α] {l s : List α} {n : ℕ}

/-- **The first `n` elements are those of `s`** exactly if `s` has at most `n`,
and an element outside `s` comes after `n` of them. -/
theorem forall_mem_take_iff (hl : l.Nodup) (hs : s.Nodup) (hsub : s ⊆ l) :
    (∀ x, x ∈ l.take n ↔ x ∈ s) ↔
      s.length ≤ n ∧ ∀ x ∈ l, x ∉ s → s.length = n ∧ ∀ y ∈ s, l.idxOf y < l.idxOf x := by
  constructor
  · intro h
    have hperm : (l.take n).Perm s := (List.perm_ext_iff_of_nodup (hl.sublist (l.take_sublist n)) hs).mpr h
    have hlength : s.length = min n l.length := by rw [← hperm.length_eq, List.length_take]
    refine ⟨by omega, fun x hx hxs => ?_⟩
    have hxn : n ≤ l.idxOf x := not_lt.mp fun hlt => hxs ((h x).mp ((List.mem_take_iff_idxOf_lt hx).mpr hlt))
    have hxl : l.idxOf x < l.length := List.idxOf_lt_length_of_mem hx
    refine ⟨by omega, fun y hy => ?_⟩
    exact lt_of_lt_of_le ((List.mem_take_iff_idxOf_lt (hsub hy)).mp ((h y).mpr hy)) hxn
  · rintro ⟨hle, hafter⟩
    -- what comes before an element of `s` is in `s`, so that there are fewer than `n`
    have hbefore : ∀ x ∈ s, l.idxOf x < n := by
      intro x hx
      by_contra hge
      have hprefix : l.take (l.idxOf x + 1) ⊆ s := by
        intro y hy
        have hyl := List.mem_of_mem_take hy
        by_contra hys
        have hyx := (List.mem_take_iff_idxOf_lt hyl).mp hy
        have hxy := (hafter y hyl hys).2 x hx
        omega
      have hcount := (List.subperm_of_subset (hl.sublist (l.take_sublist _)) hprefix).length_le
      have hxl : l.idxOf x < l.length := List.idxOf_lt_length_of_mem (hsub hx)
      rw [List.length_take] at hcount
      omega
    intro x
    constructor
    · intro hx
      by_contra hxs
      have hxl := List.mem_of_mem_take hx
      have hxn := (List.mem_take_iff_idxOf_lt hxl).mp hx
      obtain ⟨heq, hall⟩ := hafter x hxl hxs
      have hsub' : s ⊆ l.take (l.idxOf x) := fun y hy =>
        (List.mem_take_iff_idxOf_lt (hsub hy)).mpr (hall y hy)
      have hcount := (List.subperm_of_subset hs hsub').length_le
      rw [List.length_take] at hcount
      omega
    · exact fun hx => (List.mem_take_iff_idxOf_lt (hsub hx)).mpr (hbefore x hx)

end

/-! ### Repeated elements -/

section

variable [DecidableEq α]

/-- Copies of an element are counted for each of its places. -/
theorem count_flatMap_replicate (m : α → ℕ) (l : List α) (x : α) :
    (l.flatMap fun y => List.replicate (m y) y).count x = l.count x * m x := by
  induction l with
  | nil => simp
  | cons y l ih =>
      rw [List.flatMap_cons, List.count_append, ih, List.count_replicate]
      by_cases hyx : y = x
      · subst hyx
        simp [Nat.add_mul, Nat.add_comm]
      · simp [List.count_cons_of_ne hyx, hyx]

/-- An element stands at most once among the first `n` if its second copy
comes after them. -/
theorem count_take_le_one_iff (x : α) (l : List α) (n : ℕ) :
    (l.take n).count x ≤ 1 ↔ (2 ≤ l.count x → n ≤ (l.erase x).idxOf x + 1) := by
  induction l generalizing n with
  | nil => simp
  | cons a l ih =>
      rcases n with - | n
      · simp
      · rw [List.take_succ_cons]
        by_cases hax : a = x
        · subst hax
          -- the other copies are those in the rest
          have htwice : 2 ≤ l.count a + 1 ↔ a ∈ l := by
            rw [← List.count_pos_iff]
            omega
          rw [List.count_cons_self, List.count_cons_self, List.erase_cons_head, htwice,
            Nat.add_le_add_iff_right, Nat.add_le_add_iff_right, Nat.le_zero, List.count_eq_zero]
          constructor
          · intro hnot hmem
            by_contra hlt
            exact hnot ((List.mem_take_iff_idxOf_lt hmem).mpr (by omega))
          · intro h hmem
            have hl := List.mem_of_mem_take hmem
            have := (List.mem_take_iff_idxOf_lt hl).mp hmem
            have := h hl
            omega
        · rw [List.count_cons_of_ne hax, List.count_cons_of_ne hax, ih,
            List.erase_cons_tail (by simpa using hax), List.idxOf_cons_ne _ hax, Nat.succ_eq_add_one,
            Nat.add_le_add_iff_right]

/-- **The first `n` elements that count differ** exactly if the second copies
come after them. -/
theorem nodup_filter_take_iff (p : α → Bool) (l : List α) (n : ℕ) :
    ((l.take n).filter p).Nodup ↔
      ∀ x, p x = true → 2 ≤ l.count x → n ≤ (l.erase x).idxOf x + 1 := by
  rw [List.nodup_iff_count_le_one]
  refine forall_congr' fun x => ?_
  rw [← count_take_le_one_iff]
  by_cases hpx : p x = true
  · rw [List.count_filter hpx]
    simp [hpx]
  · rw [List.count_eq_zero_of_not_mem fun hx => hpx (List.mem_filter.mp hx).2]
    simp [hpx]

end

/-! ### The newest elements -/

section

variable {β τ : Type*} [LinearOrder τ] {time : α → τ} {n : ℕ} {all chosen : List α}

/-- The newest of some elements that have different images. -/
theorem isTop_map_iff {f : α → β} {timeβ : β → τ} (htime : ∀ x, timeβ (f x) = time x)
    (hall : all.Nodup) (hinj : ∀ x ∈ all, ∀ y ∈ all, f x = f y → x = y) (hsub : chosen ⊆ all) :
    IsTop timeβ n (all.map f) (chosen.map f) ↔ IsTop time n all chosen := by
  have hmap : (all.map f).Nodup := (List.nodup_map_iff_inj_on hall).mpr fun x hx y hy => hinj x hx y hy
  have hmem : ∀ y ∈ all, f y ∈ chosen.map f ↔ y ∈ chosen := by
    intro y hy
    constructor
    · intro h
      obtain ⟨x, hx, heq⟩ := List.mem_map.mp h
      rwa [hinj y hy x (hsub hx) heq.symm]
    · exact List.mem_map_of_mem
  constructor
  · intro h
    have hchosen : chosen.Nodup := (h.nodup hmap).of_map
    refine ⟨List.subperm_of_subset hchosen hsub, by simpa using h.length_le, fun x hx hxc => ?_⟩
    obtain ⟨hlength, hle⟩ := h.full (f x) (List.mem_map_of_mem hx) fun hfx => hxc ((hmem x hx).mp hfx)
    refine ⟨by simpa using hlength, fun y hy => ?_⟩
    rw [← htime, ← htime]
    exact hle (f y) (List.mem_map_of_mem hy)
  · intro h
    obtain ⟨l, hperm, hl⟩ := h.subperm
    refine ⟨⟨l.map f, hperm.map f, hl.map f⟩, by simpa using h.length_le, fun z hz hzc => ?_⟩
    obtain ⟨x, hx, rfl⟩ := List.mem_map.mp hz
    obtain ⟨hlength, hle⟩ := h.full x hx fun hxc => hzc ((hmem x hx).mpr hxc)
    refine ⟨by simpa using hlength, fun w hw => ?_⟩
    obtain ⟨y, hy, rfl⟩ := List.mem_map.mp hw
    rw [htime, htime]
    exact hle y hy

/-- **The first `n` of a list of decreasing times**, without the elements that
do not count, are the `n` newest that count exactly if none of them stands
there twice, and they are all, or `n`, and the list has not missed a newer
one. -/
theorem isTop_filter_take_iff [DecidableEq α] {p : α → Bool} {sorted : List α} (hall : all.Nodup)
    (hsorted : sorted.Pairwise fun x y => time y ≤ time x) (hsub : sorted ⊆ all) :
    IsTop time n (all.filter p) ((sorted.take n).filter p) ↔
      ((sorted.take n).filter p).Nodup ∧
      ((∀ x ∈ all, p x = true → x ∈ sorted.take n) ∨
        (sorted.take n).length = n ∧ (∀ x ∈ sorted.take n, p x = true) ∧
          ∀ y ∈ all, p y = true → y ∉ sorted → ∀ x ∈ sorted.take n, time y ≤ time x) := by
  have hle : ((sorted.take n).filter p).length ≤ (sorted.take n).length := List.length_filter_le _ _
  have hn : (sorted.take n).length ≤ n := List.length_take_le _ _
  constructor
  · intro h
    refine ⟨h.nodup (hall.filter p), or_iff_not_imp_left.mpr fun hmissing => ?_⟩
    obtain ⟨x, hx, hpx, hxn⟩ : ∃ x ∈ all, p x = true ∧ x ∉ sorted.take n := by
      simpa only [not_forall, exists_prop] using hmissing
    -- an element is left out, so that there are `n`, all from the head of the list
    have hlength := (h.full x (List.mem_filter.mpr ⟨hx, hpx⟩) fun h => hxn (List.mem_filter.mp h).1).1
    have hfull : ((sorted.take n).filter p).length = (sorted.take n).length := by omega
    have hcounts := List.length_filter_eq_length_iff.mp hfull
    refine ⟨by omega, hcounts, fun y hy hpy hys z hz => ?_⟩
    refine (h.full y (List.mem_filter.mpr ⟨hy, hpy⟩) fun h => hys ?_).2 z
      (List.mem_filter.mpr ⟨hz, hcounts z hz⟩)
    exact List.mem_of_mem_take (List.mem_filter.mp h).1
  · rintro ⟨hnodup, hcomplete⟩
    have hfilter : (sorted.take n).filter p ⊆ all.filter p := by
      intro x hx
      obtain ⟨hmem, hpx⟩ := List.mem_filter.mp hx
      exact List.mem_filter.mpr ⟨hsub (List.mem_of_mem_take hmem), hpx⟩
    refine ⟨List.subperm_of_subset hnodup hfilter, hle.trans hn, fun y hy hyc => ?_⟩
    obtain ⟨hyall, hpy⟩ := List.mem_filter.mp hy
    rcases hcomplete with hcomplete | ⟨hlength, hcounts, hmissed⟩
    · exact absurd (List.mem_filter.mpr ⟨hcomplete y hyall hpy, hpy⟩) hyc
    · rw [List.filter_eq_self.mpr hcounts] at hyc ⊢
      refine ⟨hlength, fun x hx => ?_⟩
      by_cases hys : y ∈ sorted
      · -- it comes after the first `n`
        have hdrop : y ∈ sorted.drop n := by
          rw [← List.take_append_drop n sorted] at hys
          exact (List.mem_append.mp hys).resolve_left hyc
        rw [← List.take_append_drop n sorted] at hsorted
        exact (List.pairwise_append.mp hsorted).2.2 x hx y hdrop
      · exact hmissed y hyall hpy hys x hx

end

end Windows
