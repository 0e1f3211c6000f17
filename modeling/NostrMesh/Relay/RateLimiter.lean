/-
NostrMesh/Relay/RateLimiter.lean

The sliding window of the rate limiter, kept in a sorted set of Redis.

A hit is the member `timestamp:step` with the timestamp as its score.  What
falls out of the window is removed first, at its edge inclusively, and the key
expires long after the window (its period in milliseconds is taken for
seconds), so that the set holds the hits of the window, `Holds`.  But a set
holds a member once: hits of one millisecond with the same step are counted as
one (`hit_eq`).

Main result: `countsEveryHit_iff`.
-/
import Mathlib.Algebra.BigOperators.Group.List.Basic
import Mathlib.Data.List.Induction
import Mathlib.Data.String.Basic
import NostrMesh.Lib.Js
import NostrMesh.Lib.SortedSet

namespace NostrMesh.Relay.SlidingWindowRateLimiter

open SortedSets

/-! ### `hit` -/

/-- A call of `hit`: its time in milliseconds, and its step. -/
structure Call where
  time : ℕ
  step : ℤ
  deriving DecidableEq, Repr

/-- `${timestamp}:${step}`. -/
def member (timestamp : ℕ) (step : ℤ) : String :=
  toString (timestamp : ℤ) ++ ":" ++ toString step

/-- `Number(timestampAndStep.split(':')[1])`. -/
def stepOf (timestampAndStep : String) : ℤ :=
  (((timestampAndStep.toList.splitOn ':')[1]?).map Js.numberOfDecimal).getD 0

/-- `hit(key, step, options)` at this time, on the value of the key. -/
def hit (period : ℤ) (rate : ℚ) (call : Call) (set : SortedSet String) : Bool × SortedSet String :=
  let removed := (set.foundAt call.time).remRangeByScore 0 (call.time - period)
  let added := removed.add call.time (member call.time call.step)
  let entries := added.range 0 (-1)
  let hits := entries.foldl (fun acc timestampAndStep => acc + stepOf timestampAndStep) 0
  (decide (rate < hits), added.expire period call.time)

/-- The value of the key after some calls. -/
def after (period : ℤ) (rate : ℚ) (calls : List Call) : SortedSet String :=
  calls.foldl (fun set call => (hit period rate call set).2) .empty

/-- The answer of a call that comes after others. -/
def answer (period : ℤ) (rate : ℚ) (earlier : List Call) (call : Call) : Bool :=
  (hit period rate call (after period rate earlier)).1

/-! ### The property -/

/-- The calls of the window that ends at a time. -/
def window (period : ℤ) (time : ℕ) (calls : List Call) : List Call :=
  calls.filter fun call => time - period < call.time && call.time ≤ time

/-- The sum of the steps. -/
def total (calls : List Call) : ℤ := (calls.map Call.step).sum

/-- The clock does not go back. -/
def Ordered (calls : List Call) : Prop := calls.Pairwise fun a b => a.time ≤ b.time

instance (calls : List Call) : Decidable (Ordered calls) :=
  inferInstanceAs (Decidable (List.Pairwise _ _))

/-- Each call answers whether the steps of its window exceed the rate. -/
def CountsEveryHit (period : ℤ) (rate : ℚ) (calls : List Call) : Prop :=
  ∀ earlier call later, calls = earlier ++ call :: later →
    (answer period rate earlier call = true ↔
      rate < total (window period call.time (earlier ++ [call])))

/-- For each call, the steps of its window lie on the same side of the rate
when calls of one millisecond with the same step are counted once. -/
def RepetitionsDoNotMatter (period : ℤ) (rate : ℚ) (calls : List Call) : Prop :=
  ∀ earlier call later, calls = earlier ++ call :: later →
    (rate < total (window period call.time (earlier ++ [call])).dedup ↔
      rate < total (window period call.time (earlier ++ [call])))

/-! ### Members -/

theorem not_mem_colon (n : ℤ) : ':' ∉ (toString n).toList := by
  intro h
  rcases Js.isDigit_of_mem_toString h with hdigit | hsign
  · exact absurd hdigit (by decide)
  · exact absurd hsign (by decide)

theorem splitOn_member (timestamp : ℕ) (step : ℤ) : (member timestamp step).toList.splitOn ':' =
    [(toString (timestamp : ℤ)).toList, (toString step).toList] := by
  have htext : (member timestamp step).toList =
      (toString (timestamp : ℤ)).toList ++ ':' :: (toString step).toList := by
    simp [member, String.toList_append]
  rw [htext, List.splitOn_append_cons_self, List.splitOn_eq_singleton (not_mem_colon _),
    List.splitOn_eq_singleton (not_mem_colon _)]
  rfl

/-- The step of a hit is read back. -/
theorem stepOf_member (timestamp : ℕ) (step : ℤ) : stepOf (member timestamp step) = step := by
  simp only [stepOf, splitOn_member, List.getElem?_cons_succ, List.getElem?_cons_zero,
    Option.map_some, Option.getD_some, Js.numberOfDecimal_toString]

/-- The entry of a call. -/
def entry (call : Call) : String × ℤ := (member call.time call.step, call.time)

/-- A member tells its timestamp and its step. -/
theorem eq_of_member_eq {a b : Call} (h : member a.time a.step = member b.time b.step) : a = b := by
  have hsplit := congrArg (fun text => text.toList.splitOn ':') h
  simp only [splitOn_member, List.cons.injEq, and_true] at hsplit
  obtain ⟨htime, hstep⟩ := hsplit
  have htime' := congrArg Js.numberOfDecimal htime
  have hstep' := congrArg Js.numberOfDecimal hstep
  simp only [Js.numberOfDecimal_toString, Nat.cast_inj] at htime' hstep'
  obtain ⟨time, step⟩ := a
  exact congrArg₂ Call.mk htime' hstep'

theorem entry_injective : Function.Injective entry :=
  fun _ _ h => eq_of_member_eq (Prod.mk.inj h).1

/-! ### What the set holds -/

variable {period : ℤ} {rate : ℚ} {calls earlier : List Call} {call : Call}
  {set : SortedSet String}

/-- What is found at a time are entries of calls, those of the window among
them. -/
structure Holds (period : ℤ) (calls : List Call) (set : SortedSet String) : Prop where
  nodup : set.members.Nodup
  sound : ∀ x ∈ set.members, ∃ call ∈ calls, x = entry call
  recent : ∀ now : ℕ, (∀ call ∈ calls, call.time ≤ now) → ∀ call ∈ calls,
    now - period < call.time → entry call ∈ (set.foundAt now).members

theorem members_foundAt_subset (set : SortedSet String) (now : ℤ) :
    (set.foundAt now).members.Sublist set.members := by
  rw [SortedSet.foundAt]
  split
  · exact List.nil_sublist _
  · exact List.Sublist.refl _

/-- The set of a hit, once its entry has been added. -/
def added (period : ℤ) (call : Call) (set : SortedSet String) : SortedSet String :=
  ((set.foundAt call.time).remRangeByScore 0 (call.time - period)).add call.time
    (member call.time call.step)

theorem mem_added {x : String × ℤ} : x ∈ (added period call set).members ↔
    x = entry call ∨ x ∈ (set.foundAt call.time).members ∧
      (0 ≤ x.2 → call.time - period < x.2) ∧ x.1 ≠ member call.time call.step := by
  simp only [added, SortedSet.add, SortedSet.members_remRangeByScore, List.mem_cons,
    List.mem_filter, entry, and_assoc]
  simp [imp_iff_not_or]

/-- **The entries of a hit** are those of the calls in its window. -/
theorem Holds.mem_added_iff (h : Holds period calls set) (hpos : 0 < period)
    (hlast : ∀ c ∈ calls, c.time ≤ call.time) {x : String × ℤ} :
    x ∈ (added period call set).members ↔
      ∃ c ∈ window period call.time (calls ++ [call]), x = entry c := by
  simp only [mem_added, window, List.mem_filter, List.mem_append, List.mem_singleton,
    Bool.and_eq_true, decide_eq_true_eq]
  constructor
  · rintro (rfl | ⟨hmem, hscore, -⟩)
    · exact ⟨call, ⟨Or.inr rfl, by omega, le_rfl⟩, rfl⟩
    · obtain ⟨c, hc, rfl⟩ := h.sound x ((members_foundAt_subset _ _).subset hmem)
      simp only [entry] at hscore
      exact ⟨c, ⟨Or.inl hc, hscore (by omega), hlast c hc⟩, rfl⟩
  · rintro ⟨c, ⟨hc | rfl, hwindow, -⟩, rfl⟩
    · by_cases hsame : c = call
      · exact Or.inl (by rw [hsame])
      · refine Or.inr ⟨h.recent call.time hlast c hc hwindow, ?_, fun heq => ?_⟩
        · simp only [entry]
          omega
        · exact hsame (eq_of_member_eq heq)
    · exact Or.inl rfl

theorem nodup_added (h : set.members.Nodup) : (added period call set).members.Nodup := by
  have hfound := h.sublist (members_foundAt_subset set call.time)
  rw [added, SortedSet.add, SortedSet.members_remRangeByScore, List.nodup_cons]
  refine ⟨fun hmem => ?_, (hfound.filter _).filter _⟩
  simp at hmem

theorem Holds.empty : Holds period [] SortedSet.empty :=
  ⟨List.nodup_nil, fun _ h => absurd h List.not_mem_nil, fun _ _ _ h => absurd h List.not_mem_nil⟩

/-- **One hit** keeps the invariant. -/
theorem Holds.hit (h : Holds period calls set) (hpos : 0 < period)
    (hlast : ∀ c ∈ calls, c.time ≤ call.time) :
    Holds period (calls ++ [call]) (hit period rate call set).2 := by
  have hset : (SlidingWindowRateLimiter.hit period rate call set).2 =
      (added period call set).expire period call.time := rfl
  have hmembers := SortedSet.members_expire hpos (added period call set) call.time
  rw [hset]
  refine ⟨by rw [hmembers]; exact nodup_added h.nodup, fun x hx => ?_, fun now hnow c hc hrecent => ?_⟩
  · rw [hmembers, h.mem_added_iff hpos hlast] at hx
    obtain ⟨c, hc, rfl⟩ := hx
    exact ⟨c, List.mem_of_mem_filter hc, rfl⟩
  · have hcall : call.time ≤ now := hnow call (by simp)
    have hle : c.time ≤ call.time := by
      rcases List.mem_append.mp hc with hc | hc
      · exact hlast c hc
      · rw [List.mem_singleton.mp hc]
    have hmem : entry c ∈ (added period call set).members := by
      refine (h.mem_added_iff hpos hlast).mpr ⟨c, List.mem_filter.mpr ⟨hc, ?_⟩, rfl⟩
      simp only [Bool.and_eq_true, decide_eq_true_eq]
      omega
    -- the key is still there when the call is in the window
    rw [SortedSet.foundAt_of_lt (SortedSet.expiresAt_expire hpos (List.ne_nil_of_mem hmem))
      (by omega), hmembers]
    exact hmem

/-- **Every run of hits** keeps the invariant. -/
theorem holds_after (hpos : 0 < period) (rate : ℚ) (hordered : Ordered calls) :
    Holds period calls (after period rate calls) := by
  induction calls using List.reverseRecOn with
  | nil => exact Holds.empty
  | append_singleton calls call ih =>
      rw [Ordered, List.pairwise_append] at hordered
      rw [after, List.foldl_append]
      exact (ih hordered.1).hit hpos fun c hc => hordered.2.2 c hc call (List.mem_singleton_self _)

/-! ### Main result -/

theorem upTo_sublist (earlier : List Call) (call : Call) (later : List Call) :
    (earlier ++ [call]).Sublist (earlier ++ call :: later) :=
  List.Sublist.append_left ((List.nil_sublist later).cons_cons call) earlier

/-- **What a hit counts**: the calls of its window, those of one millisecond
with the same step once. -/
theorem answer_eq (hpos : 0 < period) (hordered : Ordered (earlier ++ [call])) :
    answer period rate earlier call =
      decide (rate < total (window period call.time (earlier ++ [call])).dedup) := by
  rw [Ordered, List.pairwise_append] at hordered
  have hlast : ∀ c ∈ earlier, c.time ≤ call.time :=
    fun c hc => hordered.2.2 c hc call (List.mem_singleton_self _)
  have hholds := holds_after hpos rate hordered.1
  set found := added period call (after period rate earlier) with hfound
  have hentries : found.members.Perm
      ((window period call.time (earlier ++ [call])).dedup.map entry) := by
    refine (List.perm_ext_iff_of_nodup (nodup_added hholds.nodup)
      ((List.nodup_dedup _).map entry_injective)).mpr fun x => ?_
    rw [hholds.mem_added_iff hpos hlast]
    simp [eq_comm]
  have hsteps : (found.range 0 (-1)).map stepOf |>.Perm
      ((window period call.time (earlier ++ [call])).dedup.map Call.step) := by
    have hperm := ((SortedSet.perm_range found).trans (hentries.map Prod.fst)).map stepOf
    have hstep : stepOf ∘ Prod.fst ∘ entry = Call.step := by
      funext c
      exact stepOf_member c.time c.step
    simpa only [List.map_map, hstep] using hperm
  have hsum : (found.range 0 (-1)).foldl (fun acc timestampAndStep => acc + stepOf timestampAndStep) 0
      = total (window period call.time (earlier ++ [call])).dedup := by
    rw [total, ← hsteps.sum_eq, List.sum_eq_foldl, List.foldl_map]
  rw [← hsum]
  rfl

/-- Where no millisecond has two calls with the same step, there is nothing to
repeat. -/
theorem repetitionsDoNotMatter_of_nodup (hnodup : calls.Nodup) :
    RepetitionsDoNotMatter period rate calls := by
  rintro earlier call later rfl
  have hwindow : (window period call.time (earlier ++ [call])).Nodup :=
    (hnodup.sublist (upTo_sublist earlier call later)).filter _
  rw [hwindow.dedup]

/-- **The window counts every hit** exactly if repetitions do not matter. -/
theorem countsEveryHit_iff (hpos : 0 < period) (hordered : Ordered calls) :
    CountsEveryHit period rate calls ↔ RepetitionsDoNotMatter period rate calls := by
  have hanswer : ∀ earlier call later, calls = earlier ++ call :: later →
      (answer period rate earlier call = true ↔
        rate < total (window period call.time (earlier ++ [call])).dedup) := by
    rintro earlier call later rfl
    rw [answer_eq hpos (hordered.sublist (upTo_sublist earlier call later)), decide_eq_true_eq]
  constructor
  · intro h earlier call later heq
    rw [← hanswer earlier call later heq, h earlier call later heq]
  · intro h earlier call later heq
    rw [hanswer earlier call later heq, h earlier call later heq]

/-- Calls in different milliseconds. -/
theorem countsEveryHit_spread : CountsEveryHit 60000 1
    [⟨1700000000000, 1⟩, ⟨1700000000001, 1⟩, ⟨1700000060000, 1⟩] :=
  (countsEveryHit_iff (by decide) (by decide)).mpr (repetitionsDoNotMatter_of_nodup (by decide))

/-- **Two calls in one millisecond** count as one. -/
theorem not_countsEveryHit_burst :
    ¬ CountsEveryHit 60000 1 [⟨1700000000000, 1⟩, ⟨1700000000000, 1⟩] := by
  intro h
  have hlast := h [⟨1700000000000, 1⟩] ⟨1700000000000, 1⟩ [] rfl
  rw [answer_eq (by decide) (by decide), decide_eq_true_eq] at hlast
  revert hlast
  decide

end NostrMesh.Relay.SlidingWindowRateLimiter
