/-
NostrMesh/Relay/ConcurrentHits.lean

The rate limiter with several workers, which all use one store.

A hit is four commands, and the commands of other hits may come in between.
Nothing keeps them apart, but a hit adds its entry before it counts, and removes
before that what its own window does not have.  So if a hit takes at most
`latency` milliseconds, the limit holds for windows that are shorter by that, and
nobody is refused who keeps to it in windows that are longer by that
(`limits_hold`).

The key must not expire while a window needs it.  A hit that finds a key that is
about to expire leaves nothing in it (`Inv.pending`).
-/
import Mathlib.Algebra.Order.BigOperators.Group.List
import Mathlib.Algebra.Order.Ring.Cast
import Mathlib.Algebra.Order.Ring.Rat
import Mathlib.Data.List.Perm.Subperm
import NostrMesh.Lib.Mealy
import NostrMesh.Relay.RateLimiter

namespace NostrMesh.Relay.SlidingWindowRateLimiter.ConcurrentHits

open SortedSets

/-! ### Hits of several workers -/

/-- Which command of a hit was the last. -/
inductive Stage
  | called
  | removed
  | added
  | answered (limited : Bool)
  | expired (limited : Bool)
  deriving DecidableEq, Repr

structure Hit where
  call : Call
  stage : Stage
  deriving DecidableEq, Repr

/-- The value of a key, and the hits on it. -/
structure Limiter where
  /-- `Date.now()`, of the workers and of the store. -/
  clock : ℕ
  set : SortedSet String
  hits : List Hit
  deriving DecidableEq, Repr

inductive Move
  | tick (milliseconds : ℕ)
  /-- A worker calls `hit`. -/
  | hit (step : ℕ)
  /-- The store carries out the next command of a hit. -/
  | command (i : ℕ)

/-- The sum of the steps of the entries. -/
def hitCount (set : SortedSet String) : ℤ :=
  (set.range 0 (-1)).foldl (fun acc timestampAndStep => acc + stepOf timestampAndStep) 0

/-- The next command of a hit, and what it leaves in the store. -/
def Hit.command (period : ℤ) (rate : ℚ) (now : ℕ) (set : SortedSet String) (h : Hit) :
    Hit × SortedSet String :=
  match h.stage with
  -- the four promises of `Promise.all`, in the order in which the commands are sent
  | .called => (⟨h.call, .removed⟩, set.remRangeByScore 0 (h.call.time - period))
  | .removed => (⟨h.call, .added⟩, set.add h.call.time (member h.call.time h.call.step))
  | .added => (⟨h.call, .answered (rate < hitCount set)⟩, set)
  | .answered limited => (⟨h.call, .expired limited⟩, set.expire period now)
  | .expired _ => (h, set)

def next (period : ℤ) (rate : ℚ) : Mealy.Machine Limiter Move Unit
  | .tick milliseconds, s => ((), { s with clock := s.clock + milliseconds })
  | .hit step, s => ((), { s with hits := s.hits ++ [⟨⟨s.clock, step⟩, .called⟩] })
  | .command i, s =>
      match s.hits[i]? with
      | some h =>
          let (h', set) := h.command period rate s.clock (s.set.foundAt s.clock)
          ((), { s with set, hits := s.hits.set i h' })
      | none => ((), s)

/-- What `hit` has returned, or will return. -/
def Stage.verdict : Stage → Option Bool
  | .answered limited => some limited
  | .expired limited => some limited
  | _ => none

/-- The calls that are not limited. -/
def Limiter.letThrough (s : Limiter) : List Call :=
  (s.hits.filter fun h => h.stage.verdict = some false).map Hit.call

def Limiter.calls (s : Limiter) : List Call := s.hits.map Hit.call

/-- A hit takes at most `latency` milliseconds. -/
def Prompt (latency : ℕ) (s : Limiter) : Prop :=
  ∀ h ∈ s.hits, (∀ limited, h.stage ≠ .expired limited) → s.clock ≤ h.call.time + latency

instance (latency : ℕ) (s : Limiter) : Decidable (Prompt latency s) :=
  inferInstanceAs (Decidable (∀ h ∈ s.hits, (∀ limited, h.stage ≠ .expired limited) →
    s.clock ≤ h.call.time + latency))

/-! ### One hit after the other -/

section

variable {set : SortedSet String} {now : ℤ}

/-- The key has not expired. -/
def Lasts (now : ℤ) (set : SortedSet String) : Prop := ∀ time, set.expiresAt = some time → now < time

theorem Lasts.foundAt (h : Lasts now set) : set.foundAt now = set := by
  rcases he : set.expiresAt with - | time
  · rw [SortedSet.foundAt, he]
    rfl
  · exact SortedSet.foundAt_of_lt he (h time he)

theorem lasts_foundAt (now : ℤ) (set : SortedSet String) : Lasts now (set.foundAt now) := by
  intro time htime
  rw [SortedSet.foundAt] at htime
  split at htime
  · cases htime
  · next hnot =>
    rw [htime] at hnot
    simpa using hnot

theorem expiresAt_remRangeByScore {min max time : ℤ}
    (h : (set.remRangeByScore min max).expiresAt = some time) :
    set.expiresAt = some time ∧ (set.remRangeByScore min max).members ≠ [] := by
  rw [SortedSet.remRangeByScore] at h ⊢
  split at h
  · cases h
  · next hne =>
    rw [if_neg hne]
    exact ⟨h, fun hnil => hne (List.isEmpty_iff.mpr hnil)⟩

end

/-- **A hit that is alone** is the call of `hit`. -/
theorem after_commands (period : ℤ) (rate : ℚ) (call : Call) (set : SortedSet String) :
    Mealy.after (next period rate) [.command 0, .command 0, .command 0, .command 0]
      ⟨call.time, set, [⟨call, .called⟩]⟩ =
    ⟨call.time, (hit period rate call set).2, [⟨call, .expired (hit period rate call set).1⟩]⟩ := by
  have hfound := lasts_foundAt call.time set
  have hremoved : Lasts call.time ((set.foundAt call.time).remRangeByScore 0 (call.time - period)) :=
    fun time htime => hfound time (expiresAt_remRangeByScore htime).1
  have hadded : Lasts call.time (((set.foundAt call.time).remRangeByScore 0
      (call.time - period)).add call.time (member call.time call.step)) :=
    fun time htime => hremoved time htime
  simp only [Mealy.after, next, Hit.command, List.getElem?_cons_zero, List.set_cons_zero,
    hremoved.foundAt, hadded.foundAt]
  rfl

/-! ### Sums of steps -/

section

variable {calls calls' : List Call} {set : SortedSet String}

theorem hitCount_eq (set : SortedSet String) :
    hitCount set = (set.members.map fun x => stepOf x.1).sum := by
  have hperm := (SortedSet.perm_range set).map stepOf
  rw [List.map_map] at hperm
  rw [hitCount, ← List.foldl_map, ← List.sum_eq_foldl]
  exact hperm.sum_eq

/-- Calls that are among others have no larger sum. -/
theorem sum_le_of_subset {α : Type*} {f : α → ℤ} {l l' : List α} (hnodup : l.Nodup)
    (hsubset : l ⊆ l') (hnonneg : ∀ a ∈ l', 0 ≤ f a) : (l.map f).sum ≤ (l'.map f).sum := by
  obtain ⟨k, hperm, hsublist⟩ := hnodup.subperm hsubset
  rw [← (hperm.map f).sum_eq]
  refine (hsublist.map f).sum_le_sum fun x hx => ?_
  obtain ⟨a, ha, rfl⟩ := List.mem_map.mp hx
  exact hnonneg a ha

theorem total_dedup_mono (hsubset : calls ⊆ calls') (hnonneg : ∀ call ∈ calls', 0 ≤ call.step) :
    total calls.dedup ≤ total calls'.dedup :=
  sum_le_of_subset (List.nodup_dedup _)
    (fun _ hcall => List.mem_dedup.mpr (hsubset (List.mem_dedup.mp hcall)))
    fun call hcall => hnonneg call (List.mem_dedup.mp hcall)

/-- The steps of entries and calls. -/
theorem total_eq_sum_entries (calls : List Call) :
    total calls = ((calls.map entry).map fun x => stepOf x.1).sum := by
  have hstep : (fun x : String × ℤ => stepOf x.1) ∘ entry = Call.step := by
    funext call
    exact stepOf_member call.time call.step
  rw [List.map_map, hstep, total]

/-- Calls whose entries are there are counted. -/
theorem total_le_hitCount (hentries : ∀ call ∈ calls, entry call ∈ set.members)
    (hnonneg : ∀ x ∈ set.members, 0 ≤ stepOf x.1) : total calls.dedup ≤ hitCount set := by
  rw [hitCount_eq, total_eq_sum_entries]
  refine sum_le_of_subset ((List.nodup_dedup _).map entry_injective) (fun x hx => ?_) hnonneg
  obtain ⟨call, hcall, rfl⟩ := List.mem_map.mp hx
  exact hentries call (List.mem_dedup.mp hcall)

/-- Entries of calls count no more than the calls. -/
theorem hitCount_le_total (hnodup : set.members.Nodup)
    (hcalls : ∀ x ∈ set.members, ∃ call ∈ calls, x = entry call)
    (hnonneg : ∀ call ∈ calls, 0 ≤ call.step) : hitCount set ≤ total calls.dedup := by
  rw [hitCount_eq, total_eq_sum_entries]
  refine sum_le_of_subset hnodup (fun x hx => ?_) fun x hx => ?_
  · obtain ⟨call, hcall, rfl⟩ := hcalls x hx
    exact List.mem_map_of_mem (List.mem_dedup.mpr hcall)
  · obtain ⟨call, hcall, rfl⟩ := List.mem_map.mp hx
    rw [show stepOf (entry call).1 = call.step from stepOf_member call.time call.step]
    exact hnonneg call (List.mem_dedup.mp hcall)

end

/-! ### What the store holds -/

/-- The entry of the hit has been added. -/
def Stage.IsAdded : Stage → Prop
  | .called => False
  | .removed => False
  | _ => True

/-- The hit has begun, and the key has not got its expiry. -/
def Stage.IsPending : Stage → Prop
  | .called => False
  | .expired _ => False
  | _ => True

/-- The hit has removed old entries, and has not counted the others. -/
def Stage.HasSwept : Stage → Prop
  | .removed => True
  | .added => True
  | _ => False

/-- What the store holds for the hits on it. -/
structure Inv (period : ℤ) (s : Limiter) : Prop where
  time_le : ∀ h ∈ s.hits, h.call.time ≤ s.clock
  nonneg : ∀ h ∈ s.hits, 0 ≤ h.call.step
  nodup : s.set.members.Nodup
  sound : ∀ x ∈ s.set.members, ∃ h ∈ s.hits, h.stage.IsAdded ∧ x = entry h.call
  /-- An entry stays as long as its window may be asked for. -/
  present : ∀ h ∈ s.hits, h.stage.IsAdded → s.clock < h.call.time + period →
    entry h.call ∈ s.set.members
  expiring : ∀ h ∈ s.hits, ∀ limited, h.stage = .expired limited → entry h.call ∈ s.set.members →
    ∃ time, s.set.expiresAt = some time ∧ h.call.time + 1000 * period ≤ time
  /-- If a hit has found a key with an expiry, one of those that are on their way
  has found it long before it expires. -/
  pending : ∀ time, s.set.expiresAt = some time → (∃ h ∈ s.hits, h.stage.IsPending) →
    ∃ h ∈ s.hits, h.stage.IsPending ∧ h.call.time + 999 * period ≤ time
  swept : ∀ h ∈ s.hits, h.stage.HasSwept → ∀ x ∈ s.set.members, h.call.time - period < x.2

section

variable {period : ℤ} {rate : ℚ} {latency : ℕ} {s : Limiter} {before after : List Hit} {h h' k : Hit}

/-- The key does not expire while an entry is in its window. -/
theorem Inv.lasts (hinv : Inv period s) (hprompt : Prompt latency s) (hlatency : latency < period)
    (hh : h ∈ s.hits) (hadded : h.stage.IsAdded) (hrecent : s.clock < h.call.time + period) :
    Lasts s.clock s.set := by
  intro time htime
  have hmem := hinv.present h hh hadded hrecent
  rcases hstage : h.stage with - | - | - | limited | limited
  case called => rw [hstage] at hadded; exact hadded.elim
  case removed => rw [hstage] at hadded; exact hadded.elim
  case expired =>
      obtain ⟨time', htime', hle⟩ := hinv.expiring h hh limited hstage hmem
      obtain rfl := Option.some.inj (htime.symm.trans htime')
      omega
  all_goals
    -- one of the hits that are on their way has just begun
    obtain ⟨k, hk, hpending, hle⟩ := hinv.pending time htime ⟨h, hh, by rw [hstage]; trivial⟩
    have hlate := hprompt k hk fun limited' heq => by
      rw [heq] at hpending
      exact hpending
    omega

/-- The store first looks whether the key has expired. -/
theorem Inv.found (hinv : Inv period s) (hprompt : Prompt latency s) (hlatency : latency < period) :
    Inv period { s with set := s.set.foundAt s.clock } := by
  by_cases hlasts : Lasts s.clock s.set
  · rw [hlasts.foundAt]
    exact hinv
  · have hempty : s.set.foundAt s.clock = .empty := by
      rw [SortedSet.foundAt]
      refine if_pos ?_
      simp only [Lasts, not_forall, not_lt] at hlasts
      obtain ⟨time, htime, hle⟩ := hlasts
      rw [htime]
      exact decide_eq_true hle
    -- the key is gone with all its entries, and by `lasts` no window still needs one
    rw [hempty]
    exact
      { time_le := hinv.time_le
        nonneg := hinv.nonneg
        nodup := List.nodup_nil
        sound := fun x hx => absurd hx List.not_mem_nil
        present := fun h hh hadded hrecent =>
          absurd (hinv.lasts hprompt hlatency hh hadded hrecent) hlasts
        expiring := fun h hh limited hstage hx => absurd hx List.not_mem_nil
        pending := fun time htime => by cases htime
        swept := fun h hh hswept x hx => absurd hx List.not_mem_nil }

/-! ### One command -/

theorem mem_replace {x : Hit} (hx : x ∈ before ++ h' :: after) : x ∈ before ++ h :: after ∨ x = h' := by
  rcases List.mem_append.mp hx with hx | hx
  · exact Or.inl (List.mem_append_left _ hx)
  · rcases List.mem_cons.mp hx with rfl | hx
    · exact Or.inr rfl
    · exact Or.inl (List.mem_append_right _ (List.mem_cons_of_mem _ hx))

theorem forall_replace {P : Hit → Prop} (hall : ∀ x ∈ before ++ h :: after, P x) (hnew : P h') :
    ∀ x ∈ before ++ h' :: after, P x := by
  intro x hx
  rcases mem_replace hx with hx | rfl
  · exact hall x hx
  · exact hnew

theorem exists_replace {P : Hit → Prop} (hex : ∃ x ∈ before ++ h :: after, P x) (hnew : P h → P h') :
    ∃ x ∈ before ++ h' :: after, P x := by
  obtain ⟨x, hx, hP⟩ := hex
  rcases List.mem_append.mp hx with hx | hx
  · exact ⟨x, List.mem_append_left _ hx, hP⟩
  · rcases List.mem_cons.mp hx with rfl | hx
    · exact ⟨h', List.mem_append_right _ List.mem_cons_self, hnew hP⟩
    · exact ⟨x, List.mem_append_right _ (List.mem_cons_of_mem _ hx), hP⟩

/-- `ZREMRANGEBYSCORE` keeps what is in a window, and what is left of a key with
an expiry was added not long ago. -/
theorem Inv.remove (hinv : Inv period s) {call : Call}
    (hhits : s.hits = before ++ ⟨call, .called⟩ :: after) :
    Inv period { s with
      set := s.set.remRangeByScore 0 (call.time - period)
      hits := before ++ ⟨call, .removed⟩ :: after } := by
  obtain ⟨htime, hnonneg, hnodup, hsound, hpresent, hexpiring, hpending, hswept⟩ := hinv
  rw [hhits] at htime hnonneg hsound hpresent hexpiring hpending hswept
  have hcall : call.time ≤ s.clock := htime ⟨call, .called⟩ (by simp)
  have hmem : ∀ x, x ∈ (s.set.remRangeByScore 0 (call.time - period)).members ↔
      x ∈ s.set.members ∧ call.time - period < x.2 := by
    intro x
    rw [SortedSet.members_remRangeByScore, List.mem_filter]
    refine and_congr_right fun hx => ?_
    obtain ⟨k, -, -, rfl⟩ := hsound x hx
    simp only [entry, Int.natCast_nonneg, decide_true, Bool.true_and, Bool.not_eq_true']
    exact decide_eq_false_iff_not.trans not_le
  refine ⟨forall_replace htime hcall, forall_replace hnonneg (hnonneg ⟨call, .called⟩ (by simp)), ?_,
    fun x hx => ?_, forall_replace (h := ⟨call, .called⟩) (fun k hk hadded hrecent => ?_)
      (fun hadded => hadded.elim),
    forall_replace (h := ⟨call, .called⟩) (fun k hk limited hstage hx => ?_)
      (fun _ hstage => by cases hstage),
    fun time hexpires _ => ?_,
    forall_replace (h := ⟨call, .called⟩) (fun k hk hsweeps x hx => ?_)
      fun _ x hx => ((hmem x).mp hx).2⟩
  · rw [SortedSet.members_remRangeByScore]
    exact hnodup.filter _
  · exact exists_replace (hsound x ((hmem x).mp hx).1) fun h => h.1.elim
  · -- what the window of now has, the window of the hit has too
    refine (hmem _).mpr ⟨hpresent k hk hadded hrecent, ?_⟩
    show (call.time : ℤ) - period < k.call.time
    dsimp only at hrecent
    omega
  · have hold := ((hmem _).mp hx).1
    obtain ⟨time, hexpires, hle⟩ := hexpiring k hk limited hstage hold
    refine ⟨time, ?_, hle⟩
    rw [SortedSet.remRangeByScore]
    have hne := List.ne_nil_of_mem hx
    rw [SortedSet.members_remRangeByScore] at hne
    rw [if_neg (by simpa [List.isEmpty_iff] using hne)]
    exact hexpires
  · -- an entry is left, and it is not older than a period
    obtain ⟨hexpires, hne⟩ := expiresAt_remRangeByScore hexpires
    obtain ⟨x, hx⟩ := List.exists_mem_of_ne_nil _ hne
    obtain ⟨hx, hscore⟩ := (hmem x).mp hx
    obtain ⟨k, hk, hadded, rfl⟩ := hsound x hx
    by_cases hon : k.stage.IsPending
    · exact exists_replace (hpending time hexpires ⟨k, hk, hon⟩) fun h => h.1.elim
    · -- the hit of this entry has set the expiry
      rcases hstage : k.stage with - | - | - | limited | limited <;> rw [hstage] at hadded hon
      · exact hadded.elim
      · exact hadded.elim
      · exact absurd trivial hon
      · exact absurd trivial hon
      · obtain ⟨time', hexpires', hle⟩ := hexpiring k hk limited hstage hx
        obtain rfl := Option.some.inj (hexpires.symm.trans hexpires')
        refine ⟨⟨call, .removed⟩, by simp, trivial, ?_⟩
        dsimp only [entry] at hscore ⊢
        omega
  · exact hswept k hk hsweeps x ((hmem x).mp hx).1

/-- `ZADD` adds an entry, which no other call has. -/
theorem Inv.add (hinv : Inv period s) (hlatency : latency < period) {call : Call}
    (hhits : s.hits = before ++ ⟨call, .removed⟩ :: after)
    (hlate : s.clock ≤ call.time + latency) :
    Inv period { s with
      set := s.set.add call.time (member call.time call.step)
      hits := before ++ ⟨call, .added⟩ :: after } := by
  obtain ⟨htime, hnonneg, hnodup, hsound, hpresent, hexpiring, hpending, hswept⟩ := hinv
  rw [hhits] at htime hnonneg hsound hpresent hexpiring hpending hswept
  have hself : (⟨call, .removed⟩ : Hit) ∈ before ++ ⟨call, .removed⟩ :: after := by simp
  have hcall : call.time ≤ s.clock := htime _ hself
  have hstep : 0 ≤ call.step := hnonneg _ hself
  have hmem : ∀ x, x ∈ (s.set.add call.time (member call.time call.step)).members ↔
      x = entry call ∨ x ∈ s.set.members ∧ x.1 ≠ member call.time call.step := by
    intro x
    simp [SortedSet.add, entry]
  have hold : ∀ k : Call, entry k ∈ s.set.members →
      entry k ∈ (s.set.add call.time (member call.time call.step)).members := by
    intro k hk
    rw [hmem]
    by_cases hsame : k = call
    · exact Or.inl (by rw [hsame])
    · exact Or.inr ⟨hk, fun heq => hsame (eq_of_member_eq heq)⟩
  refine ⟨forall_replace htime hcall, forall_replace hnonneg hstep, ?_,
    fun x hx => ?_, forall_replace (h := ⟨call, .removed⟩)
      (fun k hk hadded hrecent => hold _ (hpresent k hk hadded hrecent))
      fun _ _ => (hmem _).mpr (Or.inl rfl),
    forall_replace (h := ⟨call, .removed⟩) (fun k hk limited hstage hx => ?_)
      (fun _ hstage => by cases hstage),
    fun time hexpires hex => ?_, forall_replace (h := ⟨call, .removed⟩) (fun k hk hsweeps x hx => ?_)
      fun _ x hx => ?_⟩
  · simp only [SortedSet.add, List.nodup_cons, List.mem_filter]
    exact ⟨by simp, hnodup.filter _⟩
  · rcases (hmem x).mp hx with rfl | ⟨hx, -⟩
    · exact ⟨⟨call, .added⟩, by simp, trivial, rfl⟩
    · exact exists_replace (hsound x hx) fun h => h.1.elim
  · refine hexpiring k hk limited hstage ?_
    rcases (hmem _).mp hx with heq | ⟨hx, -⟩
    · -- the same call, which has added its entry not long ago
      have hcall : k.call = call := entry_injective heq
      refine hpresent k hk (by rw [hstage]; trivial) ?_
      rw [hcall]
      omega
    · exact hx
  · -- the hit was on its way before, and still is
    refine exists_replace (hpending time hexpires ⟨_, hself, trivial⟩) fun h => ?_
    exact ⟨trivial, h.2⟩
  · rcases (hmem x).mp hx with rfl | ⟨hx, -⟩
    · have hbegun := htime k hk
      show (k.call.time : ℤ) - period < call.time
      omega
    · exact hswept k hk hsweeps x hx
  · rcases (hmem x).mp hx with rfl | ⟨hx, -⟩
    · show (call.time : ℤ) - period < call.time
      omega
    · exact hswept _ hself trivial x hx

/-- A hit counts, and changes nothing. -/
theorem Inv.answer (hinv : Inv period s) {call : Call}
    (hhits : s.hits = before ++ ⟨call, .added⟩ :: after) (limited : Bool) :
    Inv period { s with hits := before ++ ⟨call, .answered limited⟩ :: after } := by
  obtain ⟨htime, hnonneg, hnodup, hsound, hpresent, hexpiring, hpending, hswept⟩ := hinv
  rw [hhits] at htime hnonneg hsound hpresent hexpiring hpending hswept
  have hself : (⟨call, .added⟩ : Hit) ∈ before ++ ⟨call, .added⟩ :: after := by simp
  have hcall : call.time ≤ s.clock := htime _ hself
  have hstep : 0 ≤ call.step := hnonneg _ hself
  have hentry : s.clock < call.time + period → entry call ∈ s.set.members := hpresent _ hself trivial
  exact
    { time_le := forall_replace htime hcall
      nonneg := forall_replace hnonneg hstep
      nodup := hnodup
      sound := fun x hx => exists_replace (hsound x hx) fun h => ⟨trivial, h.2⟩
      present := forall_replace hpresent fun _ => hentry
      expiring := forall_replace hexpiring fun _ hstage => by cases hstage
      pending := fun time hexpires _ => exists_replace (hpending time hexpires ⟨_, hself, trivial⟩)
        fun h => ⟨trivial, h.2⟩
      swept := forall_replace hswept fun hsweeps => hsweeps.elim }

/-- `EXPIRE` gives the key more time than any hit on it needs. -/
theorem Inv.expire (hinv : Inv period s) (hlatency : latency < period) {call : Call} {limited : Bool}
    (hhits : s.hits = before ++ ⟨call, .answered limited⟩ :: after)
    (hlate : s.clock ≤ call.time + latency) :
    Inv period { s with
      set := s.set.expire period s.clock
      hits := before ++ ⟨call, .expired limited⟩ :: after } := by
  obtain ⟨htime, hnonneg, hnodup, hsound, hpresent, hexpiring, hpending, hswept⟩ := hinv
  rw [hhits] at htime hnonneg hsound hpresent hexpiring hpending hswept
  have hself : (⟨call, .answered limited⟩ : Hit) ∈ before ++ ⟨call, .answered limited⟩ :: after := by
    simp
  have hcall : call.time ≤ s.clock := htime _ hself
  have hstep : 0 ≤ call.step := hnonneg _ hself
  have hrecent : (s.clock : ℤ) < call.time + period := by omega
  have hentry : entry call ∈ s.set.members :=
    hpresent ⟨call, .answered limited⟩ hself trivial hrecent
  have hpos : 0 < period := by omega
  have hmembers := SortedSet.members_expire hpos s.set s.clock
  have hexpires : (s.set.expire period s.clock).expiresAt = some (s.clock + 1000 * period) :=
    SortedSet.expiresAt_expire hpos (List.ne_nil_of_mem hentry)
  -- from here on only the entries and the new expiry matter
  generalize s.set.expire period s.clock = set at hmembers hexpires ⊢
  have hlong : ∀ k ∈ before ++ ⟨call, .expired limited⟩ :: after,
      (k.call.time : ℤ) + 1000 * period ≤ s.clock + 1000 * period := by
    refine forall_replace (h := ⟨call, .answered limited⟩) (fun k hk => ?_) ?_
    · have hbegun := htime k hk
      omega
    · show (call.time : ℤ) + 1000 * period ≤ _
      omega
  refine ⟨forall_replace htime hcall, forall_replace hnonneg hstep, ?_, fun x hx => ?_,
    forall_replace (h := ⟨call, .answered limited⟩) (fun k hk hadded hrecent => ?_) fun _ _ => ?_,
    fun k hk _ _ _ => ⟨_, hexpires, hlong k hk⟩, fun time hexpires' ⟨k, hk, hon⟩ => ?_,
    forall_replace (h := ⟨call, .answered limited⟩) (fun k hk hsweeps x hx => ?_)
      fun hsweeps => hsweeps.elim⟩
  · rw [hmembers]
    exact hnodup
  · rw [hmembers] at hx
    exact exists_replace (hsound x hx) fun h => ⟨trivial, h.2⟩
  · rw [hmembers]
    exact hpresent k hk hadded hrecent
  · rw [hmembers]
    exact hentry
  · obtain rfl := Option.some.inj (hexpires.symm.trans hexpires')
    have hmore := hlong k hk
    exact ⟨k, hk, hon, by omega⟩
  · rw [hmembers] at hx
    exact hswept k hk hsweeps x hx

theorem Inv.tick (hinv : Inv period s) (milliseconds : ℕ) :
    Inv period { s with clock := s.clock + milliseconds } where
  time_le := fun h hh => (hinv.time_le h hh).trans (Nat.le_add_right _ _)
  nonneg := hinv.nonneg
  nodup := hinv.nodup
  sound := hinv.sound
  present h hh hadded hrecent := by
    refine hinv.present h hh hadded ?_
    dsimp only at hrecent
    omega
  expiring := hinv.expiring
  pending := hinv.pending
  swept := hinv.swept

theorem Inv.call (hinv : Inv period s) (step : ℕ) :
    Inv period { s with hits := s.hits ++ [⟨⟨s.clock, step⟩, .called⟩] } := by
  have hall : ∀ {P : Hit → Prop}, (∀ h ∈ s.hits, P h) → P ⟨⟨s.clock, step⟩, .called⟩ →
      ∀ h ∈ s.hits ++ [⟨⟨s.clock, step⟩, .called⟩], P h := by
    intro P hold hnew h hh
    rcases List.mem_append.mp hh with hh | hh
    · exact hold h hh
    · exact List.mem_singleton.mp hh ▸ hnew
  have hex : ∀ {P : Hit → Prop}, (∃ h ∈ s.hits, P h) →
      ∃ h ∈ s.hits ++ [⟨⟨s.clock, step⟩, .called⟩], P h :=
    fun ⟨h, hh, hP⟩ => ⟨h, List.mem_append_left _ hh, hP⟩
  exact
    { time_le := hall hinv.time_le le_rfl
      nonneg := hall hinv.nonneg (Int.natCast_nonneg step)
      nodup := hinv.nodup
      sound := fun x hx => hex (hinv.sound x hx)
      present := hall hinv.present fun hadded => hadded.elim
      expiring := hall hinv.expiring fun _ hstage => by cases hstage
      pending := fun time hexpires ⟨h, hh, hon⟩ => by
        rcases List.mem_append.mp hh with hh | hh
        · exact hex (hinv.pending time hexpires ⟨h, hh, hon⟩)
        · rw [List.mem_singleton.mp hh] at hon
          exact hon.elim
      swept := hall hinv.swept fun hsweeps => hsweeps.elim }

/-! ### A run -/

theorem exists_split {i : ℕ} (h : s.hits[i]? = some k) :
    ∃ before after, s.hits = before ++ k :: after ∧
      ∀ k', s.hits.set i k' = before ++ k' :: after := by
  obtain ⟨hlt, rfl⟩ := List.getElem?_eq_some_iff.mp h
  refine ⟨s.hits.take i, s.hits.drop (i + 1), ?_, fun k' => ?_⟩
  · rw [List.getElem_cons_drop, List.take_append_drop]
  · rw [List.set_eq_take_append_cons_drop, if_pos hlt]

/-- What a move does. -/
theorem next_cases (period : ℤ) (rate : ℚ) (move : Move) (s : Limiter) :
    (next period rate move s).2 = s ∨
    (∃ milliseconds, (next period rate move s).2 = { s with clock := s.clock + milliseconds }) ∨
    (∃ step : ℕ, (next period rate move s).2 =
      { s with hits := s.hits ++ [⟨⟨s.clock, step⟩, .called⟩] }) ∨
    ∃ before h after, s.hits = before ++ h :: after ∧
      (next period rate move s).2 =
        { s with
          set := (h.command period rate s.clock (s.set.foundAt s.clock)).2
          hits := before ++ (h.command period rate s.clock (s.set.foundAt s.clock)).1 :: after } := by
  cases move with
  | tick milliseconds => exact Or.inr (Or.inl ⟨milliseconds, rfl⟩)
  | hit step => exact Or.inr (Or.inr (Or.inl ⟨step, rfl⟩))
  | command i =>
      -- the hit is replaced in its place
      rcases hhit : s.hits[i]? with - | h
      · exact Or.inl (by simp only [next, hhit])
      · obtain ⟨before, after, hhits, hset⟩ := exists_split hhit
        refine Or.inr (Or.inr (Or.inr ⟨before, h, after, hhits, ?_⟩))
        simp only [next, hhit, hset]

theorem Inv.command (hinv : Inv period s) (hprompt : Prompt latency s) (hlatency : latency < period)
    (rate : ℚ) (hhits : s.hits = before ++ h :: after) :
    Inv period { s with
      set := (h.command period rate s.clock s.set).2
      hits := before ++ (h.command period rate s.clock s.set).1 :: after } := by
  obtain ⟨call, stage⟩ := h
  have hlate := hprompt ⟨call, stage⟩ (by rw [hhits]; simp)
  cases stage with
  | called => exact hinv.remove hhits
  | removed => exact hinv.add hlatency hhits (hlate fun _ => by simp)
  | added => exact hinv.answer hhits _
  | answered limited => exact hinv.expire hlatency hhits (hlate fun _ => by simp)
  | expired limited =>
      simp only [Hit.command, ← hhits]
      exact hinv

theorem Inv.next (hinv : Inv period s) (hprompt : Prompt latency s) (hlatency : latency < period)
    (move : Move) : Inv period (next period rate move s).2 := by
  obtain heq | ⟨milliseconds, heq⟩ | ⟨step, heq⟩ | ⟨before, h, after, hhits, heq⟩ :=
    next_cases period rate move s <;> rw [heq]
  · exact hinv
  · exact hinv.tick milliseconds
  · exact hinv.call step
  · exact (hinv.found hprompt hlatency).command hprompt hlatency rate hhits

/-! ### The limit -/

/-- Nobody is let through beyond the rate in a window that is shorter than the
period. -/
def Limited (period : ℤ) (rate : ℚ) (latency : ℕ) (s : Limiter) : Prop :=
  ∀ time : ℕ, total (window (period - latency) time s.letThrough).dedup ≤ rate

/-- Nobody is refused who keeps to the rate in a window that is longer than the
period. -/
def Fair (period : ℤ) (rate : ℚ) (latency : ℕ) (s : Limiter) : Prop :=
  ∀ h ∈ s.hits, h.stage.verdict = some true →
    rate < total (window (period + latency) (h.call.time + latency) s.calls).dedup

theorem mem_window {time : ℕ} {calls : List Call} {call : Call} :
    call ∈ window period time calls ↔ call ∈ calls ∧ time - period < call.time ∧ call.time ≤ time := by
  rw [window, List.mem_filter]
  exact and_congr_right fun _ => by rw [Bool.and_eq_true, decide_eq_true_iff, decide_eq_true_iff]

theorem mem_letThrough {call : Call} :
    call ∈ s.letThrough ↔ ∃ h ∈ s.hits, h.stage.verdict = some false ∧ h.call = call := by
  simp only [Limiter.letThrough, List.mem_map, List.mem_filter, decide_eq_true_iff, and_assoc]

/-- What has been let through has been added. -/
theorem Stage.isAdded_of_verdict {stage : Stage} {limited : Bool} (h : stage.verdict = some limited) :
    stage.IsAdded := by
  cases stage with
  | called => cases h
  | removed => cases h
  | added => cases h
  | answered _ => trivial
  | expired _ => trivial

theorem Limited.of_letThrough {s' : Limiter} (hlimited : Limited period rate latency s)
    (heq : s'.letThrough = s.letThrough) : Limited period rate latency s' := by
  intro time
  rw [heq]
  exact hlimited time

/-- More calls, and no new verdict. -/
theorem Fair.of_subset {s' : Limiter} (hfair : Fair period rate latency s)
    (hverdicts : ∀ h ∈ s'.hits, h.stage.verdict = some true →
      ∃ k ∈ s.hits, k.stage.verdict = some true ∧ k.call = h.call)
    (hcalls : s.calls ⊆ s'.calls) (hnonneg : ∀ h ∈ s'.hits, 0 ≤ h.call.step) :
    Fair period rate latency s' := by
  intro h hh hverdict
  obtain ⟨k, hk, hkverdict, hcall⟩ := hverdicts h hh hverdict
  have hless := hfair k hk hkverdict
  rw [hcall] at hless
  refine hless.trans_le (Int.cast_le.mpr (total_dedup_mono (fun call hmem => ?_) fun call hmem => ?_))
  · rw [mem_window] at hmem ⊢
    exact ⟨hcalls hmem.1, hmem.2⟩
  · obtain ⟨h', hh', rfl⟩ := List.mem_map.mp (mem_window.mp hmem).1
    exact hnonneg h' hh'

/-- Who is let through has been counted with all others of the window. -/
theorem Inv.limited_answer (hinv : Inv period s) (hlimited : Limited period rate latency s)
    {call : Call} (hhits : s.hits = before ++ ⟨call, .added⟩ :: after)
    (hlate : s.clock ≤ call.time + latency) :
    Limited period rate latency { s with
      hits := before ++ ⟨call, .answered (decide (rate < hitCount s.set))⟩ :: after } := by
  intro time
  have hold : ∀ {call'}, call' ∈ Limiter.letThrough { s with
      hits := before ++ ⟨call, .answered (decide (rate < hitCount s.set))⟩ :: after } →
      call' ∈ s.letThrough ∨ call' = call ∧ ¬ rate < hitCount s.set := by
    intro call' hmem
    obtain ⟨h, hh, hverdict, rfl⟩ := mem_letThrough.mp hmem
    rcases mem_replace (h := ⟨call, .added⟩) hh with hh | rfl
    · exact Or.inl (mem_letThrough.mpr ⟨h, hhits ▸ hh, hverdict, rfl⟩)
    · exact Or.inr ⟨rfl, of_decide_eq_false (Option.some.inj hverdict)⟩
  by_cases hnew : call ∈ window (period - latency) time (Limiter.letThrough { s with
      hits := before ++ ⟨call, .answered (decide (rate < hitCount s.set))⟩ :: after }) ∧
      ¬ rate < hitCount s.set
  · -- the entries of the window have not been removed
    obtain ⟨hmem, hcount⟩ := hnew
    obtain ⟨-, -, htime⟩ := mem_window.mp hmem
    refine le_trans (Int.cast_le.mpr (total_le_hitCount (fun call' hcall' => ?_) fun x hx => ?_))
      (not_lt.mp hcount)
    · obtain ⟨hthrough, hlate', -⟩ := mem_window.mp hcall'
      have hrecent : (s.clock : ℤ) < call'.time + period := by omega
      rcases hold hthrough with hthrough | ⟨rfl, -⟩
      · obtain ⟨h, hh, hverdict, rfl⟩ := mem_letThrough.mp hthrough
        exact hinv.present h hh (Stage.isAdded_of_verdict hverdict) hrecent
      · exact hinv.present ⟨call', .added⟩ (by rw [hhits]; simp) trivial hrecent
    · obtain ⟨h, hh, -, rfl⟩ := hinv.sound x hx
      rw [show stepOf (entry h.call).1 = h.call.step from stepOf_member _ _]
      exact hinv.nonneg h hh
  · -- the window has nothing new
    refine le_trans (Int.cast_le.mpr (total_dedup_mono (fun call' hcall' => ?_) fun call' hcall' => ?_))
      (hlimited time)
    · obtain ⟨hthrough, hwindow⟩ := mem_window.mp hcall'
      rcases hold hthrough with hthrough | ⟨rfl, hcount⟩
      · exact mem_window.mpr ⟨hthrough, hwindow⟩
      · exact absurd ⟨hcall', hcount⟩ hnew
    · obtain ⟨h, hh, -, rfl⟩ := mem_letThrough.mp (mem_window.mp hcall').1
      exact hinv.nonneg h hh

/-- Who is refused has counted calls of the window only. -/
theorem Inv.fair_answer (hinv : Inv period s) {call : Call}
    (hhits : s.hits = before ++ ⟨call, .added⟩ :: after) (hlate : s.clock ≤ call.time + latency)
    (hcount : rate < hitCount s.set) :
    rate < total (window (period + latency) (call.time + latency) s.calls).dedup := by
  have hself : (⟨call, .added⟩ : Hit) ∈ s.hits := by rw [hhits]; simp
  refine hcount.trans_le (Int.cast_le.mpr (hitCount_le_total hinv.nodup (fun x hx => ?_)
    fun call' hcall' => ?_))
  · obtain ⟨h, hh, -, rfl⟩ := hinv.sound x hx
    have hswept : (call.time : ℤ) - period < h.call.time := hinv.swept _ hself trivial _ hx
    have hbegun := hinv.time_le h hh
    refine ⟨h.call, mem_window.mpr ⟨List.mem_map_of_mem hh, ?_, ?_⟩, rfl⟩
    · push_cast
      omega
    · omega
  · obtain ⟨h, hh, rfl⟩ := List.mem_map.mp (mem_window.mp hcall').1
    exact hinv.nonneg h hh

/-- The verdict of a hit is new when it counts. -/
theorem Hit.command_cases (period : ℤ) (rate : ℚ) (now : ℕ) (set : SortedSet String) (h : Hit) :
    (h.command period rate now set).1.call = h.call ∧
      ((h.command period rate now set).1.stage.verdict = h.stage.verdict ∨
        ∃ call, h = ⟨call, .added⟩ ∧
          h.command period rate now set = (⟨call, .answered (rate < hitCount set)⟩, set)) := by
  obtain ⟨call, stage⟩ := h
  cases stage with
  | called => exact ⟨rfl, Or.inl rfl⟩
  | removed => exact ⟨rfl, Or.inl rfl⟩
  | added => exact ⟨rfl, Or.inr ⟨call, rfl, rfl⟩⟩
  | answered limited => exact ⟨rfl, Or.inl rfl⟩
  | expired limited => exact ⟨rfl, Or.inl rfl⟩

theorem Inv.limited_next (hinv : Inv period s) (hlimited : Limited period rate latency s)
    (hprompt : Prompt latency s) (hlatency : latency < period) (move : Move) :
    Limited period rate latency (ConcurrentHits.next period rate move s).2 := by
  obtain heq | ⟨milliseconds, heq⟩ | ⟨step, heq⟩ | ⟨before, h, after, hhits, heq⟩ :=
    next_cases period rate move s <;> rw [heq]
  · exact hlimited
  · exact hlimited.of_letThrough rfl
  · exact hlimited.of_letThrough (by simp [Limiter.letThrough, Stage.verdict])
  · obtain ⟨hcall, hverdict | ⟨call, rfl, hcommand⟩⟩ :=
      h.command_cases period rate s.clock (s.set.foundAt s.clock)
    · -- the command brings no verdict
      refine hlimited.of_letThrough ?_
      simp only [Limiter.letThrough, hhits, List.filter_append, List.filter_cons, hverdict,
        List.map_append, apply_ite (List.map Hit.call), List.map_cons, hcall]
    · rw [hcommand]
      have hlate := hprompt ⟨call, .added⟩ (by rw [hhits]; simp) fun _ => by simp
      exact Inv.limited_answer (hinv.found hprompt hlatency) hlimited hhits hlate

theorem Inv.fair_next (hinv : Inv period s) (hfair : Fair period rate latency s)
    (hprompt : Prompt latency s) (hlatency : latency < period) (move : Move) :
    Fair period rate latency (ConcurrentHits.next period rate move s).2 := by
  have hnonneg : ∀ h ∈ (ConcurrentHits.next period rate move s).2.hits, 0 ≤ h.call.step :=
    (hinv.next hprompt hlatency move).nonneg
  obtain heq | ⟨milliseconds, heq⟩ | ⟨step, heq⟩ | ⟨before, h, after, hhits, heq⟩ :=
    next_cases period rate move s <;> rw [heq] at hnonneg ⊢
  · exact hfair
  · exact hfair
  · refine hfair.of_subset (fun k hk hverdict => ?_) (fun call hcall => ?_) hnonneg
    · rcases List.mem_append.mp hk with hk | hk
      · exact ⟨k, hk, hverdict, rfl⟩
      · rw [List.mem_singleton.mp hk] at hverdict
        cases hverdict
    · rw [Limiter.calls, List.map_append]
      exact List.mem_append_left _ hcall
  · obtain ⟨hcall, hcases⟩ := h.command_cases period rate s.clock (s.set.foundAt s.clock)
    have hsame : Limiter.calls { s with
        set := (h.command period rate s.clock (s.set.foundAt s.clock)).2
        hits := before ++ (h.command period rate s.clock (s.set.foundAt s.clock)).1 :: after } =
        s.calls := by
      simp only [Limiter.calls, hhits, List.map_append, List.map_cons, hcall]
    intro k hk hverdict
    rw [hsame]
    have hh : h ∈ s.hits := by rw [hhits]; simp
    rcases mem_replace (h := h) hk with hk | rfl
    · exact hfair k (hhits ▸ hk) hverdict
    · rw [hcall]
      obtain hkept | ⟨call, rfl, hcommand⟩ := hcases
      · exact hfair h hh (hkept ▸ hverdict)
      · rw [hcommand] at hverdict
        exact Inv.fair_answer (hinv.found hprompt hlatency) hhits (hprompt _ hh fun _ => by simp)
          (of_decide_eq_true (Option.some.inj hverdict))

theorem Inv.init (period : ℤ) (clock : ℕ) : Inv period ⟨clock, .empty, []⟩ where
  time_le _ hh := absurd hh List.not_mem_nil
  nonneg _ hh := absurd hh List.not_mem_nil
  nodup := List.nodup_nil
  sound _ hx := absurd hx List.not_mem_nil
  present _ hh := absurd hh List.not_mem_nil
  expiring _ hh := absurd hh List.not_mem_nil
  pending _ htime := by cases htime
  swept _ hh := absurd hh List.not_mem_nil

theorem limited_init (hrate : 0 ≤ rate) (clock : ℕ) :
    Limited period rate latency ⟨clock, .empty, []⟩ := by
  intro time
  exact hrate

/-- **The limit holds**, whatever the order of the commands: no more than the rate
is let through in a window of the period less the latency, and who is refused had
more than the rate in a window of the period and the latency. -/
theorem limits_hold {moves : List Move} (clock : ℕ) (hrate : 0 ≤ rate) (hlatency : latency < period)
    (hprompt : Mealy.Always (ConcurrentHits.next period rate)
      (fun s move => Prompt latency (ConcurrentHits.next period rate move s).2) moves
      ⟨clock, .empty, []⟩) :
    Limited period rate latency
        (Mealy.after (ConcurrentHits.next period rate) moves ⟨clock, .empty, []⟩) ∧
      Fair period rate latency
        (Mealy.after (ConcurrentHits.next period rate) moves ⟨clock, .empty, []⟩) := by
  have hstep : ∀ s move, Inv period s ∧ Prompt latency s ∧ Limited period rate latency s ∧
      Fair period rate latency s → Prompt latency (ConcurrentHits.next period rate move s).2 →
      Inv period (ConcurrentHits.next period rate move s).2 ∧
        Prompt latency (ConcurrentHits.next period rate move s).2 ∧
        Limited period rate latency (ConcurrentHits.next period rate move s).2 ∧
        Fair period rate latency (ConcurrentHits.next period rate move s).2 := by
    rintro s move ⟨hinv, hprompt, hlimited, hfair⟩ hnext
    exact ⟨hinv.next hprompt hlatency move, hnext, hinv.limited_next hlimited hprompt hlatency move,
      hinv.fair_next hfair hprompt hlatency move⟩
  exact (Mealy.Always.invariant_after hstep
    ⟨Inv.init period clock, fun _ hh => absurd hh List.not_mem_nil, limited_init hrate clock,
      fun _ hh => absurd hh List.not_mem_nil⟩ hprompt).2.2

end

/-- A second hit begins while the first is on its way.  The second is refused. -/
def overlapping : List Move :=
  [.hit 1, .command 0, .tick 1, .hit 1, .command 0, .command 1, .command 0, .command 1, .command 0,
    .command 1, .command 1]

theorem limits_hold_overlapping :
    Limited 60000 1 1 (Mealy.after (next 60000 1) overlapping ⟨1700000000000, .empty, []⟩) ∧
      Fair 60000 1 1 (Mealy.after (next 60000 1) overlapping ⟨1700000000000, .empty, []⟩) :=
  limits_hold 1700000000000 (by decide) (by decide)
    ⟨by decide, by decide, by decide, by decide, by decide, by decide, by decide +kernel,
      by decide +kernel, by decide +kernel, by decide +kernel, by decide +kernel, trivial⟩

/-- In a window of the whole period two hits are let through: a third has removed
the entry of the first before the second counts. -/
example : total (window 60000 1700000059999 (Mealy.after (next 60000 1)
    [.hit 1, .command 0, .command 0, .command 0, .command 0, .tick 59999, .hit 1, .tick 1, .hit 1,
      .command 2, .command 1, .command 1, .command 1]
    ⟨1700000000000, .empty, []⟩).letThrough) = 2 := by
  decide +kernel

end NostrMesh.Relay.SlidingWindowRateLimiter.ConcurrentHits
