/-
NostrMesh/Lib/SortedSet.lean

The sorted sets of a key-value store: members with scores, no member twice,
and a time after which the key is gone.

Adding a member that is there already only changes its score.  A key without
members does not exist, and so has no expiry.
-/
import Mathlib.Data.List.Sort
import Mathlib.Data.List.Dedup
import Mathlib.Algebra.Order.Ring.Int

namespace SortedSets

/-- The value of a key; a key that does not exist has no members. -/
structure SortedSet (μ : Type*) where
  members : List (μ × ℤ)
  /-- In milliseconds. -/
  expiresAt : Option ℤ
  deriving DecidableEq, Repr

namespace SortedSet

variable {μ : Type*}

def empty : SortedSet μ := ⟨[], none⟩

/-- The set that is found at a time. -/
def foundAt (now : ℤ) (set : SortedSet μ) : SortedSet μ :=
  if set.expiresAt.any fun time => time ≤ now then empty else set

/-- `ZREMRANGEBYSCORE key min max`. -/
def remRangeByScore (min max : ℤ) (set : SortedSet μ) : SortedSet μ :=
  let members := set.members.filter fun entry => !(min ≤ entry.2 && entry.2 ≤ max)
  if members.isEmpty then empty else { set with members }

/-- `ZADD key score member`. -/
def add [DecidableEq μ] (score : ℤ) (member : μ) (set : SortedSet μ) : SortedSet μ :=
  { set with members := (member, score) :: set.members.filter fun entry => entry.1 ≠ member }

/-- The members by score, and by their own order among equal scores. -/
def sorted [LinearOrder μ] (set : SortedSet μ) : List μ :=
  (set.members.insertionSort fun a b => a.2 < b.2 ∨ (a.2 = b.2 ∧ a.1 ≤ b.1)).map Prod.fst

/-- An index of a range, counted from the end if it is negative. -/
def index (length : ℕ) (i : ℤ) : ℤ := if i < 0 then length + i else i

/-- `ZRANGE key start stop`. -/
def range [LinearOrder μ] (start stop : ℤ) (set : SortedSet μ) : List μ :=
  let first := (index set.sorted.length start).toNat
  (set.sorted.take (index set.sorted.length stop + 1).toNat).drop first

/-- `EXPIRE key seconds`. -/
def expire (seconds now : ℤ) (set : SortedSet μ) : SortedSet μ :=
  if set.members.isEmpty then set
  else if seconds ≤ 0 then empty
  else { set with expiresAt := some (now + 1000 * seconds) }

/-! ### What the commands do -/

section

variable {set : SortedSet μ} {now : ℤ}

theorem foundAt_of_lt {time : ℤ} (h : set.expiresAt = some time) (hlt : now < time) :
    set.foundAt now = set := by
  rw [foundAt, h, Option.any_some, if_neg (by simpa using hlt)]

theorem members_remRangeByScore (min max : ℤ) (set : SortedSet μ) :
    (set.remRangeByScore min max).members =
      set.members.filter fun entry => !(min ≤ entry.2 && entry.2 ≤ max) := by
  rw [remRangeByScore]
  split
  · next h => exact (List.isEmpty_iff.mp h).symm
  · rfl

theorem members_expire {seconds : ℤ} (hpos : 0 < seconds) (set : SortedSet μ) (now : ℤ) :
    (set.expire seconds now).members = set.members := by
  rw [expire]
  split
  · rfl
  · rw [if_neg (not_le.mpr hpos)]

theorem expiresAt_expire {seconds : ℤ} (hpos : 0 < seconds) (hne : set.members ≠ []) :
    (set.expire seconds now).expiresAt = some (now + 1000 * seconds) := by
  rw [expire, if_neg (by simpa using hne), if_neg (not_le.mpr hpos)]

/-- The range from the first to the last member has them all. -/
theorem perm_range [LinearOrder μ] (set : SortedSet μ) :
    (set.range 0 (-1)).Perm (set.members.map Prod.fst) := by
  have hall : set.range 0 (-1) = set.sorted := by
    simp [range, index]
  rw [hall]
  exact (List.perm_insertionSort _ _).map _

end

end SortedSet

end SortedSets
