/-
NostrMesh/Lib/Hub.lean

A hub that forwards what it gets to every party but the sender.

Messages on their way, to the hub and from it, are taken in any order.  `due`
counts how often a party is still to receive a message.  Forwarding does not
change that number, a post raises it by one for every other party, and only
what is received lowers it.  So when nothing is on its way, a party has received a
message as often as others have posted it.

Each step of the hub brings it closer to the state where nothing is on its
way: `pending` decreases.
-/
import Mathlib.Data.List.Count
import Mathlib.Data.List.Nodup
import Mathlib.Data.List.Perm.Basic

variable {ι μ : Type*}

/-- The messages on their way: to the hub with their senders, and from it with
their receivers. -/
structure Hub (ι μ : Type*) where
  toHub : List (ι × μ)
  toParty : List (ι × μ)
  deriving DecidableEq

namespace Hub

/-- Nothing is on its way. -/
def empty : Hub ι μ := ⟨[], []⟩

def post (i : ι) (m : μ) (H : Hub ι μ) : Hub ι μ := { H with toHub := H.toHub ++ [(i, m)] }

/-- What the hub takes from `i` goes to every other party. -/
def copies [DecidableEq ι] (parties : List ι) (i : ι) (m : μ) : List (ι × μ) :=
  (parties.filter fun j => j ≠ i).map fun j => (j, m)

/-- The hub takes the message in this place. -/
def forward [DecidableEq ι] (parties : List ι) (k : ℕ) (H : Hub ι μ) : Hub ι μ :=
  match H.toHub[k]? with
  | some (i, m) => ⟨H.toHub.eraseIdx k, H.toParty ++ copies parties i m⟩
  | none => H

/-- A party takes the message in this place. -/
def receive (k : ℕ) (H : Hub ι μ) : Hub ι μ := { H with toParty := H.toParty.eraseIdx k }

/-- How often the party is still to receive the message. -/
def due [DecidableEq ι] [DecidableEq μ] (j : ι) (m : μ) (H : Hub ι μ) : ℕ :=
  H.toParty.countP (fun p => p.1 = j ∧ p.2 = m) + H.toHub.countP fun p => p.1 ≠ j ∧ p.2 = m

/-- How many steps the hub may still make. -/
def pending (parties : List ι) (H : Hub ι μ) : ℕ :=
  H.toHub.length * (parties.length + 1) + H.toParty.length

/-! ### Counting -/

/-- Taking an element out of a list, as far as counting goes. -/
theorem countP_eraseIdx_add {α : Type*} {l : List α} {k : ℕ} {a : α} (h : l[k]? = some a)
    (p : α → Bool) : (l.eraseIdx k).countP p + (if p a then 1 else 0) = l.countP p := by
  obtain ⟨hk, rfl⟩ := List.getElem?_eq_some_iff.mp h
  rw [← (List.getElem_cons_eraseIdx_perm hk).countP_eq p, List.countP_cons]

section

variable [DecidableEq ι] [DecidableEq μ] {parties : List ι} {H : Hub ι μ} {i j : ι} {m m' : μ} {k : ℕ}

@[simp] theorem due_empty : due j m (empty : Hub ι μ) = 0 := rfl

/-- A message that is not on its way is not due. -/
theorem due_eq_zero (hHub : ∀ p ∈ H.toHub, p.2 ≠ m) (hParty : ∀ p ∈ H.toParty, p.2 ≠ m) :
    due j m H = 0 := by
  rw [due, List.countP_eq_zero.mpr fun p hp => by simp [hParty p hp],
    List.countP_eq_zero.mpr fun p hp => by simp [hHub p hp]]

theorem due_post : due j m (post i m' H) = due j m H + if i ≠ j ∧ m' = m then 1 else 0 := by
  simp only [due, post, List.countP_append, List.countP_singleton, decide_eq_true_eq]
  exact (Nat.add_assoc _ _ _).symm

theorem countP_copies (hparties : parties.Nodup) (hj : j ∈ parties) :
    (copies parties i m').countP (fun p => p.1 = j ∧ p.2 = m) =
      if i ≠ j ∧ m' = m then 1 else 0 := by
  rw [copies, List.countP_map]
  by_cases hm : m' = m
  · have hcount : (parties.filter fun j => j ≠ i).countP
        ((fun p : ι × μ => decide (p.1 = j ∧ p.2 = m)) ∘ fun j => (j, m')) =
          (parties.filter fun j => j ≠ i).count j := by
      refine List.countP_congr fun p _ => ?_
      simp [hm]
    rw [hcount]
    by_cases hij : i = j
    · rw [if_neg fun h => h.1 hij, List.count_eq_zero]
      simp [hij]
    · rw [if_pos ⟨hij, hm⟩, List.count_filter (by simpa using Ne.symm hij)]
      exact List.count_eq_one_of_mem hparties hj
  · rw [if_neg fun h => hm h.2, List.countP_eq_zero]
    simp [hm]

/-- **Forwarding** leaves what is due as it is. -/
theorem due_forward (hparties : parties.Nodup) (hj : j ∈ parties) :
    due j m (forward parties k H) = due j m H := by
  rcases e : H.toHub[k]? with - | ⟨i, m'⟩
  · simp only [forward, e]
  · have hout := countP_eraseIdx_add e fun p => decide (p.1 ≠ j ∧ p.2 = m)
    simp only [decide_eq_true_eq] at hout
    simp only [forward, e, due, List.countP_append]
    rw [countP_copies hparties hj]
    omega

/-- **What is received** is no longer due. -/
theorem due_receive (h : H.toParty[k]? = some (i, m')) :
    due j m H = due j m (receive k H) + if i = j ∧ m' = m then 1 else 0 := by
  have hout := countP_eraseIdx_add h fun p => decide (p.1 = j ∧ p.2 = m)
  simp only [decide_eq_true_eq] at hout
  simp only [due, receive]
  omega

end

/-! ### Nothing on its way -/

section

variable [DecidableEq ι] {parties : List ι} {H : Hub ι μ} {k : ℕ}

theorem pending_forward_lt (hk : k < H.toHub.length) :
    pending parties (forward parties k H) < pending parties H := by
  have hcopies : (copies parties (H.toHub[k]).1 (H.toHub[k]).2).length ≤ parties.length := by
    rw [copies, List.length_map]
    exact List.length_filter_le _ _
  have hlength : (H.toHub.eraseIdx k).length + 1 = H.toHub.length :=
    List.length_eraseIdx_add_one hk
  simp only [forward, List.getElem?_eq_getElem hk, pending, List.length_append]
  rw [← hlength, Nat.add_mul, Nat.one_mul]
  omega

omit [DecidableEq ι] in
theorem pending_receive_lt (hk : k < H.toParty.length) :
    pending parties (receive k H) < pending parties H := by
  have hlength : (H.toParty.eraseIdx k).length + 1 = H.toParty.length :=
    List.length_eraseIdx_add_one hk
  simp only [pending, receive]
  omega

omit [DecidableEq ι] in
theorem eq_empty_of_nil (hHub : H.toHub = []) (hParty : H.toParty = []) : H = empty := by
  obtain ⟨toHub, toParty⟩ := H
  obtain rfl : toHub = [] := hHub
  obtain rfl : toParty = [] := hParty
  rfl

end

end Hub
