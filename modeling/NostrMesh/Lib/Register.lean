/-
NostrMesh/Lib/Register.lean

A register that keeps its newest value: a value is written with a time, and a
write that is not newer than what the register holds is dropped.

Writes do not commute, since the first of two values with one time stays.  But
what a register holds after many writes is one of them with the largest time
(`writeAll_spec`), in every order of the writes, and of these the first
(`isFirstNewest_writeAll`).
-/
import Mathlib.Data.List.Induction
import NostrMesh.Lib.Newest

namespace Registers

open NewestFirst

variable {τ α : Type*} [LinearOrder τ]

/-- The register after a write. -/
def write (held : Option (τ × α)) (new : τ × α) : Option (τ × α) :=
  match held with
  | none => some new
  | some old => if old.1 < new.1 then some new else some old

variable {held : Option (τ × α)} {old new : τ × α}

@[simp] theorem write_none : write (none : Option (τ × α)) new = some new := rfl

theorem write_of_lt (h : old.1 < new.1) : write (some old) new = some new := if_pos h

theorem write_of_le (h : new.1 ≤ old.1) : write (some old) new = some old :=
  if_neg (not_lt.mpr h)

/-- What the register holds after a write is the new value or the old one. -/
theorem write_cases (held : Option (τ × α)) (new : τ × α) :
    write held new = some new ∨ write held new = held := by
  rcases held with - | old
  · exact Or.inl rfl
  · rcases lt_or_ge old.1 new.1 with h | h
    · exact Or.inl (write_of_lt h)
    · exact Or.inr (write_of_le h)

theorem write_ne_none : write held new ≠ none := by
  rcases held with - | old
  · simp
  · rcases write_cases (some old) new with h | h <;> simp [h]

/-! ### Many writes -/

/-- The register after a list of writes. -/
def writeAll (held : Option (τ × α)) (news : List (τ × α)) : Option (τ × α) := news.foldl write held

variable {news news' : List (τ × α)} {x y : τ × α}

@[simp] theorem writeAll_nil : writeAll held [] = held := rfl

@[simp] theorem writeAll_cons : writeAll held (new :: news) = writeAll (write held new) news := rfl

theorem writeAll_append : writeAll held (news ++ news') = writeAll (writeAll held news) news' :=
  List.foldl_append

/-- What a register holds after some writes is what it held or one of the
writes, and nothing of these is newer. -/
theorem writeAll_cases (h : writeAll held news = some x) :
    (held = some x ∨ x ∈ news) ∧ (∀ y, held = some y → y.1 ≤ x.1) ∧ ∀ y ∈ news, y.1 ≤ x.1 := by
  induction news generalizing held with
  | nil =>
      obtain rfl : held = some x := h
      refine ⟨Or.inl rfl, fun y hy => ?_, fun y hy => absurd hy List.not_mem_nil⟩
      rw [Option.some.inj hy]
  | cons new news ih =>
      obtain ⟨hmem, hheld, hnews⟩ := ih h
      -- the write has left nothing that is older than either side
      have hwrite : new.1 ≤ x.1 ∧ ∀ y, held = some y → y.1 ≤ x.1 := by
        rcases held with - | old
        · exact ⟨hheld new rfl, fun y hy => by cases hy⟩
        · rcases lt_or_ge old.1 new.1 with hlt | hle
          · have hnew := hheld new (write_of_lt hlt)
            refine ⟨hnew, fun y hy => ?_⟩
            rw [← Option.some.inj hy]
            exact hlt.le.trans hnew
          · have hold := hheld old (write_of_le hle)
            refine ⟨hle.trans hold, fun y hy => ?_⟩
            rwa [← Option.some.inj hy]
      refine ⟨?_, hwrite.2, fun y hy => ?_⟩
      · obtain hx | hx := hmem
        · rcases write_cases held new with hwritten | hkept
          · right
            rw [hwritten] at hx
            rw [← Option.some.inj hx]
            exact List.mem_cons_self
          · exact Or.inl (hkept ▸ hx)
        · exact Or.inr (List.mem_cons_of_mem _ hx)
      · rcases List.mem_cons.mp hy with rfl | hy
        · exact hwrite.1
        · exact hnews y hy

/-- **What a register holds** after writes to an empty one is a newest of
them. -/
theorem writeAll_spec (h : writeAll none news = some x) : x ∈ news ∧ ∀ y ∈ news, y.1 ≤ x.1 := by
  obtain ⟨hmem, -, hle⟩ := writeAll_cases h
  exact ⟨hmem.resolve_left (by simp), hle⟩

theorem writeAll_some_ne_none (old : τ × α) : writeAll (some old) news ≠ none := by
  induction news generalizing old with
  | nil => simp
  | cons new news ih =>
      rcases hwrite : write (some old) new with - | x
      · exact absurd hwrite write_ne_none
      · rw [writeAll_cons, hwrite]
        exact ih x

theorem writeAll_eq_none_iff : writeAll none news = none ↔ news = [] := by
  rcases news with - | ⟨new, news⟩
  · simp
  · simpa using writeAll_some_ne_none new

/-- Of several newest writes the first is the one that stays. -/
theorem isFirstNewest_writeAll (h : writeAll none news = some x) : IsFirstNewest Prod.fst news x := by
  induction news using List.reverseRecOn generalizing x with
  | nil => cases h
  | append_singleton news new ih =>
      rw [writeAll_append] at h
      rcases hheld : writeAll none news with - | old
      · rw [hheld] at h
        obtain rfl : new = x := Option.some.inj h
        rw [writeAll_eq_none_iff.mp hheld]
        exact ⟨[], [], rfl, by simp, by simp⟩
      · rw [hheld] at h
        obtain ⟨before, after, rfl, hbefore, hafter⟩ := ih hheld
        rcases lt_or_ge old.1 new.1 with hlt | hle
        · -- all earlier writes are older
          obtain rfl : new = x := Option.some.inj ((write_of_lt hlt).symm.trans h)
          refine ⟨before ++ old :: after, [], rfl, fun y hy => ?_, by simp⟩
          exact ((writeAll_spec hheld).2 y hy).trans_lt hlt
        · obtain rfl : old = x := Option.some.inj ((write_of_le hle).symm.trans h)
          refine ⟨before, after ++ [new], by simp, hbefore, fun y hy => ?_⟩
          rcases List.mem_append.mp hy with hy | hy
          · exact hafter y hy
          · rw [List.mem_singleton.mp hy]
            exact hle

end Registers
