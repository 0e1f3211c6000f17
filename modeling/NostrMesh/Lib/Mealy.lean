/-
NostrMesh/Lib/Mealy.lean

Deterministic machines that answer each input, and when two of them cannot be
told apart by a list of inputs.

`outputs_eq_iff` is the bisimulation rule in the form that also says where
two machines part: if they agree on the good inputs and differ on every other
one, a list of inputs tells them apart exactly if it has an input that is not
good.

`Always` says of each state of a run, and of the input that it gets, that
they satisfy a condition; `Always.of_invariant` is the rule for it.
-/
import Mathlib.Data.List.Basic

namespace Mealy

variable {σ τ ι ο : Type*}

/-- A machine: an input and a state give an output and the next state. -/
abbrev Machine (σ ι ο : Type*) := ι → σ → ο × σ

/-- The outputs for a list of inputs. -/
def outputs (M : Machine σ ι ο) : List ι → σ → List ο
  | [], _ => []
  | i :: is, s => (M i s).1 :: outputs M is (M i s).2

/-- **Bisimulation up to good inputs.** -/
theorem outputs_eq_iff {M : Machine σ ι ο} {N : Machine τ ι ο} {R : σ → τ → Prop}
    {good : ι → Prop}
    (hgood : ∀ i s t, R s t → good i → (M i s).1 = (N i t).1 ∧ R (M i s).2 (N i t).2)
    (hbad : ∀ i s t, R s t → ¬ good i → (M i s).1 ≠ (N i t).1)
    (is : List ι) {s : σ} {t : τ} (h : R s t) :
    outputs M is s = outputs N is t ↔ ∀ i ∈ is, good i := by
  induction is generalizing s t with
  | nil => simp [outputs]
  | cons i is ih =>
      rw [outputs, outputs, List.cons.injEq, List.forall_mem_cons]
      by_cases hi : good i
      · obtain ⟨hout, hnext⟩ := hgood i s t h hi
        rw [ih hnext]
        exact and_congr_left fun _ => iff_of_true hout hi
      · exact iff_of_false (fun hall => hbad i s t h hi hall.1) fun hall => hi hall.1

/-! ### Runs -/

/-- The state after a list of inputs. -/
def after (M : Machine σ ι ο) : List ι → σ → σ
  | [], s => s
  | i :: is, s => after M is (M i s).2

/-- Each state of the run, with the input that it gets, satisfies `P`. -/
def Always (M : Machine σ ι ο) (P : σ → ι → Prop) : List ι → σ → Prop
  | [], _ => True
  | i :: is, s => P s i ∧ Always M P is (M i s).2

section

variable {M : Machine σ ι ο} {Inv : σ → Prop} {Good P : σ → ι → Prop} {is : List ι} {s : σ}

/-- **The invariant rule**, for the end of a run. -/
theorem invariant_after (hnext : ∀ s i, Inv s → Inv (M i s).2) (h : Inv s) (is : List ι) :
    Inv (after M is s) := by
  induction is generalizing s with
  | nil => exact h
  | cons i is ih => exact ih (hnext s i h)

/-- The invariant rule, for the states and inputs of a run. -/
theorem Always.of_invariant (hnext : ∀ s i, Inv s → Good s i → Inv (M i s).2)
    (hP : ∀ s i, Inv s → Good s i → P s i) (h : Inv s) (hgood : Always M Good is s) :
    Always M P is s := by
  induction is generalizing s with
  | nil => trivial
  | cons i is ih => exact ⟨hP s i h hgood.1, ih (hnext s i h hgood.1) hgood.2⟩

/-- The invariant rule, for the end of a run with good inputs. -/
theorem Always.invariant_after (hnext : ∀ s i, Inv s → Good s i → Inv (M i s).2) (h : Inv s)
    (hgood : Always M Good is s) : Inv (after M is s) := by
  induction is generalizing s with
  | nil => exact h
  | cons i is ih => exact ih (hnext s i h hgood.1) hgood.2

end

end Mealy
