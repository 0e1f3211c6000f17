/-
NostrMesh/Lib/Program.lean

Programs that act on a shared world only through external operations, and
pools of such programs whose operations interleave.

A handler of a server is modelled as a `Prog`: it returns, or it issues one
operation and continues with the answer.  Every operation is atomic, so the
issue of an operation is exactly the point where another handler can get in
between.  What an operation does to the world is a relation

    eff : (o : Op) → σ → Res o → σ → Prop

(nondeterministic: an operation may fail, and an answer may be any of
several).  `Runs` executes one program alone, `PoolStep` lets one member of a
family of programs issue its next operation; what an operation does may
depend on the member that issues it.

These rules carry invariants over every interleaving:

* `pool_invariant_of_all` needs little of the programs: an invariant that
  every operation of the kind that a member issues keeps is kept by every pool;
* `pool_safe` is the rely-guarantee rule: `Safe` says that a program keeps
  the invariant and its guarantee at each of its operations, whatever the
  others do within the rely, and that its answer satisfies a postcondition
  that the others cannot spoil.  It composes along `bind` (`Safe.bind`).
-/
import Mathlib.Logic.Function.Basic
import Mathlib.Logic.Relation

namespace Interleaving

variable {Op : Type*} {Res : Op → Type*} {σ α β ι : Type*}

/-! ### Programs -/

/-- A program over external operations: return, or issue one operation and
go on with its answer. -/
inductive Prog (Op : Type*) (Res : Op → Type*) (α : Type*)
  | ret (a : α) : Prog Op Res α
  | op (o : Op) (k : Res o → Prog Op Res α) : Prog Op Res α

namespace Prog

/-- Sequential composition. -/
def bind : Prog Op Res α → (α → Prog Op Res β) → Prog Op Res β
  | ret a, f => f a
  | op o k, f => op o fun r => (k r).bind f

/-- The program that issues one operation and returns its answer. -/
def perform (o : Op) : Prog Op Res (Res o) := op o ret

@[simp] theorem ret_bind (a : α) (f : α → Prog Op Res β) :
    (ret a : Prog Op Res α).bind f = f a := rfl

@[simp] theorem op_bind (o : Op) (k : Res o → Prog Op Res α)
    (f : α → Prog Op Res β) :
    (op o k).bind f = op o fun r => (k r).bind f := rfl

@[simp] theorem perform_bind (o : Op) (f : Res o → Prog Op Res β) :
    (perform o).bind f = op o f := rfl

instance : Monad (Prog Op Res) where
  pure := ret
  bind := bind

@[simp] theorem pure_eq (a : α) : (pure a : Prog Op Res α) = ret a := rfl

@[simp] theorem bind_eq.{w} {α β : Type w} (p : Prog Op Res α) (f : α → Prog Op Res β) :
    p >>= f = p.bind f := rfl

/-- Every operation that the program can issue satisfies `P`. -/
def All (P : Op → Prop) : Prog Op Res α → Prop
  | ret _ => True
  | op o k => P o ∧ ∀ r, (k r).All P

theorem All.bind {P : Op → Prop} {p : Prog Op Res α} {f : α → Prog Op Res β} (h : p.All P)
    (hf : ∀ a, (f a).All P) : (p.bind f).All P := by
  induction p with
  | ret a => exact hf a
  | op o k ih => exact ⟨h.1, fun r => ih r (h.2 r)⟩

/-- Running a program alone against a deterministic world. -/
def run (interp : (o : Op) → σ → Res o × σ) : Prog Op Res α → σ → α × σ
  | ret a, s => (a, s)
  | op o k, s => (k (interp o s).1).run interp (interp o s).2

section

variable (interp : (o : Op) → σ → Res o × σ) (s : σ)

@[simp] theorem run_ret (a : α) : (ret a : Prog Op Res α).run interp s = (a, s) := rfl

@[simp] theorem run_op (o : Op) (k : Res o → Prog Op Res α) :
    (op o k).run interp s = (k (interp o s).1).run interp (interp o s).2 := rfl

end

end Prog

/-! ### One program alone -/

/-- `Runs eff p s a s'`: the program `p`, started in `s` with nobody else
acting, can end with answer `a` in `s'`. -/
inductive Runs (eff : (o : Op) → σ → Res o → σ → Prop) :
    Prog Op Res α → σ → α → σ → Prop
  | ret (a : α) (s : σ) : Runs eff (.ret a) s a s
  | op {o k s r s₁ a s'} :
      eff o s r s₁ → Runs eff (k r) s₁ a s' → Runs eff (.op o k) s a s'

variable {eff : (o : Op) → σ → Res o → σ → Prop}

theorem runs_ret_iff {a b : α} {s s' : σ} :
    Runs eff (.ret a : Prog Op Res α) s b s' ↔ b = a ∧ s' = s := by
  constructor
  · intro h
    cases h
    exact ⟨rfl, rfl⟩
  · rintro ⟨rfl, rfl⟩
    exact .ret _ _

theorem runs_op_iff {o : Op} {k : Res o → Prog Op Res α} {s s' : σ} {a : α} :
    Runs eff (.op o k) s a s' ↔ ∃ r s₁, eff o s r s₁ ∧ Runs eff (k r) s₁ a s' := by
  constructor
  · intro h
    cases h with
    | op he hr => exact ⟨_, _, he, hr⟩
  · rintro ⟨r, s₁, he, hr⟩
    exact .op he hr

theorem runs_bind_iff {p : Prog Op Res α} {f : α → Prog Op Res β} {s s' : σ} {b : β} :
    Runs eff (p.bind f) s b s' ↔ ∃ a s₁, Runs eff p s a s₁ ∧ Runs eff (f a) s₁ b s' := by
  induction p generalizing s with
  | ret a =>
      simp only [Prog.ret_bind, runs_ret_iff]
      constructor
      · exact fun h => ⟨a, s, ⟨rfl, rfl⟩, h⟩
      · rintro ⟨_, _, ⟨rfl, rfl⟩, h⟩
        exact h
  | op o k ih =>
      simp only [Prog.op_bind, runs_op_iff, ih]
      constructor
      · rintro ⟨r, s₁, he, a, s₂, hk, hf⟩
        exact ⟨a, s₂, ⟨r, s₁, he, hk⟩, hf⟩
      · rintro ⟨a, s₂, ⟨r, s₁, he, hk⟩, hf⟩
        exact ⟨r, s₁, he, a, s₂, hk, hf⟩

/-- If the relation admits what a deterministic world does, it admits its
runs. -/
theorem Runs.of_run {interp : (o : Op) → σ → Res o × σ}
    (h : ∀ o s, eff o s (interp o s).1 (interp o s).2) (p : Prog Op Res α) (s : σ) :
    Runs eff p s (p.run interp s).1 (p.run interp s).2 := by
  induction p generalizing s with
  | ret a => exact .ret a s
  | op o k ih => exact .op (h o s) (ih _ _)

/-- `Surely eff p s P`: started in `s` with nobody else acting, `p` can end,
and however it ends, answer and world satisfy `P`. -/
def Surely (eff : (o : Op) → σ → Res o → σ → Prop) (p : Prog Op Res α) (s : σ)
    (P : α → σ → Prop) : Prop :=
  (∃ a s', Runs eff p s a s') ∧ ∀ a s', Runs eff p s a s' → P a s'

theorem Surely.ret {P : α → σ → Prop} {a : α} {s : σ} (h : P a s) :
    Surely eff (.ret a : Prog Op Res α) s P := by
  refine ⟨⟨a, s, .ret a s⟩, fun b s' hb => ?_⟩
  obtain ⟨rfl, rfl⟩ := runs_ret_iff.mp hb
  exact h

theorem Surely.op {P : α → σ → Prop} {o : Op} {k : Res o → Prog Op Res α} {s : σ}
    (hex : ∃ r s₁, eff o s r s₁) (h : ∀ r s₁, eff o s r s₁ → Surely eff (k r) s₁ P) :
    Surely eff (.op o k) s P := by
  refine ⟨?_, fun a s' ha => ?_⟩
  · obtain ⟨r, s₁, he⟩ := hex
    obtain ⟨⟨a, s', ha⟩, -⟩ := h r s₁ he
    exact ⟨a, s', .op he ha⟩
  · obtain ⟨r, s₁, he, hk⟩ := runs_op_iff.mp ha
    exact (h r s₁ he).2 a s' hk

theorem Surely.bind {P : α → σ → Prop} {P' : β → σ → Prop} {p : Prog Op Res α}
    {f : α → Prog Op Res β} {s : σ} (h : Surely eff p s P)
    (hf : ∀ a s', P a s' → Surely eff (f a) s' P') : Surely eff (p.bind f) s P' := by
  refine ⟨?_, fun b s' hb => ?_⟩
  · obtain ⟨⟨a, s₁, ha⟩, hP⟩ := h
    obtain ⟨⟨b, s', hb⟩, -⟩ := hf a s₁ (hP a s₁ ha)
    exact ⟨b, s', runs_bind_iff.mpr ⟨a, s₁, ha, hb⟩⟩
  · obtain ⟨a, s₁, ha, hk⟩ := runs_bind_iff.mp hb
    exact (hf a s₁ (h.2 a s₁ ha)).2 b s' hk

/-! ### Pools -/

/-- A pool: the world and the rest of each member's program. -/
abbrev Pool (Op : Type*) (Res : Op → Type*) (σ α ι : Type*) :=
  σ × (ι → Prog Op Res α)

variable [DecidableEq ι] {effs : ι → (o : Op) → σ → Res o → σ → Prop}

/-- One member issues its next operation. -/
inductive PoolStep (effs : ι → (o : Op) → σ → Res o → σ → Prop) :
    Pool Op Res σ α ι → Pool Op Res σ α ι → Prop
  | step {s s' : σ} {p : ι → Prog Op Res α} {o k r} (i : ι) :
      p i = .op o k → effs i o s r s' →
      PoolStep effs (s, p) (s', Function.update p i (k r))

/-- Every pool that an interleaving of the members can lead to. -/
abbrev PoolReaches (effs : ι → (o : Op) → σ → Res o → σ → Prop) :
    Pool Op Res σ α ι → Pool Op Res σ α ι → Prop :=
  Relation.ReflTransGen (PoolStep effs)

/-- A world that can do less leads to fewer pools. -/
theorem PoolReaches.mono {effs' : ι → (o : Op) → σ → Res o → σ → Prop}
    (h : ∀ i o s r s', effs i o s r s' → effs' i o s r s') {c c' : Pool Op Res σ α ι}
    (hr : PoolReaches effs c c') : PoolReaches effs' c c' := by
  refine Relation.ReflTransGen.mono (fun a b hstep => ?_) _ _ hr
  cases hstep with
  | step i hi he => exact .step i hi (h _ _ _ _ _ he)

/-- **Invariant rule**: if all operations of each member are of its kind, it is
enough that those keep the invariant. -/
theorem pool_invariant_of_all {P : ι → Op → Prop} {I : σ → Prop}
    (hop : ∀ i o s r s', P i o → I s → effs i o s r s' → I s')
    {c c' : Pool Op Res σ α ι} (hr : PoolReaches effs c c') (hall : ∀ i, (c.2 i).All (P i))
    (h : I c.1) : I c'.1 ∧ ∀ i, (c'.2 i).All (P i) := by
  induction hr with
  | refl => exact ⟨h, hall⟩
  | tail _ hstep ih =>
      obtain ⟨hI, hall⟩ := ih
      cases hstep with
      | @step s s' p o k r j hj he =>
          have hself := hall j
          simp only [hj] at hself
          refine ⟨hop _ _ _ _ _ hself.1 hI he, fun i => ?_⟩
          by_cases hij : i = j
          · subst hij
            simpa using hself.2 r
          · simpa [Function.update_of_ne hij] using hall i

/-- A member that has answered keeps its answer. -/
theorem PoolStep.ret_stable {c c' : Pool Op Res σ α ι} (h : PoolStep effs c c')
    {i : ι} {a : α} (hi : c.2 i = .ret a) : c'.2 i = .ret a := by
  cases h with
  | @step s s' p o k r j hj he =>
      have hne : i ≠ j := by
        rintro rfl
        exact absurd (hj.symm.trans hi) (by simp)
      simpa [Function.update_of_ne hne] using hi

theorem PoolReaches.ret_stable {c c' : Pool Op Res σ α ι}
    (h : PoolReaches effs c c') {i : ι} {a : α} (hi : c.2 i = .ret a) :
    c'.2 i = .ret a := by
  induction h with
  | refl => exact hi
  | tail _ hstep ih => exact hstep.ret_stable ih

/-- A member can run on its own up to its answer. -/
theorem PoolReaches.of_runs {i : ι} {p : ι → Prog Op Res α} {s s' : σ} {a : α}
    (h : Runs (effs i) (p i) s a s') :
    PoolReaches effs (s, p) (s', Function.update p i (.ret a)) := by
  generalize hq : p i = q at h
  -- the first operation is a step of the pool, and the rest runs from there
  induction h generalizing p with
  | ret a s =>
      rw [← hq, Function.update_eq_self]
  | @op o k s r s₁ a s' he _ ih =>
      have hstep : PoolStep effs (s, p) (s₁, Function.update p i (k r)) := .step i hq he
      have hrest := ih (p := Function.update p i (k r)) (by rw [Function.update_self])
      rw [Function.update_idem] at hrest
      exact .head hstep hrest

/-- A member runs on its own, up to its answer, against a deterministic
world. -/
def Pool.runMember (interp : (o : Op) → σ → Res o × σ) (i : ι) (c : Pool Op Res σ α ι) :
    Pool Op Res σ α ι :=
  (((c.2 i).run interp c.1).2, Function.update c.2 i (.ret ((c.2 i).run interp c.1).1))

theorem PoolReaches.runMember {interp : (o : Op) → σ → Res o × σ} {i : ι}
    (h : ∀ o s, effs i o s (interp o s).1 (interp o s).2) (c : Pool Op Res σ α ι) :
    PoolReaches effs c (c.runMember interp i) :=
  .of_runs (Runs.of_run h (c.2 i) c.1)

/-- A member issues its next operation, if it has one, against a deterministic
world. -/
def Pool.stepMember (interp : (o : Op) → σ → Res o × σ) (i : ι) (c : Pool Op Res σ α ι) :
    Pool Op Res σ α ι :=
  match c.2 i with
  | .ret _ => c
  | .op o k => ((interp o c.1).2, Function.update c.2 i (k (interp o c.1).1))

theorem PoolReaches.stepMember {interp : (o : Op) → σ → Res o × σ} {i : ι}
    (h : ∀ o s, effs i o s (interp o s).1 (interp o s).2) (c : Pool Op Res σ α ι) :
    PoolReaches effs c (c.stepMember interp i) := by
  rw [Pool.stepMember]
  split
  · exact .refl
  · next o k hi => exact .single (.step i hi (h o c.1))

/-! ### The rely-guarantee rule -/

/-- `Safe eff I R G Q p s`: started in `s`, with the others moving the world
only along the rely `R` and inside the invariant `I`, each operation of `p`
keeps `I` and moves the world along the guarantee `G`, and the answer of `p`
satisfies `Q` from then on. -/
def Safe (eff : (o : Op) → σ → Res o → σ → Prop) (I : σ → Prop)
    (R G : σ → σ → Prop) (Q : α → σ → Prop) : Prog Op Res α → σ → Prop
  | .ret a, s => ∀ s₁, R s s₁ → I s₁ → Q a s₁
  | .op o k, s => ∀ s₁, R s s₁ → I s₁ → ∀ r s', eff o s₁ r s' →
      I s' ∧ G s₁ s' ∧ Safe eff I R G Q (k r) s'

section

variable {I : σ → Prop} {R G : σ → σ → Prop} {Q : α → σ → Prop} {Q' : β → σ → Prop}
variable {p : Prog Op Res α} {s s₁ : σ}

/-- Safety survives what the others do. -/
theorem Safe.stable (htrans : ∀ s₁ s₂ s₃, R s₁ s₂ → R s₂ s₃ → R s₁ s₃)
    (h : Safe eff I R G Q p s) (hR : R s s₁) : Safe eff I R G Q p s₁ := by
  cases p with
  | ret a => exact fun s₂ h₂ => h s₂ (htrans _ _ _ hR h₂)
  | op o k => exact fun s₂ h₂ => h s₂ (htrans _ _ _ hR h₂)

/-- A program may rely on what holds in the world in which it issues its
first operation. -/
theorem Safe.intro (hrefl : ∀ s, R s s) (h : ∀ s₁, R s s₁ → I s₁ → Safe eff I R G Q p s₁) :
    Safe eff I R G Q p s := by
  cases p with
  | ret a => exact fun s₁ hR hI => h s₁ hR hI s₁ (hrefl s₁) hI
  | op o k => exact fun s₁ hR hI => h s₁ hR hI s₁ (hrefl s₁) hI

/-- Safety composes: what comes after `p` may rely on the postcondition of
`p`. -/
theorem Safe.bind {f : α → Prog Op Res β} (hrefl : ∀ s, R s s)
    (hp : Safe eff I R G Q p s)
    (hf : ∀ a s₁, I s₁ → Q a s₁ → Safe eff I R G Q' (f a) s₁) :
    Safe eff I R G Q' (p.bind f) s := by
  induction p generalizing s with
  | ret a => exact Safe.intro hrefl fun s₁ hR hI => hf a s₁ hI (hp s₁ hR hI)
  | op o k ih =>
      intro s₁ hR hI r s' he
      obtain ⟨hI', hG, hk⟩ := hp s₁ hR hI r s' he
      exact ⟨hI', hG, ih r hk⟩

/-- A program whose operations all keep the invariant and the guarantee. -/
theorem Safe.of_all {P : Op → Prop} (h : p.All P)
    (hP : ∀ o, P o → ∀ s r s', I s → eff o s r s' → I s' ∧ G s s') :
    Safe eff I R G (fun _ _ => True) p s := by
  induction p generalizing s with
  | ret a => exact fun _ _ _ => trivial
  | op o k ih =>
      intro s₁ _ hI r s' he
      obtain ⟨hI', hG⟩ := hP o h.1 s₁ r s' hI he
      exact ⟨hI', hG, ih r (h.2 r)⟩

/-- What the guarantee keeps can be added to the invariant. -/
theorem Safe.inv {J : σ → Prop} (hJ : ∀ s s', G s s' → J s → J s') (h : Safe eff I R G Q p s) :
    Safe eff (fun s => I s ∧ J s) R G Q p s := by
  induction p generalizing s with
  | ret a => exact fun s₁ hR hI => h s₁ hR hI.1
  | op o k ih =>
      intro s₁ hR hI r s' he
      obtain ⟨hI', hG, hk⟩ := h s₁ hR hI.1 r s' he
      exact ⟨⟨hI', hJ s₁ s' hG hI.2⟩, hG, ih r hk⟩

/-- A weaker postcondition. -/
theorem Safe.imp {Q' : α → σ → Prop} (h : Safe eff I R G Q p s)
    (hQ : ∀ a s, I s → Q a s → Q' a s) : Safe eff I R G Q' p s := by
  induction p generalizing s with
  | ret a => exact fun s₁ hR hI => hQ a s₁ hI (h s₁ hR hI)
  | op o k ih =>
      intro s₁ hR hI r s' he
      obtain ⟨hI', hG, hk⟩ := h s₁ hR hI r s' he
      exact ⟨hI', hG, ih r hk⟩

end

variable {I : σ → Prop} {Q : ι → α → σ → Prop} {R G : ι → σ → σ → Prop}

/-- **Rely-guarantee rule**: if each member is safe and each member's
guarantee is within every other member's rely, then in every interleaving the
invariant holds and each member stays safe. -/
theorem pool_safe (hrefl : ∀ i s, R i s s)
    (htrans : ∀ i s₁ s₂ s₃, R i s₁ s₂ → R i s₂ s₃ → R i s₁ s₃)
    (hGR : ∀ i j, i ≠ j → ∀ s s', G j s s' → R i s s')
    {c c' : Pool Op Res σ α ι} (hr : PoolReaches effs c c') (hI : I c.1)
    (hsafe : ∀ i, Safe (effs i) I (R i) (G i) (Q i) (c.2 i) c.1) :
    I c'.1 ∧ ∀ i, Safe (effs i) I (R i) (G i) (Q i) (c'.2 i) c'.1 := by
  induction hr with
  | refl => exact ⟨hI, hsafe⟩
  | tail _ hstep ih =>
      obtain ⟨hI₁, hsafe₁⟩ := ih
      cases hstep with
      | @step s s' p o k r j hj he =>
          have hself := hsafe₁ j
          simp only [hj] at hself
          -- the member that steps was safe in the world as the others have left it
          obtain ⟨hI', hG, hk⟩ := hself s (hrefl j s) hI₁ r s' he
          refine ⟨hI', fun i => ?_⟩
          by_cases hij : i = j
          · subst hij
            simpa using hk
          · -- the others have only seen a step within their rely
            simpa [Function.update_of_ne hij] using
              (hsafe₁ i).stable (htrans i) (hGR i j hij s s' hG)

end Interleaving
