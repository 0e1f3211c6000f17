/-
NostrMesh/Lib/Newest.lean

Newest-first lists.  Elements carry a time in a linear order and a key; the
operations are those of a reader that merges answers of several sources:

* `byTime`      — stable sort, newest first;
* `firstPerKey` — one pass that keeps the first element of each key;
* `latest`      — sort, keep the first per key, sort again;
* `IsTop n`     — what a source may send when it is asked for the newest `n`.

The facts a reader of the head of such a list needs: the head of `latest` is
a newest element of the input (`latest_head`), namely the first of them
(`latest_head_iff`), every newest element is the head for some order of the
input (`latest_cons_of_newest`), and a source asked for at least one element
sends a newest one of its own (`IsTop.exists_newest`).

The whole of `latest` is the first newest element of each key
(`mem_latest_iff`), newest first, and `latest` leaves its own results alone
(`latest_latest`).  `latest_perm_iff` says for which inputs it
does not depend on their order: those in which no two different elements, each
a newest one of its key, have one time.
-/
import Mathlib.Data.List.Sort
import Mathlib.Data.List.MinMax
import Mathlib.Data.List.Perm.Subperm

namespace NewestFirst

variable {α κ τ : Type*} [LinearOrder τ] [DecidableEq κ]
variable {time : α → τ} {key : α → κ} {l l' a : List α} {n : ℕ}

/-! ### Newest elements -/

/-- `e` is in `l` and nothing in `l` is newer. -/
def IsNewest (time : α → τ) (l : List α) (e : α) : Prop :=
  e ∈ l ∧ ∀ x ∈ l, time x ≤ time e

theorem IsNewest.congr {e : α} (h : IsNewest time l e) (hl : ∀ x, x ∈ l ↔ x ∈ l') :
    IsNewest time l' e :=
  ⟨(hl e).mp h.1, fun x hx => h.2 x ((hl x).mpr hx)⟩

theorem exists_isNewest (time : α → τ) (hl : l ≠ []) : ∃ e, IsNewest time l e := by
  induction l with
  | nil => exact absurd rfl hl
  | cons x l ih =>
      rcases l with - | ⟨y, l⟩
      · exact ⟨x, by simp, by simp⟩
      · obtain ⟨e, he, hmax⟩ := ih (by simp)
        rcases le_total (time x) (time e) with hxe | hex
        · refine ⟨e, List.mem_cons_of_mem _ he, fun z hz => ?_⟩
          rcases List.mem_cons.mp hz with rfl | hz
          · exact hxe
          · exact hmax z hz
        · refine ⟨x, List.mem_cons_self, fun z hz => ?_⟩
          rcases List.mem_cons.mp hz with rfl | hz
          · exact le_rfl
          · exact (hmax z hz).trans hex

/-! ### Sorting by time -/

/-- Stable sort, newest first. -/
def byTime (time : α → τ) (l : List α) : List α :=
  l.insertionSort fun a b => time b ≤ time a

@[simp] theorem mem_byTime {x : α} : x ∈ byTime time l ↔ x ∈ l :=
  List.mem_insertionSort _

theorem byTime_perm : List.Perm (byTime time l) l :=
  List.perm_insertionSort _ _

theorem byTime_pairwise (time : α → τ) (l : List α) :
    (byTime time l).Pairwise fun a b => time b ≤ time a := by
  have : Std.Total fun a b : α => time b ≤ time a := ⟨fun a b => le_total _ _⟩
  have : IsTrans α fun a b : α => time b ≤ time a := ⟨fun _ _ _ h₁ h₂ => h₂.trans h₁⟩
  exact List.pairwise_insertionSort _ l

/-- Sorting an element that nothing exceeds leaves it in front. -/
theorem byTime_cons_of_newest {e : α} (h : ∀ x ∈ l, time x ≤ time e) :
    byTime time (e :: l) = e :: byTime time l := by
  have : IsTrans α fun a b : α => time b ≤ time a := ⟨fun _ _ _ h₁ h₂ => h₂.trans h₁⟩
  exact List.insertionSort_cons_of_forall_rel _ h

/-- The head of a list sorted newest first is newest in it. -/
theorem isNewest_of_byTime_cons {e : α} {t : List α} (h : byTime time l = e :: t) :
    IsNewest time l e := by
  have hp := byTime_pairwise time l
  rw [h] at hp
  have hmem : ∀ x, x ∈ l ↔ x ∈ e :: t := fun x => by rw [← h, mem_byTime]
  refine ⟨(hmem e).mpr List.mem_cons_self, fun x hx => ?_⟩
  rcases List.mem_cons.mp ((hmem x).mp hx) with rfl | hx
  · exact le_rfl
  · exact List.rel_of_pairwise_cons hp hx

/-! ### The first element of each key -/

/-- One pass over `l` that adds an element to `kept` unless its key is
already there. -/
def keepFirst (key : α → κ) (kept l : List α) : List α :=
  l.foldl (fun kept e => if kept.any fun x => key x = key e then kept else kept ++ [e]) kept

/-- The first element of each key, in order. -/
def firstPerKey (key : α → κ) (l : List α) : List α := keepFirst key [] l

theorem keepFirst_cons (key : α → κ) (kept : List α) (e : α) (l : List α) :
    keepFirst key kept (e :: l)
      = keepFirst key (if kept.any fun x => key x = key e then kept else kept ++ [e]) l :=
  rfl

theorem prefix_keepFirst (key : α → κ) (kept l : List α) : kept <+: keepFirst key kept l := by
  induction l generalizing kept with
  | nil => exact List.prefix_rfl
  | cons e l ih =>
      rw [keepFirst_cons]
      split
      · exact ih kept
      · exact (List.prefix_append kept [e]).trans (ih _)

theorem mem_of_mem_keepFirst {kept : List α} {x : α} (h : x ∈ keepFirst key kept l) :
    x ∈ kept ∨ x ∈ l := by
  induction l generalizing kept with
  | nil => exact Or.inl h
  | cons e l ih =>
      rw [keepFirst_cons] at h
      rcases ih h with hk | hl
      · split at hk
        · exact Or.inl hk
        · rcases List.mem_append.mp hk with hk | hk
          · exact Or.inl hk
          · exact Or.inr (List.mem_cons.mpr (Or.inl (List.mem_singleton.mp hk)))
      · exact Or.inr (List.mem_cons_of_mem _ hl)

theorem mem_of_mem_firstPerKey {x : α} (h : x ∈ firstPerKey key l) : x ∈ l := by
  rcases mem_of_mem_keepFirst h with h | h
  · cases h
  · exact h

theorem firstPerKey_cons (key : α → κ) (e : α) (l : List α) :
    ∃ t, firstPerKey key (e :: l) = e :: t := by
  have h : [e] <+: firstPerKey key (e :: l) := prefix_keepFirst key [e] l
  obtain ⟨t, ht⟩ := h
  exact ⟨t, by simpa using ht.symm⟩

/-! ### The latest element of each key -/

/-- Sort newest first, keep the first element of each key, sort again. -/
def latest (time : α → τ) (key : α → κ) (l : List α) : List α :=
  byTime time (firstPerKey key (byTime time l))

theorem mem_of_mem_latest {x : α} (h : x ∈ latest time key l) : x ∈ l :=
  mem_byTime.mp (mem_of_mem_firstPerKey (mem_byTime.mp h))

@[simp] theorem latest_nil : latest time key ([] : List α) = [] := rfl

theorem latest_eq_nil_iff : latest time key l = [] ↔ l = [] := by
  constructor
  · intro h
    rcases hs : byTime time l with - | ⟨e, t⟩
    · exact List.Perm.eq_nil (hs ▸ byTime_perm.symm)
    · obtain ⟨t', ht'⟩ := firstPerKey_cons key e t
      have : e ∈ latest time key l := by simp [latest, hs, ht']
      rw [h] at this
      cases this
  · rintro rfl
    rfl

/-- **The head is newest**: what `latest` puts first is a newest element of
the whole input, whatever the keys are. -/
theorem latest_head {e : α} {t : List α} (h : latest time key l = e :: t) :
    IsNewest time l e := by
  refine ⟨mem_of_mem_latest (h ▸ List.mem_cons_self), fun x hx => ?_⟩
  rcases hs : byTime time l with - | ⟨m, t'⟩
  · have hx' : x ∈ byTime time l := mem_byTime.mpr hx
    rw [hs] at hx'
    cases hx'
  · -- the newest element of the input survives the pass over the keys
    obtain ⟨t'', ht''⟩ := firstPerKey_cons key m t'
    have hm : time m ≤ time e :=
      (isNewest_of_byTime_cons h).2 m (by rw [hs, ht'']; exact List.mem_cons_self)
    exact ((isNewest_of_byTime_cons hs).2 x hx).trans hm

/-- The pass over the keys does not touch the head. -/
theorem latest_cons_of_byTime_cons (key : α → κ) {e : α} {t : List α} (h : byTime time l = e :: t) :
    ∃ t', latest time key l = e :: t' := by
  obtain ⟨t', ht'⟩ := firstPerKey_cons key e t
  refine ⟨byTime time t', ?_⟩
  rw [latest, h, ht']
  refine byTime_cons_of_newest fun x hx => ?_
  have hmem : x ∈ byTime time l := h ▸ mem_of_mem_firstPerKey (ht' ▸ List.mem_cons_of_mem _ hx)
  exact (isNewest_of_byTime_cons h).2 x (mem_byTime.mp hmem)

/-- An element that nothing exceeds and that comes first stays first. -/
theorem latest_cons_of_newest (key : α → κ) {e : α} (h : ∀ x ∈ l, time x ≤ time e) :
    ∃ t, latest time key (e :: l) = e :: t :=
  latest_cons_of_byTime_cons key (byTime_cons_of_newest h)

/-! ### Which of several newest elements -/

/-- `e` is the first of the newest elements of `l`. -/
def IsFirstNewest (time : α → τ) (l : List α) (e : α) : Prop :=
  ∃ before after, l = before ++ e :: after ∧ (∀ x ∈ before, time x < time e) ∧
    ∀ x ∈ after, time x ≤ time e

theorem IsFirstNewest.isNewest {e : α} (h : IsFirstNewest time l e) : IsNewest time l e := by
  obtain ⟨before, after, rfl, hbefore, hafter⟩ := h
  refine ⟨List.mem_append_right _ List.mem_cons_self, fun x hx => ?_⟩
  rcases List.mem_append.mp hx with hx | hx
  · exact (hbefore x hx).le
  · rcases List.mem_cons.mp hx with rfl | hx
    · exact le_rfl
    · exact hafter x hx

/-- A stable sort puts the first of the newest elements first. -/
theorem isFirstNewest_of_byTime_cons {e : α} {t : List α} (h : byTime time l = e :: t) :
    IsFirstNewest time l e := by
  induction l generalizing e t with
  | nil => simp [byTime] at h
  | cons x l ih =>
      rcases hs : byTime time l with - | ⟨m, t'⟩
      · have hnil : l = [] := List.Perm.eq_nil (hs ▸ byTime_perm.symm)
        subst hnil
        obtain ⟨rfl, -⟩ := List.cons.inj (h : [x] = e :: t)
        exact ⟨[], [], rfl, by simp, by simp⟩
      · have hinsert : byTime time (x :: l) = (m :: t').orderedInsert
            (fun a b => time b ≤ time a) x := by rw [← hs]; rfl
        rw [hinsert, List.orderedInsert] at h
        have hm := (ih hs).isNewest
        split at h
        · next hle =>
          obtain ⟨rfl, -⟩ := List.cons.inj h
          exact ⟨[], l, rfl, by simp, fun y hy => (hm.2 y hy).trans hle⟩
        · next hle =>
          obtain ⟨rfl, -⟩ := List.cons.inj h
          obtain ⟨before, after, rfl, hbefore, hafter⟩ := ih hs
          refine ⟨x :: before, after, rfl, ?_, hafter⟩
          rintro y (_ | ⟨_, hy⟩)
          · exact not_le.mp hle
          · exact hbefore y hy

theorem IsFirstNewest.unique {e e' : α} (h : IsFirstNewest time l e)
    (h' : IsFirstNewest time l e') :
    e = e' := by
  obtain ⟨before, after, rfl, hbefore, hafter⟩ := h
  obtain ⟨before', after', heq, hbefore', hafter'⟩ := h'
  rcases List.append_eq_append_iff.mp heq with ⟨as, rfl, has⟩ | ⟨as, rfl, has⟩
  · rcases as with - | ⟨a, as⟩
    · exact (List.cons.inj has).1
    · -- `e` comes before `e'`, which is not newer
      obtain ⟨rfl, rfl⟩ := List.cons.inj has
      exact absurd (hbefore' e (by simp)) (not_lt.mpr (hafter e' (by simp)))
  · rcases as with - | ⟨a, as⟩
    · exact (List.cons.inj has).1.symm
    · obtain ⟨rfl, rfl⟩ := List.cons.inj has
      exact absurd (hbefore e' (by simp)) (not_lt.mpr (hafter' e (by simp)))

theorem IsFirstNewest.of_map {β : Type*} {f : β → α} {l : List β} {x : α}
    (h : IsFirstNewest time (l.map f) x) : ∃ e, f e = x ∧ IsFirstNewest (time ∘ f) l e := by
  obtain ⟨before, after, heq, hbefore, hafter⟩ := h
  obtain ⟨before, rest, rfl, rfl, hrest⟩ := List.map_eq_append_iff.mp heq
  obtain ⟨e, after, rfl, rfl, rfl⟩ := List.map_eq_cons_iff.mp hrest
  exact ⟨e, rfl, before, after, rfl, fun y hy => hbefore _ (List.mem_map_of_mem hy),
    fun y hy => hafter _ (List.mem_map_of_mem hy)⟩

/-- **The head is the first newest element.** -/
theorem latest_head_iff {e : α} :
    (∃ t, latest time key l = e :: t) ↔ IsFirstNewest time l e := by
  have hhead : ∀ {e t}, latest time key l = e :: t → IsFirstNewest time l e := by
    intro e t h
    rcases hs : byTime time l with - | ⟨m, t'⟩
    · rw [latest_eq_nil_iff.mpr (List.Perm.eq_nil (hs ▸ byTime_perm.symm))] at h
      cases h
    · obtain ⟨t'', ht''⟩ := latest_cons_of_byTime_cons key hs
      obtain ⟨rfl, -⟩ := List.cons.inj (h.symm.trans ht'')
      exact isFirstNewest_of_byTime_cons hs
  constructor
  · rintro ⟨t, h⟩
    exact hhead h
  · intro h
    rcases hl : latest time key l with - | ⟨m, t⟩
    · rw [latest_eq_nil_iff.mp hl] at h
      exact absurd h.isNewest.1 List.not_mem_nil
    · exact ⟨t, by rw [(hhead hl).unique h]⟩

/-! ### The order of the input -/

/-- `e` is a newest one of the elements with its key. -/
def IsNewestOfKey (time : α → τ) (key : α → κ) (l : List α) (e : α) : Prop :=
  IsNewest time (l.filter fun x => key x = key e) e

theorem isNewestOfKey_iff {e : α} : IsNewestOfKey time key l e ↔
    e ∈ l ∧ ∀ x ∈ l, key x = key e → time x ≤ time e := by
  simp only [IsNewestOfKey, IsNewest, List.mem_filter, decide_true, and_true, decide_eq_true_eq,
    and_imp]

theorem IsNewestOfKey.perm {e : α} (h : IsNewestOfKey time key l e) (hp : List.Perm l l') :
    IsNewestOfKey time key l' e :=
  h.congr fun _ => (hp.filter _).mem_iff

/-- An insertion into a sorted list, seen through a filter. -/
theorem filter_orderedInsert (p : α → Bool) (x : α) {s : List α}
    (hs : s.Pairwise fun a b => time b ≤ time a) :
    (s.orderedInsert (fun a b => time b ≤ time a) x).filter p =
      if p x then (s.filter p).orderedInsert (fun a b => time b ≤ time a) x else s.filter p := by
  induction s with
  | nil => rcases hp : p x with - | - <;> simp [hp]
  | cons b s ih =>
      obtain ⟨hb, hs'⟩ := List.pairwise_cons.mp hs
      by_cases hle : time b ≤ time x
      · -- `x` goes in front of everything, before the filter and after it
        have hall : ∀ c ∈ (b :: s).filter p, time c ≤ time x := by
          intro c hc
          rcases List.mem_cons.mp (List.mem_filter.mp hc).1 with rfl | hc
          · exact hle
          · exact (hb c hc).trans hle
        have hfront : ((b :: s).filter p).orderedInsert (fun a b => time b ≤ time a) x =
            x :: (b :: s).filter p := by
          rcases hfilter : (b :: s).filter p with - | ⟨c, t⟩
          · rfl
          · exact List.orderedInsert_cons_of_le _ t (hall c (hfilter ▸ List.mem_cons_self))
        rw [hfront, List.orderedInsert_cons_of_le _ s hle, List.filter_cons]
      · rw [List.orderedInsert_of_not_le _ s hle, List.filter_cons, List.filter_cons, ih hs']
        rcases hpb : p b with - | -
        · simp only [Bool.false_eq_true, if_false]
        · simp only [if_true]
          rw [List.orderedInsert_of_not_le (fun a b => time b ≤ time a) (s.filter p) hle]
          split
          · rfl
          · rfl

/-- A stable sort goes on with what a filter leaves. -/
theorem filter_byTime (p : α → Bool) (l : List α) :
    (byTime time l).filter p = byTime time (l.filter p) := by
  induction l with
  | nil => rfl
  | cons x l ih =>
      have hcons : byTime time (x :: l) =
        (byTime time l).orderedInsert (fun a b => time b ≤ time a) x := rfl
      rw [hcons, filter_orderedInsert p x (byTime_pairwise time l), ih, List.filter_cons]
      split
      · rfl
      · rfl

/-- Elements of one time stay as they are. -/
theorem filter_byTime_time (t : τ) (l : List α) :
    (byTime time l).filter (fun x => time x = t) = l.filter fun x => time x = t := by
  rw [filter_byTime]
  refine List.Pairwise.insertionSort_eq (List.pairwise_of_forall_mem_list fun x hx y hy => ?_)
  rw [of_decide_eq_true (List.mem_filter.mp hx).2, of_decide_eq_true (List.mem_filter.mp hy).2]

theorem keepFirst_sublist (key : α → κ) (kept l : List α) : (keepFirst key kept l).Sublist (kept ++ l) := by
  induction l generalizing kept with
  | nil => rw [List.append_nil]; exact List.Sublist.refl _
  | cons e l ih =>
      rw [keepFirst_cons]
      split
      · exact (ih kept).trans (List.Sublist.append_left (List.sublist_cons_self e l) kept)
      · have := ih (kept ++ [e])
        rwa [List.append_assoc] at this

theorem firstPerKey_sublist (key : α → κ) (l : List α) : (firstPerKey key l).Sublist l :=
  keepFirst_sublist key [] l

/-- What is kept is the first one of its key. -/
theorem mem_keepFirst_iff {kept : List α} {x : α} : x ∈ keepFirst key kept l ↔
    x ∈ kept ∨ (∀ y ∈ kept, key y ≠ key x) ∧ (l.filter fun y => key y = key x).head? = some x := by
  induction l generalizing kept with
  | nil => simp [keepFirst]
  | cons e l ih =>
      rw [keepFirst_cons, ih]
      by_cases hkey : key e = key x
      · have hhead : ((e :: l).filter fun y => key y = key x).head? = some e := by simp [hkey]
        rw [hhead, Option.some.injEq]
        split
        · next hkept =>
          -- the key is taken already
          obtain ⟨y, hy, hye⟩ := List.any_eq_true.mp hkept
          have hused : ¬ ∀ y ∈ kept, key y ≠ key x := fun hall =>
            hall y hy ((of_decide_eq_true hye).trans hkey)
          simp only [hused, false_and]
        · next hkept =>
          have hnew : ∀ y ∈ kept, key y ≠ key x := fun y hy heq =>
            hkept (List.any_eq_true.mpr ⟨y, hy, decide_eq_true (heq.trans hkey.symm)⟩)
          have hused : ¬ ∀ y ∈ kept ++ [e], key y ≠ key x := fun hall =>
            hall e (List.mem_append_right _ (List.mem_singleton_self e)) hkey
          rw [and_iff_right hnew, List.mem_append, List.mem_singleton, eq_comm (a := e)]
          simp only [hused, false_and, or_false]
      · have hskip : ((e :: l).filter fun y => key y = key x) = l.filter fun y => key y = key x := by
          simp [hkey]
        rw [hskip]
        split
        · rfl
        · have hne : x ≠ e := fun heq => hkey (heq ▸ rfl)
          simp only [List.mem_append, List.mem_singleton, hne, or_false, or_imp, forall_and,
            forall_eq, hkey, ne_eq, not_false_eq_true, and_true]

theorem nodup_map_keepFirst {kept : List α} (h : (kept.map key).Nodup) :
    ((keepFirst key kept l).map key).Nodup := by
  induction l generalizing kept with
  | nil => exact h
  | cons e l ih =>
      rw [keepFirst_cons]
      split
      · exact ih h
      · next hnew =>
        refine ih ?_
        rw [List.map_append, List.map_singleton, List.nodup_append]
        refine ⟨h, List.nodup_singleton _, fun k hk k' hk' heq => ?_⟩
        obtain ⟨x, hx, rfl⟩ := List.mem_map.mp hk
        rw [List.mem_singleton.mp hk'] at heq
        exact hnew (List.any_eq_true.mpr ⟨x, hx, decide_eq_true heq⟩)

/-- Different keys are all kept. -/
theorem keepFirst_eq_append {kept : List α} (h : ((kept ++ l).map key).Nodup) :
    keepFirst key kept l = kept ++ l := by
  induction l generalizing kept with
  | nil => rw [List.append_nil]; rfl
  | cons e l ih =>
      have hnew : ¬ (kept.any fun x => key x = key e) = true := by
        intro hany
        obtain ⟨x, hx, hkey⟩ := List.any_eq_true.mp hany
        rw [List.map_append, List.nodup_append] at h
        exact h.2.2 _ (List.mem_map_of_mem hx) _ (List.mem_map_of_mem List.mem_cons_self)
          (of_decide_eq_true hkey)
      rw [keepFirst_cons, if_neg hnew, ih (by rwa [List.append_assoc]), List.append_assoc]
      rfl

theorem nodup_map_firstPerKey (key : α → κ) (l : List α) : ((firstPerKey key l).map key).Nodup :=
  @nodup_map_keepFirst _ _ _ key l [] List.nodup_nil

theorem nodup_firstPerKey (key : α → κ) (l : List α) : (firstPerKey key l).Nodup :=
  (nodup_map_firstPerKey key l).of_map key

/-- **The members of `latest`**: of each key the first newest element. -/
theorem mem_latest_iff {x : α} :
    x ∈ latest time key l ↔ IsFirstNewest time (l.filter fun y => key y = key x) x := by
  rw [latest, mem_byTime, firstPerKey, mem_keepFirst_iff, filter_byTime]
  simp only [List.not_mem_nil, false_or, false_implies, implies_true, true_and,
    List.head?_eq_some_iff]
  constructor
  · rintro ⟨t, h⟩
    exact isFirstNewest_of_byTime_cons h
  · intro h
    rcases hs : byTime time (l.filter fun y => key y = key x) with - | ⟨m, t⟩
    · have hx : x ∈ byTime time (l.filter fun y => key y = key x) := mem_byTime.mpr h.isNewest.1
      rw [hs] at hx
      cases hx
    · exact ⟨t, by rw [(isFirstNewest_of_byTime_cons hs).unique h]⟩

theorem isNewestOfKey_of_mem_latest {x : α} (h : x ∈ latest time key l) :
    IsNewestOfKey time key l x :=
  (mem_latest_iff.mp h).isNewest

/-- Each key of the input has a member. -/
theorem exists_mem_latest {x : α} (h : x ∈ l) : ∃ y ∈ latest time key l, key y = key x := by
  rcases hs : byTime time (l.filter fun y => key y = key x) with - | ⟨m, t⟩
  · have hx : x ∈ byTime time (l.filter fun y => key y = key x) :=
      mem_byTime.mpr (List.mem_filter.mpr ⟨h, decide_eq_true rfl⟩)
    rw [hs] at hx
    cases hx
  · have hfirst := isFirstNewest_of_byTime_cons hs
    have hkey : key m = key x := of_decide_eq_true (List.mem_filter.mp hfirst.isNewest.1).2
    exact ⟨m, mem_latest_iff.mpr (by rwa [hkey]), hkey⟩

/-- No two members of `latest` have one key. -/
theorem nodup_map_latest (time : α → τ) (key : α → κ) (l : List α) :
    ((latest time key l).map key).Nodup :=
  (byTime_perm.map key).nodup_iff.mpr (nodup_map_firstPerKey key _)

/-- **Taking the latest again** changes nothing. -/
theorem latest_latest (time : α → τ) (key : α → κ) (l : List α) :
    latest time key (latest time key l) = latest time key l := by
  have hsorted : byTime time (latest time key l) = latest time key l :=
    (byTime_pairwise time _).insertionSort_eq
  have hkept : firstPerKey key (latest time key l) = latest time key l :=
    keepFirst_eq_append (nodup_map_latest time key l)
  rw [latest, hsorted, hkept, hsorted]

/-- Without ties the members of `latest` are all the newest elements of the
keys. -/
theorem mem_latest_of_no_ties {x : α}
    (hties : ∀ x y, IsNewestOfKey time key l x → IsNewestOfKey time key l y → time x = time y → x = y)
    (h : IsNewestOfKey time key l x) : x ∈ latest time key l := by
  obtain ⟨hx, hmax⟩ := isNewestOfKey_iff.mp h
  obtain ⟨y, hy, hkey⟩ : ∃ y ∈ latest time key l, key y = key x := exists_mem_latest hx
  have hnewest := isNewestOfKey_of_mem_latest hy
  obtain ⟨hmem, hle⟩ := isNewestOfKey_iff.mp hnewest
  rwa [hties x y h hnewest ((hle x hx hkey.symm).antisymm (hmax y hmem hkey))]

/-- What comes first among the newest elements of one time is the first member
of that time. -/
theorem head?_latest_time {x : α} (hnodup : (x :: l).Nodup)
    (h : IsNewestOfKey time key (x :: l) x) :
    ((latest time key (x :: l)).filter fun y => time y = time x).head? = some x := by
  have hmem : x ∈ latest time key (x :: l) := by
    refine mem_latest_iff.mpr ⟨[], l.filter fun y => key y = key x, by simp, by simp, ?_⟩
    exact fun y hy => h.2 y (List.mem_filter.mpr
      ⟨List.mem_cons_of_mem x (List.mem_filter.mp hy).1, (List.mem_filter.mp hy).2⟩)
  have hsub : ((latest time key (x :: l)).filter fun y => time y = time x).Sublist
      (x :: l.filter fun y => time y = time x) := by
    have hall : ((x :: l).filter fun y => time y = time x) = x :: l.filter fun y => time y = time x := by
      simp
    rw [← hall, ← filter_byTime_time (time x) (x :: l), latest, filter_byTime_time]
    exact (firstPerKey_sublist key _).filter _
  -- a part of the list that has `x` begins with it
  rcases List.sublist_cons_iff.mp hsub with hsub | ⟨t, ht, -⟩
  · have hx := hsub.subset (List.mem_filter.mpr ⟨hmem, decide_eq_true rfl⟩)
    exact absurd (List.mem_filter.mp hx).1 (List.nodup_cons.mp hnodup).1
  · rw [ht, List.head?_cons]

/-- **When the order of the input does not matter**: no two different elements,
each a newest one of its key, have one time. -/
theorem latest_perm_iff (hnodup : l.Nodup) :
    (∀ l', List.Perm l' l → latest time key l' = latest time key l) ↔
      ∀ x y, IsNewestOfKey time key l x → IsNewestOfKey time key l y → time x = time y → x = y := by
  constructor
  · intro h x y hx hy htime
    have hhead : ∀ z, IsNewestOfKey time key l z →
        ((latest time key l).filter fun w => time w = time z).head? = some z := by
      intro z hz
      -- the order in which `z` comes first
      obtain ⟨before, after, rfl⟩ := List.append_of_mem (isNewestOfKey_iff.mp hz).1
      have hperm : List.Perm (z :: (before ++ after)) (before ++ z :: after) := List.perm_middle.symm
      rw [← h _ hperm]
      exact head?_latest_time (hperm.nodup_iff.mpr hnodup) (hz.perm hperm.symm)
    have hsame := hhead x hx
    rw [htime, hhead y hy] at hsame
    exact (Option.some.inj hsame).symm
  · intro hties l' hperm
    have hties' : ∀ x y, IsNewestOfKey time key l' x → IsNewestOfKey time key l' y →
        time x = time y → x = y := fun x y hx hy => hties x y (hx.perm hperm) (hy.perm hperm)
    have hmem : ∀ x, x ∈ latest time key l' ↔ x ∈ latest time key l := fun x =>
      ⟨fun hx => mem_latest_of_no_ties hties ((isNewestOfKey_of_mem_latest hx).perm hperm),
        fun hx => mem_latest_of_no_ties hties' ((isNewestOfKey_of_mem_latest hx).perm hperm.symm)⟩
    have hsame : List.Perm (latest time key l') (latest time key l) :=
      (List.perm_ext_iff_of_nodup (byTime_perm.nodup_iff.mpr (nodup_firstPerKey key _))
        (byTime_perm.nodup_iff.mpr (nodup_firstPerKey key _))).mpr hmem
    refine hsame.eq_of_pairwise (fun x y hx hy hxy hyx => ?_) (byTime_pairwise time _)
      (byTime_pairwise time _)
    exact hties x y ((isNewestOfKey_of_mem_latest hx).perm hperm) (isNewestOfKey_of_mem_latest hy)
      (hyx.antisymm hxy)

/-! ### Asking a source for the newest `n` -/

/-- `a` is an answer to "the newest `n` of `l`": part of `l`, at most `n`
long, and what it leaves out was left out because `a` is full of elements
that are at least as new.  Which of several equally new elements are sent is
up to the source. -/
structure IsTop (time : α → τ) (n : ℕ) (l a : List α) : Prop where
  subperm : a.Subperm l
  length_le : a.length ≤ n
  full : ∀ x ∈ l, x ∉ a → a.length = n ∧ ∀ y ∈ a, time x ≤ time y

theorem IsTop.mem {x : α} (h : IsTop time n l a) (hx : x ∈ a) : x ∈ l :=
  h.subperm.subset hx

theorem IsTop.perm (h : IsTop time n l a) (hp : List.Perm l l') : IsTop time n l' a where
  subperm := h.subperm.trans hp.subperm
  length_le := h.length_le
  full := fun x hx => h.full x (hp.mem_iff.mpr hx)

/-- What is sent of different elements is different. -/
theorem IsTop.nodup (h : IsTop time n l a) (hl : l.Nodup) : a.Nodup := by
  obtain ⟨s, hperm, hsub⟩ := h.subperm
  exact hperm.nodup_iff.mp (hl.sublist hsub)

/-- Nothing is sent exactly if nothing is asked for or there is nothing. -/
theorem isTop_nil_iff : IsTop time n l [] ↔ n = 0 ∨ l = [] := by
  constructor
  · rintro ⟨-, -, hfull⟩
    rcases l with - | ⟨x, l⟩
    · exact Or.inr rfl
    · exact Or.inl (hfull x List.mem_cons_self List.not_mem_nil).1.symm
  · rintro (rfl | rfl)
    · exact ⟨List.nil_subperm, le_refl 0, fun _ _ _ => ⟨rfl, fun _ hy => absurd hy List.not_mem_nil⟩⟩
    · exact ⟨List.nil_subperm, Nat.zero_le n, fun _ hx => absurd hx List.not_mem_nil⟩

/-- Sorting and cutting is one way to answer. -/
theorem isTop_take (time : α → τ) (n : ℕ) (l : List α) :
    IsTop time n l ((byTime time l).take n) where
  subperm := (List.take_sublist n _).subperm.trans byTime_perm.subperm
  length_le := List.length_take_le n _
  full := by
    intro x hx hxa
    have hxs : x ∈ (byTime time l).take n ++ (byTime time l).drop n := by
      rw [List.take_append_drop]
      exact mem_byTime.mpr hx
    have hxd : x ∈ (byTime time l).drop n := (List.mem_append.mp hxs).resolve_left hxa
    have hlen : n < (byTime time l).length := by
      by_contra hle
      rw [List.drop_eq_nil_of_le (by omega)] at hxd
      cases hxd
    refine ⟨by rw [List.length_take]; omega, fun y hy => ?_⟩
    have hp := byTime_pairwise time l
    rw [← List.take_append_drop n (byTime time l)] at hp
    exact (List.pairwise_append.mp hp).2.2 y hy x hxd

/-- A source asked for at least one element sends a newest one, if it has
any. -/
theorem IsTop.exists_newest (h : IsTop time n l a) (hn : 0 < n) (hl : l ≠ []) :
    ∃ e ∈ a, IsNewest time l e := by
  obtain ⟨m, hm, hmax⟩ := exists_isNewest time hl
  by_cases hma : m ∈ a
  · exact ⟨m, hma, hm, hmax⟩
  · obtain ⟨hlen, hle⟩ := h.full m hm hma
    rcases a with - | ⟨y, t⟩
    · simp at hlen; omega
    · exact ⟨y, List.mem_cons_self, h.mem List.mem_cons_self,
        fun x hx => (hmax x hx).trans (hle y List.mem_cons_self)⟩

/-- Any newest element may be among those a source sends. -/
theorem IsNewest.exists_isTop {e : α} (h : IsNewest time l e) (hn : 0 < n) :
    ∃ a, IsTop time n l a ∧ e ∈ a := by
  obtain ⟨s, t, hst⟩ := List.append_of_mem h.1
  have hperm : List.Perm (e :: (s ++ t)) l := hst ▸ List.perm_middle.symm
  refine ⟨(byTime time (e :: (s ++ t))).take n, (isTop_take time n _).perm hperm, ?_⟩
  have hmax : ∀ x ∈ s ++ t, time x ≤ time e := fun x hx =>
    h.2 x (hperm.mem_iff.mp (List.mem_cons_of_mem _ hx))
  rw [byTime_cons_of_newest hmax]
  obtain ⟨m, rfl⟩ : ∃ m, n = m + 1 := ⟨n - 1, by omega⟩
  exact List.mem_cons_self

end NewestFirst
