/-
NostrMesh/Lib/Delimited.lean

Texts with separators and an escape character.

`Escaped esc stop raw v` says that `raw` is a writing of `v` in which every
stop character stands behind the escape character; `takeEscaped` reads such a
writing up to the first stop character that does not, and `escape` makes the
shortest one.

`Separated Item sep bs raw` says that `raw` is made of the texts of the items
`bs` with separators between them.  Where the items show their own end, so do
the lists of items (`Separated.unique`), one level up.
-/
import Mathlib.Data.List.Basic

namespace Delimited

variable {α β : Type*} {esc sep : α} {stop stop' : α → Prop}

/-! ### Escaped texts -/

/-- `raw` is a writing of `v`. -/
inductive Escaped (esc : α) (stop : α → Prop) : List α → List α → Prop
  | nil : Escaped esc stop [] []
  | plain {c : α} {raw v : List α} :
      c ≠ esc → ¬ stop c → Escaped esc stop raw v → Escaped esc stop (c :: raw) (c :: v)
  | pair {c : α} {raw v : List α} :
      Escaped esc stop raw v → Escaped esc stop (esc :: c :: raw) (c :: v)

/-- The text is over, or goes on with a stop character. -/
def Stops (stop : α → Prop) : List α → Prop
  | [] => True
  | c :: _ => stop c

theorem Stops.mono (h : ∀ c, stop c → stop' c) {cs : List α} (hcs : Stops stop cs) :
    Stops stop' cs := by
  rcases cs with - | ⟨c, cs⟩
  · trivial
  · exact h c hcs

theorem stops_nil (stop : α → Prop) : Stops stop [] := trivial

theorem stops_cons {c : α} (h : stop c) (cs : List α) : Stops stop (c :: cs) := h

theorem not_stops_append {raw tail : List α} (hstarts : ∃ c cs, raw = c :: cs ∧ ¬ stop c) :
    ¬ Stops stop (raw ++ tail) := by
  obtain ⟨c, cs, rfl, hc⟩ := hstarts
  exact hc

section

variable [DecidableEq α] [DecidablePred stop]

/-- The shortest writing. -/
def escape (esc : α) (stop : α → Prop) [DecidablePred stop] (v : List α) : List α :=
  v.flatMap fun c => if c = esc ∨ stop c then [esc, c] else [c]

theorem escape_cons (esc : α) (stop : α → Prop) [DecidablePred stop] (c : α) (v : List α) :
    escape esc stop (c :: v) =
      (if c = esc ∨ stop c then [esc, c] else [c]) ++ escape esc stop v := List.flatMap_cons

theorem escaped_escape (esc : α) (stop : α → Prop) [DecidablePred stop] (v : List α) :
    Escaped esc stop (escape esc stop v) v := by
  induction v with
  | nil => exact .nil
  | cons c v ih =>
      rw [escape_cons]
      split_ifs with hc
      · exact .pair ih
      · rw [not_or] at hc
        exact .plain hc.1 hc.2 ih

/-- What is left out of a text can be left out of its writing. -/
theorem filter_escape {p : α → Bool} (hesc : p esc = true) (hstop : ∀ c, stop c → p c = true)
    (v : List α) : (escape esc stop v).filter p = escape esc stop (v.filter p) := by
  induction v with
  | nil => rfl
  | cons c v ih =>
      rw [escape_cons, List.filter_append, ih]
      by_cases hc : c = esc ∨ stop c
      · have hp : p c = true := hc.elim (fun h => h ▸ hesc) (hstop c)
        rw [if_pos hc, List.filter_cons_of_pos hp, escape_cons, if_pos hc,
          List.filter_cons_of_pos hesc, List.filter_cons_of_pos hp, List.filter_nil]
      · rw [if_neg hc]
        by_cases hp : p c = true
        · rw [List.filter_cons_of_pos (l := v) hp, escape_cons, if_neg hc,
            List.filter_cons_of_pos hp, List.filter_nil]
        · rw [List.filter_cons_of_neg (l := v) hp, List.filter_cons_of_neg hp, List.filter_nil,
            List.nil_append]

/-- The text up to the first stop character, and the rest of it.  An escape
character without another one behind it is left in the rest. -/
def takeEscaped (esc : α) (stop : α → Prop) [DecidablePred stop] : List α → List α × List α
  | [] => ([], [])
  | [c] => if c = esc ∨ stop c then ([], [c]) else ([c], [])
  | c :: d :: cs =>
      if c = esc then
        let r := takeEscaped esc stop cs
        (d :: r.1, r.2)
      else if stop c then ([], c :: d :: cs)
      else
        let r := takeEscaped esc stop (d :: cs)
        (c :: r.1, r.2)

/-- The reading stops at a stop character, or at an escape character that is
the last one of the text. -/
theorem takeEscaped_spec (esc : α) (stop : α → Prop) [DecidablePred stop] (cs : List α) :
    ∃ raw, cs = raw ++ (takeEscaped esc stop cs).2 ∧
      Escaped esc stop raw (takeEscaped esc stop cs).1 ∧
      (Stops stop (takeEscaped esc stop cs).2 ∨ (takeEscaped esc stop cs).2 = [esc]) := by
  fun_induction takeEscaped esc stop cs with
  | case1 => exact ⟨[], rfl, .nil, .inl trivial⟩
  | case2 c hc =>
      rcases hc with rfl | hc
      · exact ⟨[], rfl, .nil, .inr rfl⟩
      · exact ⟨[], rfl, .nil, .inl hc⟩
  | case3 c hc =>
      rw [not_or] at hc
      exact ⟨[c], rfl, .plain hc.1 hc.2 .nil, .inl trivial⟩
  | case4 d cs r ih =>
      obtain ⟨raw, hcs, hraw, hstop⟩ := ih
      exact ⟨esc :: d :: raw, by rw [List.cons_append, List.cons_append, ← hcs], .pair hraw, hstop⟩
  | case5 c d cs hc hstop => exact ⟨[], rfl, .nil, .inl hstop⟩
  | case6 c d cs hc hc' r ih =>
      obtain ⟨raw, hcs, hraw, hstop⟩ := ih
      exact ⟨c :: raw, by rw [List.cons_append, ← hcs], .plain hc hc' hraw, hstop⟩

theorem takeEscaped_of_stops (hesc : ¬ stop esc) {rest : List α}
    (h : Stops stop rest ∨ rest = [esc]) : takeEscaped esc stop rest = ([], rest) := by
  rcases h with h | rfl
  · rcases rest with - | ⟨c, - | ⟨d, rest⟩⟩
    · rfl
    · rw [takeEscaped, if_pos (.inr h)]
    · have hc : c ≠ esc := fun hc => hesc (hc ▸ h)
      rw [takeEscaped, if_neg hc, if_pos (show stop c from h)]
  · rw [takeEscaped, if_pos (.inl rfl)]

/-- There is one way to read a text. -/
theorem takeEscaped_append (hesc : ¬ stop esc) {raw v : List α} (hraw : Escaped esc stop raw v)
    {rest : List α} (hrest : Stops stop rest ∨ rest = [esc]) :
    takeEscaped esc stop (raw ++ rest) = (v, rest) := by
  induction hraw with
  | nil => exact takeEscaped_of_stops hesc hrest
  | @plain c raw v hc hstop _ ih =>
      rw [List.cons_append]
      generalize raw ++ rest = cs at ih
      rcases cs with - | ⟨d, cs⟩
      · have : ([], []) = (v, rest) := ih
        obtain ⟨rfl, rfl⟩ := Prod.mk.inj this
        rw [takeEscaped, if_neg (not_or.mpr ⟨hc, hstop⟩)]
      · rw [takeEscaped, if_neg hc, if_neg hstop, ih]
  | pair _ ih => rw [List.cons_append, List.cons_append, takeEscaped, if_pos rfl, ih]

end

/-! ### Lists of items -/

/-- The texts of the items, with separators between them and perhaps one
behind the last. -/
inductive Separated (Item : β → List α → Prop) (sep : α) : List β → List α → Prop
  | nil : Separated Item sep [] []
  | last {b : β} {raw : List α} : Item b raw → Separated Item sep [b] raw
  | cons {b : β} {bs : List β} {raw cs : List α} :
      Item b raw → Separated Item sep bs cs → Separated Item sep (b :: bs) (raw ++ sep :: cs)

/-- A list of items that goes on with a text of another kind. -/
inductive EndsIn (Item : β → List α → Prop) (Other : List α → Prop) (sep : α) : List α → Prop
  | here {cs : List α} : Other cs → EndsIn Item Other sep cs
  | later {b : β} {raw cs : List α} :
      Item b raw → EndsIn Item Other sep cs → EndsIn Item Other sep (raw ++ sep :: cs)

/-- The texts of the items show where they end: no item starts with a stop
character, and what stands in front of one is an item in one way only. -/
structure SelfDelimiting (Item : β → List α → Prop) (stop : α → Prop) : Prop where
  starts : ∀ {b raw}, Item b raw → ∃ c cs, raw = c :: cs ∧ ¬ stop c
  unique : ∀ {b b' raw raw' tail tail'}, Item b raw → Item b' raw' → Stops stop tail →
    Stops stop tail' → raw ++ tail = raw' ++ tail' → b = b' ∧ raw = raw'

variable {Item : β → List α → Prop} {Other : List α → Prop}

theorem separated_intercalate {bs : List β} {text : β → List α}
    (h : ∀ b ∈ bs, Item b (text b)) :
    Separated Item sep bs ([sep].intercalate (bs.map text)) := by
  induction bs with
  | nil => exact .nil
  | cons b bs ih =>
      have hb := h b List.mem_cons_self
      have hbs := ih fun c hc => h c (List.mem_cons_of_mem _ hc)
      rcases bs with - | ⟨c, bs⟩
      · simpa [List.intercalate] using Separated.last hb
      · simpa [List.intercalate] using Separated.cons hb hbs

theorem filter_intercalate {p : α → Bool} (hsep : p sep = true) (css : List (List α)) :
    ([sep].intercalate css).filter p = [sep].intercalate (css.map (List.filter p)) := by
  induction css with
  | nil => rfl
  | cons cs css ih =>
      rcases css with - | ⟨ds, css⟩
      · simp [List.intercalate]
      · simp only [List.intercalate, List.map_cons, List.intersperse_cons_cons, List.flatten_cons,
          List.filter_append] at ih ⊢
        rw [ih, List.filter_cons_of_pos hsep, List.filter_nil]

theorem Separated.starts (hitem : SelfDelimiting Item stop) {bs : List β} {raw : List α}
    (h : Separated Item sep bs raw) (hne : bs ≠ []) : ∃ c cs, raw = c :: cs ∧ ¬ stop c := by
  cases h with
  | nil => exact absurd rfl hne
  | last hb => exact hitem.starts hb
  | cons hb _ =>
      obtain ⟨c, cs, rfl, hc⟩ := hitem.starts hb
      exact ⟨c, _, List.cons_append, hc⟩

section

variable (hitem : SelfDelimiting Item stop) (hsep : stop sep)
  (hsub : ∀ c, stop' c → stop c ∧ c ≠ sep)

include hitem hsep hsub

/-- Where the items show their end, so do the lists of items: in front of
what is not a separator, they are read in one way only. -/
theorem Separated.unique {bs bs' : List β} {raw raw' tail tail' : List α}
    (h : Separated Item sep bs raw) (h' : Separated Item sep bs' raw') (htail : Stops stop' tail)
    (htail' : Stops stop' tail') (heq : raw ++ tail = raw' ++ tail') : bs = bs' ∧ raw = raw' := by
  have hmono : ∀ {cs : List α}, Stops stop' cs → Stops stop cs :=
    fun hcs => hcs.mono fun c hc => (hsub c hc).1
  have hnotsep : ∀ {cs ds : List α}, Stops stop' cs → cs ≠ sep :: ds := by
    rintro _ ds hcs rfl
    exact (hsub sep hcs).2 rfl
  -- both lists are taken apart together: where one ends before the other, its
  -- tail would start with an item or with the separator
  induction h generalizing bs' raw' with
  | nil =>
      by_cases hbs' : bs' = []
      · subst hbs'
        cases h'
        exact ⟨rfl, rfl⟩
      · rw [List.nil_append] at heq
        exact absurd (hmono htail) (heq ▸ not_stops_append (h'.starts hitem hbs'))
  | @last b raw hb =>
      cases h' with
      | nil =>
          have htail'' : Stops stop (raw ++ tail) := heq.symm ▸ hmono htail'
          exact absurd htail'' (not_stops_append (hitem.starts hb))
      | last hb' =>
          obtain ⟨rfl, rfl⟩ := hitem.unique hb hb' (hmono htail) (hmono htail') heq
          exact ⟨rfl, rfl⟩
      | cons hb' _ =>
          rw [List.append_assoc] at heq
          obtain ⟨rfl, rfl⟩ := hitem.unique hb hb' (hmono htail) (stops_cons hsep _) heq
          exact absurd (List.append_cancel_left heq) (hnotsep htail)
  | @cons b bs raw cs hb _ ih =>
      rw [List.append_assoc] at heq
      cases h' with
      | nil =>
          have htail'' : Stops stop (raw ++ (sep :: cs ++ tail)) := heq.symm ▸ hmono htail'
          exact absurd htail'' (not_stops_append (hitem.starts hb))
      | last hb' =>
          obtain ⟨rfl, rfl⟩ := hitem.unique hb hb' (stops_cons hsep _) (hmono htail') heq
          exact absurd (List.append_cancel_left heq).symm (hnotsep htail')
      | cons hb' hbs' =>
          rw [List.append_assoc] at heq
          obtain ⟨rfl, rfl⟩ := hitem.unique hb hb' (stops_cons hsep _) (stops_cons hsep _) heq
          obtain ⟨-, hrest⟩ := List.cons.inj (List.append_cancel_left heq)
          obtain ⟨rfl, rfl⟩ := ih hbs' hrest
          exact ⟨rfl, rfl⟩

/-- The next level: lists of items, as the items of the texts around them. -/
theorem selfDelimiting_separated :
    SelfDelimiting (fun bs raw => bs ≠ [] ∧ Separated Item sep bs raw) stop' where
  starts := by
    rintro bs raw ⟨hne, h⟩
    obtain ⟨c, cs, hraw, hc⟩ := h.starts hitem hne
    exact ⟨c, cs, hraw, fun hstop => hc (hsub c hstop).1⟩
  unique h h' htail htail' heq := h.2.unique hitem hsep hsub h'.2 htail htail' heq

/-- A text that is read to its end goes on with nothing else. -/
theorem Separated.not_endsIn (hstarts : ∀ {cs}, Other cs → ¬ Stops stop cs)
    (hother : ∀ {b raw tail}, Item b raw → Stops stop tail → ¬ Other (raw ++ tail))
    {bs : List β} {raw tail : List α} (h : Separated Item sep bs raw) (htail : Stops stop' tail) :
    ¬ EndsIn Item Other sep (raw ++ tail) := by
  have hmono : Stops stop tail := htail.mono fun c hc => (hsub c hc).1
  intro hends
  -- `EndsIn` reads the same items, so its end would be in front of the tail
  induction h with
  | nil =>
      cases hends with
      | here ho => exact hstarts ho hmono
      | later hb _ => exact not_stops_append (hitem.starts hb) hmono
  | @last b raw hb =>
      generalize hcs : raw ++ tail = cs at hends
      cases hends with
      | here ho => exact hother hb hmono (hcs ▸ ho)
      | later hb' _ =>
          obtain ⟨rfl, rfl⟩ := hitem.unique hb hb' hmono (stops_cons hsep _) hcs
          obtain rfl := List.append_cancel_left hcs
          exact (hsub sep htail).2 rfl
  | @cons b bs raw cs hb _ ih =>
      rw [List.append_assoc] at hends
      generalize hds : raw ++ (sep :: cs ++ tail) = ds at hends
      cases hends with
      | here ho => exact hother hb (stops_cons hsep _) (hds ▸ ho)
      | later hb' hends' =>
          obtain ⟨rfl, rfl⟩ := hitem.unique hb hb' (stops_cons hsep _) (stops_cons hsep _) hds
          obtain ⟨-, rfl⟩ := List.cons.inj (List.append_cancel_left hds)
          exact ih hends'

end

theorem EndsIn.not_stops (hitem : SelfDelimiting Item stop)
    (hstarts : ∀ {cs}, Other cs → ¬ Stops stop cs) {cs : List α}
    (h : EndsIn Item Other sep cs) : ¬ Stops stop cs := by
  cases h with
  | here ho => exact hstarts ho
  | later hb _ => exact not_stops_append (hitem.starts hb)

/-! ### Fields without the separator -/

/-- A field ends where the first separator stands. -/
theorem append_cons_inj {xs ys rest rest' : List α} (hx : sep ∉ xs) (hy : sep ∉ ys) :
    xs ++ sep :: rest = ys ++ sep :: rest' ↔ xs = ys ∧ rest = rest' := by
  induction xs generalizing ys with
  | nil =>
      rcases ys with - | ⟨y, ys⟩
      · simp
      · have hne : sep ≠ y := fun heq => hy (heq ▸ List.mem_cons_self)
        simp [hne]
  | cons x xs ih =>
      rcases ys with - | ⟨y, ys⟩
      · have hne : x ≠ sep := fun heq => hx (heq ▸ List.mem_cons_self)
        simp [hne]
      · have hrest := ih (fun h => hx (List.mem_cons_of_mem x h))
          (fun h => hy (List.mem_cons_of_mem y h))
        rw [List.cons_append, List.cons_append, List.cons.injEq, List.cons.injEq, hrest, and_assoc]

end Delimited
