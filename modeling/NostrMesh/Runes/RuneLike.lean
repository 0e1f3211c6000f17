/-
NostrMesh/Runes/RuneLike.lean

Restrictions and runes (`utils/runes/restriction.ts`, `rune-like.ts`): a
restriction is met when one of its alternatives is, a rune when all of its
restrictions are.

Both decoders are loops over the remainder that the level below leaves.  Each
is described twice: it reads the texts of its level (`decodeLoop_append`,
`fromLoop_of_text`), and what it reads is such a text or ends in a lone escape
character (`decodeLoop_eq_ok`, `fromLoop_eq_ok`).
-/
import NostrMesh.Runes.Alternative

namespace NostrMesh.Runes

open Delimited

/-! ### Restrictions -/

structure Restriction where
  alternatives : List Alternative
  alternatives_ne : alternatives ≠ []
  deriving DecidableEq

/-- The constructor. -/
def Restriction.new (alternatives : List Alternative) : Except String Restriction :=
  if h : alternatives = [] then .error "Restriction must have some alternatives"
  else .ok ⟨alternatives, h⟩

/-- The loop of `Restriction.test`: the first alternative that is met ends
it. -/
def testLoop (values : Values) : List Alternative → List Text → Except String (Option Text)
  | [], reasons => .ok (some (" AND ".toList.intercalate reasons))
  | alternative :: alternatives, reasons => do
      match ← alternative.test values with
      | none => .ok none
      | some reason => testLoop values alternatives (reasons ++ [reason])

def Restriction.test (r : Restriction) (values : Values) : Except String (Option Text) :=
  testLoop values r.alternatives []

def Restriction.encode (r : Restriction) : Text :=
  ['|'].intercalate (r.alternatives.map Alternative.encode)

/-- The loop of `Restriction.decode`: the alternatives from here on, and the
remainder. -/
def decodeLoop (encStr : Text) : Except String (List Alternative × Text) :=
  match encStr with
  | [] => .ok ([], [])
  | c :: cs =>
      if c = '&' then .ok ([], cs)
      else
        match _h : Alternative.decode (c :: cs) with
        | .error e => .error e
        | .ok (alternative, rest) =>
            (decodeLoop rest).map fun r => (alternative :: r.1, r.2)
termination_by encStr.length
decreasing_by exact length_lt_of_decode _h

/-- `Restriction.decode`. -/
def Restriction.decode (encodedStr : Text) : Except String (Restriction × Text) := do
  let (alternatives, remainder) ← decodeLoop encodedStr
  let restriction ← Restriction.new alternatives
  .ok (restriction, remainder)

/-! ### The texts of restrictions -/

def RestrictionText (r : Restriction) (raw : Text) : Prop :=
  Separated AlternativeText '|' r.alternatives raw

/-- Alternatives, the last of which ends in an escape character with nothing
after it. -/
def DanglingRestriction : Text → Prop := EndsIn AlternativeText DanglingAlternative '|'

/-- The character that ends a restriction. -/
def IsAmpersand (c : Char) : Prop := c = '&'

theorem stops_ampersand (cs : Text) : Stops IsAmpersand ('&' :: cs) := stops_cons rfl cs

theorem isSeparator_of_isAmpersand (c : Char) (h : IsAmpersand c) : IsSeparator c ∧ c ≠ '|' := by
  obtain rfl := h
  exact ⟨.inr rfl, by decide⟩

theorem Restriction.ext_alternatives {r r' : Restriction} (h : r.alternatives = r'.alternatives) :
    r = r' := by
  cases r
  cases h
  rfl

theorem selfDelimiting_restrictionText : SelfDelimiting RestrictionText IsAmpersand := by
  have h := selfDelimiting_separated selfDelimiting_alternativeText (.inl rfl)
    isSeparator_of_isAmpersand
  exact
    { starts := fun {r _} hr => h.starts ⟨r.alternatives_ne, hr⟩
      unique := fun {r r' _ _ _ _} hr hr' htail htail' heq => by
        obtain ⟨halt, hraw⟩ :=
          h.unique ⟨r.alternatives_ne, hr⟩ ⟨r'.alternatives_ne, hr'⟩ htail htail' heq
        exact ⟨Restriction.ext_alternatives halt, hraw⟩ }

theorem danglingAlternative_not_stops {s : Text} (h : DanglingAlternative s) :
    ¬ Stops IsSeparator s := by
  obtain ⟨a, raw, ha, rfl⟩ := h
  exact not_stops_append (selfDelimiting_alternativeText.starts ha)

/-- A text of a restriction is none that ends in a lone escape character. -/
theorem not_danglingRestriction {as : List Alternative} {raw tail : Text}
    (h : Separated AlternativeText '|' as raw) (htail : Stops IsAmpersand tail) :
    ¬ DanglingRestriction (raw ++ tail) :=
  h.not_endsIn selfDelimiting_alternativeText (.inl rfl) isSeparator_of_isAmpersand
    danglingAlternative_not_stops not_danglingAlternative htail

/-! ### The loop of `Restriction.decode` -/

theorem decodeLoop_of_decode {s rest : Text} {a : Alternative} (hs : ¬ Stops IsSeparator s)
    (h : Alternative.decode s = .ok (a, rest)) :
    decodeLoop s = (decodeLoop rest).map fun r => (a :: r.1, r.2) := by
  rcases s with - | ⟨c, cs⟩
  · exact absurd trivial hs
  · rw [decodeLoop, if_neg fun hc => hs (.inr hc)]
    split
    · next heq => rw [h] at heq; cases heq
    · next heq => rw [h] at heq; cases heq; rfl

theorem decodeLoop_of_stops {tail : Text} (h : Stops IsAmpersand tail) :
    decodeLoop tail = .ok ([], tail.tail) := by
  rcases tail with - | ⟨c, cs⟩
  · rw [decodeLoop, List.tail_nil]
  · rw [decodeLoop, if_pos (show c = '&' from h), List.tail_cons]

theorem afterBar_of_stops {tail : Text} (h : Stops IsAmpersand tail) : afterBar tail = tail := by
  rcases tail with - | ⟨c, cs⟩
  · rfl
  · exact afterBar_cons (isSeparator_of_isAmpersand c h).2 cs

/-- The text of a restriction is read as its alternatives. -/
theorem decodeLoop_append {as : List Alternative} {raw tail : Text}
    (h : Separated AlternativeText '|' as raw) (htail : Stops IsAmpersand tail) :
    decodeLoop (raw ++ tail) = .ok (as, tail.tail) := by
  have hsep : Stops IsSeparator tail := htail.mono fun c hc => (isSeparator_of_isAmpersand c hc).1
  induction h with
  | nil => exact decodeLoop_of_stops htail
  | last ha =>
      rw [decodeLoop_of_decode (not_stops_append (selfDelimiting_alternativeText.starts ha))
        (decode_append ha hsep), afterBar_of_stops htail, decodeLoop_of_stops htail]
      rfl
  | @cons a as raw cs ha _ ih =>
      rw [List.append_assoc, List.cons_append,
        decodeLoop_of_decode (not_stops_append (selfDelimiting_alternativeText.starts ha))
          (decode_append ha (stops_cons (.inl rfl) _)), afterBar_bar, ih]
      rfl

/-- A lone escape character does not stop the loop. -/
theorem decodeLoop_dangling {s : Text} (h : DanglingRestriction s) :
    ∃ as, as ≠ [] ∧ decodeLoop s = .ok (as, []) := by
  induction h with
  | @here cs hd =>
      obtain ⟨a, raw, ha, rfl⟩ := hd
      refine ⟨[{ a with value := a.value ++ "undefined".toList }], List.cons_ne_nil _ _, ?_⟩
      rw [decodeLoop_of_decode (danglingAlternative_not_stops ⟨a, raw, ha, rfl⟩)
        (decode_dangling ha), decodeLoop]
      rfl
  | @later a raw cs ha _ ih =>
      obtain ⟨as, -, hloop⟩ := ih
      refine ⟨a :: as, List.cons_ne_nil _ _, ?_⟩
      rw [decodeLoop_of_decode (not_stops_append (selfDelimiting_alternativeText.starts ha))
        (decode_append ha (stops_cons (.inl rfl) _)), afterBar_bar, hloop]
      rfl

/-- What the loop reads is a text of its alternatives, or it ends in a lone
escape character. -/
theorem decodeLoop_eq_ok {s rest : Text} {as : List Alternative}
    (h : decodeLoop s = .ok (as, rest)) :
    (∃ raw tail, Separated AlternativeText '|' as raw ∧ Stops IsAmpersand tail ∧ s = raw ++ tail ∧
      rest = tail.tail) ∨ (DanglingRestriction s ∧ rest = []) := by
  fun_induction decodeLoop s generalizing as rest with
  | case1 =>
      cases h
      exact .inl ⟨[], [], .nil, trivial, rfl, rfl⟩
  | case2 cs =>
      cases h
      exact .inl ⟨[], _, .nil, stops_ampersand _, rfl, rfl⟩
  | case3 c cs hc e hdecode => cases h
  | case4 c cs hc a rest' hdecode ih =>
      rcases hloop : decodeLoop rest' with e | ⟨as', rest''⟩
      · rw [hloop] at h
        cases h
      rw [hloop] at h
      obtain ⟨rfl, rfl⟩ := Prod.mk.inj (Except.ok.inj h)
      rcases decode_eq_ok hdecode with ⟨raw, tail, ha, htail, hs, rfl⟩ | ⟨hdangling, rfl⟩
      · rw [hs]
        by_cases hamp : Stops IsAmpersand tail
        · -- the restriction ends behind this alternative
          rw [afterBar_of_stops hamp, decodeLoop_of_stops hamp] at hloop
          cases hloop
          exact .inl ⟨raw, tail, .last ha, hamp, rfl, rfl⟩
        · obtain ⟨cs', rfl⟩ : ∃ cs', tail = '|' :: cs' := by
            rcases tail with - | ⟨d, cs'⟩
            · exact absurd trivial hamp
            · exact htail.elim (fun hd => ⟨cs', hd ▸ rfl⟩) fun hd => absurd hd hamp
          rcases ih hloop with ⟨raw', tail', has, htail', hs', rfl⟩ | ⟨hdangling, rfl⟩
          · rw [afterBar_bar] at hs'
            refine .inl ⟨_, tail', .cons ha has, htail', ?_, rfl⟩
            rw [hs', List.append_assoc, List.cons_append]
          · exact .inr ⟨.later ha hdangling, rfl⟩
      · rw [decodeLoop] at hloop
        cases hloop
        exact .inr ⟨.here hdangling, rfl⟩

/-! ### `Restriction.decode` -/

theorem restriction_decode_eq_ok_iff {s rest : Text} {r : Restriction} :
    Restriction.decode s = .ok (r, rest) ↔ decodeLoop s = .ok (r.alternatives, rest) := by
  rcases hloop : decodeLoop s with e | ⟨as, rest'⟩
  · constructor
    · intro h
      rw [Restriction.decode, hloop] at h
      cases h
    · rintro ⟨⟩
  · have hdecode : Restriction.decode s = (Restriction.new as).map fun r => (r, rest') := by
      rw [Restriction.decode, hloop]
      show (do let r ← Restriction.new as; .ok (r, rest')) = _
      rcases Restriction.new as with e | r <;> rfl
    rw [hdecode]
    by_cases has : as = []
    · rw [Restriction.new, dif_pos has]
      constructor
      · rintro ⟨⟩
      · intro h
        exact absurd ((Prod.mk.inj (Except.ok.inj h)).1.symm.trans has) r.alternatives_ne
    · rw [Restriction.new, dif_neg has]
      constructor
      · intro h
        obtain ⟨rfl, rfl⟩ := Prod.mk.inj (Except.ok.inj h)
        rfl
      · intro h
        obtain ⟨rfl, rfl⟩ := Prod.mk.inj (Except.ok.inj h)
        rfl

theorem restriction_decode_append {r : Restriction} {raw tail : Text} (h : RestrictionText r raw)
    (htail : Stops IsAmpersand tail) :
    Restriction.decode (raw ++ tail) = .ok (r, tail.tail) :=
  restriction_decode_eq_ok_iff.mpr (decodeLoop_append h htail)

theorem restriction_decode_dangling {s : Text} (h : DanglingRestriction s) :
    ∃ r, Restriction.decode s = .ok (r, []) := by
  obtain ⟨as, hne, hloop⟩ := decodeLoop_dangling h
  exact ⟨⟨as, hne⟩, restriction_decode_eq_ok_iff.mpr hloop⟩

theorem restriction_decode_eq_ok {s rest : Text} {r : Restriction}
    (h : Restriction.decode s = .ok (r, rest)) :
    (∃ raw tail, RestrictionText r raw ∧ Stops IsAmpersand tail ∧ s = raw ++ tail ∧
      rest = tail.tail) ∨ (DanglingRestriction s ∧ rest = []) :=
  decodeLoop_eq_ok (restriction_decode_eq_ok_iff.mp h)

theorem danglingRestriction_not_stops {s : Text} (h : DanglingRestriction s) :
    ¬ Stops IsAmpersand s := fun hs =>
  h.not_stops selfDelimiting_alternativeText danglingAlternative_not_stops
    (hs.mono fun c hc => (isSeparator_of_isAmpersand c hc).1)

theorem length_lt_of_restriction_decode {s rest : Text} {r : Restriction}
    (h : Restriction.decode s = .ok (r, rest)) : rest.length < s.length := by
  rcases restriction_decode_eq_ok h with ⟨raw, tail, hr, -, rfl, rfl⟩ | ⟨hdangling, rfl⟩
  · obtain ⟨c, cs, rfl, -⟩ := selfDelimiting_restrictionText.starts hr
    simp only [List.length_append, List.length_cons, List.length_tail]
    omega
  · exact List.length_pos_of_ne_nil fun hs =>
      danglingRestriction_not_stops hdangling (hs ▸ trivial)

/-! ### Runes -/

structure RuneLike where
  restrictions : List Restriction
  deriving DecidableEq

/-- The loop of `RuneLike.test`: the first restriction that is not met ends
it. -/
def runeTestLoop (values : Values) : List Restriction → Except String (Bool × Text)
  | [] => .ok (true, [])
  | restriction :: restrictions => do
      match ← restriction.test values with
      | some reasons => .ok (false, reasons)
      | none => runeTestLoop values restrictions

def RuneLike.test (r : RuneLike) (values : Values) : Except String (Bool × Text) :=
  runeTestLoop values r.restrictions

def RuneLike.encode (r : RuneLike) : Text :=
  ['&'].intercalate (r.restrictions.map Restriction.encode)

/-- The loop of `RuneLike.from`. -/
def fromLoop (encStr : Text) : Except String (List Restriction) :=
  if encStr = [] then .ok []
  else
    match _h : Restriction.decode encStr with
    | .error e => .error e
    | .ok (restriction, rest) => (fromLoop rest).map (restriction :: ·)
termination_by encStr.length
decreasing_by exact length_lt_of_restriction_decode _h

/-- `RuneLike.from`. -/
def RuneLike.from (encodedStr : Text) : Except String RuneLike :=
  (fromLoop (withoutSpaces encodedStr)).map RuneLike.mk

/-! ### The texts of runes -/

def RuneText (r : RuneLike) (raw : Text) : Prop := Separated RestrictionText '&' r.restrictions raw

/-- Restrictions, the last of which ends in an escape character with nothing
after it. -/
def DanglingRune : Text → Prop := EndsIn RestrictionText DanglingRestriction '&'

/-- A text of a rune is none that ends in a lone escape character. -/
theorem not_danglingRune {r : RuneLike} {raw : Text} (h : RuneText r raw) : ¬ DanglingRune raw := by
  have hsub : ∀ c : Char, False → IsAmpersand c ∧ c ≠ '&' := fun _ hc => hc.elim
  have h' := Separated.not_endsIn selfDelimiting_restrictionText rfl hsub
    danglingRestriction_not_stops (fun hr htail => not_danglingRestriction hr htail) h
    (stops_nil fun _ => False)
  rwa [List.append_nil] at h'

theorem fromLoop_of_decode {s rest : Text} {r : Restriction} (hs : s ≠ [])
    (h : Restriction.decode s = .ok (r, rest)) : fromLoop s = (fromLoop rest).map (r :: ·) := by
  rw [fromLoop, if_neg hs]
  split
  · next heq => rw [h] at heq; cases heq
  · next heq => rw [h] at heq; cases heq; rfl

theorem fromLoop_nil : fromLoop [] = .ok [] := by
  rw [fromLoop, if_pos rfl]

theorem ne_nil_of_restrictionText {r : Restriction} {raw : Text} (h : RestrictionText r raw)
    (tail : Text) : raw ++ tail ≠ [] := by
  obtain ⟨c, cs, rfl, -⟩ := selfDelimiting_restrictionText.starts h
  exact List.cons_ne_nil _ _

/-- The text of a rune is read as its restrictions. -/
theorem fromLoop_of_text {rs : List Restriction} {raw : Text}
    (h : Separated RestrictionText '&' rs raw) : fromLoop raw = .ok rs := by
  induction h with
  | nil => exact fromLoop_nil
  | @last r raw hr =>
      have hdecode := restriction_decode_append hr (stops_nil IsAmpersand)
      rw [List.append_nil] at hdecode
      have hne := ne_nil_of_restrictionText hr []
      rw [List.append_nil] at hne
      rw [fromLoop_of_decode hne hdecode, List.tail_nil, fromLoop_nil]
      rfl
  | @cons r rs raw cs hr _ ih =>
      rw [fromLoop_of_decode (ne_nil_of_restrictionText hr _)
        (restriction_decode_append hr (stops_ampersand _)), List.tail_cons, ih]
      rfl

theorem fromLoop_dangling {s : Text} (h : DanglingRune s) : ∃ rs, fromLoop s = .ok rs := by
  induction h with
  | @here cs hd =>
      obtain ⟨r, hdecode⟩ := restriction_decode_dangling hd
      have hne : cs ≠ [] := fun hs => danglingRestriction_not_stops hd (hs ▸ trivial)
      refine ⟨[r], ?_⟩
      rw [fromLoop_of_decode hne hdecode, fromLoop_nil]
      rfl
  | @later r raw cs hr _ ih =>
      obtain ⟨rs, hloop⟩ := ih
      refine ⟨r :: rs, ?_⟩
      rw [fromLoop_of_decode (ne_nil_of_restrictionText hr _)
        (restriction_decode_append hr (stops_ampersand _)), List.tail_cons, hloop]
      rfl

/-- What the loop reads is a text of its restrictions, or it ends in a lone
escape character. -/
theorem fromLoop_eq_ok {s : Text} {rs : List Restriction} (h : fromLoop s = .ok rs) :
    Separated RestrictionText '&' rs s ∨ DanglingRune s := by
  fun_induction fromLoop s generalizing rs with
  | case1 =>
      cases h
      exact .inl .nil
  | case2 s hs e hdecode => cases h
  | case3 s hs r rest hdecode ih =>
      rcases hloop : fromLoop rest with e | rs'
      · rw [hloop] at h
        cases h
      rw [hloop] at h
      obtain rfl := Except.ok.inj h
      rcases restriction_decode_eq_ok hdecode with ⟨raw, tail, hr, htail, rfl, rfl⟩ | ⟨hd, -⟩
      · rcases tail with - | ⟨c, cs⟩
        · -- the last restriction: the loop ends with it
          rw [List.tail_nil, fromLoop_nil] at hloop
          cases hloop
          rw [List.append_nil]
          exact .inl (.last hr)
        · obtain rfl := htail
          rcases ih hloop with hrs | hd
          · exact .inl (.cons hr hrs)
          · exact .inr (.later hr hd)
      · exact .inr (.here hd)

end NostrMesh.Runes
