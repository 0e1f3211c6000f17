/-
NostrMesh/Runes/Codec.lean

What the encoders and the parsers of runes have to do with each other.

`RuneLike.from` takes the white space out of a text before it parses it, so a
rune comes back without the white space of its fields and values
(`from_encode`).  The parsers read what stands in the text, unless an escape
character is the last one of it (`neverInvents_iff`); and `Alternative.from`
cuts a value at its first punctuation (`from_eq_decode_iff`).
-/
import NostrMesh.Runes.RuneLike

namespace NostrMesh.Runes

open Delimited

/-! ### The round trip -/

theorem withoutSpaces_field (a : Alternative) :
    IsField (withoutSpaces a.field) :=
  fun c hc => a.field_valid c (List.mem_filter.mp hc).1

def Alternative.withoutSpaces (a : Alternative) : Alternative where
  field := Runes.withoutSpaces a.field
  cond := a.cond
  value := Runes.withoutSpaces a.value
  field_valid := withoutSpaces_field a

def Restriction.withoutSpaces (r : Restriction) : Restriction where
  alternatives := r.alternatives.map Alternative.withoutSpaces
  alternatives_ne := fun h => r.alternatives_ne (List.map_eq_nil_iff.mp h)

def RuneLike.withoutSpaces (r : RuneLike) : RuneLike where
  restrictions := r.restrictions.map Restriction.withoutSpaces

/-- No field and no value of the rune has white space. -/
def RuneLike.Spaceless (r : RuneLike) : Prop :=
  ∀ restriction ∈ r.restrictions, ∀ a ∈ restriction.alternatives,
    (∀ c ∈ a.field, Js.isSpace c = false) ∧ ∀ c ∈ a.value, Js.isSpace c = false

/-- The rune that is read has the restrictions and alternatives of `r`, and
says the same of every record of values. -/
def RoundTrips (r : RuneLike) : Prop :=
  ∃ r', RuneLike.from r.encode = .ok r' ∧ r' = r ∧ ∀ values, r'.test values = r.test values

theorem withoutSpaces_eq_self_iff {s : Text} :
    withoutSpaces s = s ↔ ∀ c ∈ s, Js.isSpace c = false := by
  rw [withoutSpaces, List.filter_eq_self]
  exact forall₂_congr fun c _ => by rw [Bool.not_eq_true']

theorem map_eq_self_iff {α : Type*} {f : α → α} {l : List α} :
    l.map f = l ↔ ∀ x ∈ l, f x = x := by
  have h : l.map f = l.map id ↔ ∀ x ∈ l, f x = id x := List.map_inj_left
  rwa [List.map_id] at h

theorem Alternative.withoutSpaces_encode (a : Alternative) :
    Runes.withoutSpaces a.encode = a.withoutSpaces.encode := by
  have hkeeps : ∀ {c : Char}, hasPunctuation c = true → (!Js.isSpace c) = true := by
    intro c hc
    rw [isSpace_of_hasPunctuation hc]
    rfl
  have hseparator : ∀ c, IsSeparator c → (!Js.isSpace c) = true := by
    rintro c (rfl | rfl)
    · exact hkeeps (by decide)
    · exact hkeeps (by decide)
  rw [Alternative.encode, Runes.withoutSpaces, List.filter_append,
    List.filter_cons_of_pos (p := fun c => !Js.isSpace c) (hkeeps (hasPunctuation_symbol _)),
    filter_escape (p := fun c => !Js.isSpace c) (hkeeps (by decide)) hseparator]
  rfl

theorem Restriction.withoutSpaces_encode (r : Restriction) :
    Runes.withoutSpaces r.encode = r.withoutSpaces.encode := by
  rw [Restriction.encode, Runes.withoutSpaces, filter_intercalate (by decide), List.map_map,
    Restriction.encode, Restriction.withoutSpaces, List.map_map]
  exact congrArg _ (List.map_congr_left fun a _ => a.withoutSpaces_encode)

theorem RuneLike.withoutSpaces_encode (r : RuneLike) :
    Runes.withoutSpaces r.encode = r.withoutSpaces.encode := by
  rw [RuneLike.encode, Runes.withoutSpaces, filter_intercalate (by decide), List.map_map,
    RuneLike.encode, RuneLike.withoutSpaces, List.map_map]
  exact congrArg _ (List.map_congr_left fun restriction _ => restriction.withoutSpaces_encode)

theorem restrictionText_encode (r : Restriction) : RestrictionText r r.encode :=
  separated_intercalate fun a _ => alternativeText_encode a

theorem runeText_encode (r : RuneLike) : RuneText r r.encode :=
  separated_intercalate fun restriction _ => restrictionText_encode restriction

/-- A rune comes back without its white space. -/
theorem from_encode (r : RuneLike) : RuneLike.from r.encode = .ok r.withoutSpaces := by
  rw [RuneLike.from, r.withoutSpaces_encode, fromLoop_of_text (runeText_encode r.withoutSpaces)]
  rfl

theorem Alternative.withoutSpaces_eq_self_iff (a : Alternative) :
    a.withoutSpaces = a ↔
      (∀ c ∈ a.field, Js.isSpace c = false) ∧ ∀ c ∈ a.value, Js.isSpace c = false := by
  rw [← Runes.withoutSpaces_eq_self_iff, ← Runes.withoutSpaces_eq_self_iff]
  constructor
  · intro h
    exact ⟨congrArg Alternative.field h, congrArg Alternative.value h⟩
  · rintro ⟨hfield, hvalue⟩
    cases a
    simp only [Alternative.withoutSpaces, Alternative.mk.injEq, true_and] at hfield hvalue ⊢
    exact ⟨hfield, hvalue⟩

theorem Restriction.withoutSpaces_eq_self_iff (r : Restriction) :
    r.withoutSpaces = r ↔ ∀ a ∈ r.alternatives, a.withoutSpaces = a := by
  rw [← map_eq_self_iff]
  exact ⟨congrArg Restriction.alternatives, fun h => Restriction.ext_alternatives h⟩

theorem RuneLike.withoutSpaces_eq_self_iff (r : RuneLike) :
    r.withoutSpaces = r ↔ r.Spaceless := by
  have hmap : r.withoutSpaces = r ↔ r.restrictions.map Restriction.withoutSpaces = r.restrictions :=
    ⟨congrArg RuneLike.restrictions, congrArg RuneLike.mk⟩
  rw [hmap, map_eq_self_iff]
  refine forall₂_congr fun restriction _ => ?_
  rw [restriction.withoutSpaces_eq_self_iff]
  exact forall₂_congr fun a _ => a.withoutSpaces_eq_self_iff

theorem roundTrips_iff_withoutSpaces (r : RuneLike) : RoundTrips r ↔ r.withoutSpaces = r := by
  constructor
  · rintro ⟨r', hfrom, rfl, -⟩
    rw [from_encode] at hfrom
    exact Except.ok.inj hfrom
  · intro h
    exact ⟨r, by rw [from_encode, h], rfl, fun _ => rfl⟩

/-- **The codec.**  The rune that is read from the text of a rune is this rune
without the white space of its fields and values; it is the rune itself just
when there is none. -/
theorem from_encode_and_roundTrips_iff (r : RuneLike) :
    RuneLike.from r.encode = .ok r.withoutSpaces ∧ (RoundTrips r ↔ r.Spaceless) :=
  ⟨from_encode r, (roundTrips_iff_withoutSpaces r).trans r.withoutSpaces_eq_self_iff⟩

/-- The rune `a=x y`. -/
def spacedRune : RuneLike where
  restrictions :=
    [{ alternatives := [{ field := ['a'], cond := .equals, value := "x y".toList,
                          field_valid := by decide }]
       alternatives_ne := List.cons_ne_nil _ _ }]

/-- A value with a space does not come back. -/
theorem not_roundTrips_spacedRune : ¬ RoundTrips spacedRune := by
  rw [roundTrips_iff_withoutSpaces]
  decide

/-! ### Nothing but the text -/

/-- `s` is a written text and the remainder behind it: with the separator in
between, or a remainder that needs none. -/
def Splits (Written : Text → Prop) (separator : Char) (NeedsNone : Text → Prop)
    (s remainder : Text) : Prop :=
  ∃ raw, Written raw ∧
    (s = raw ++ separator :: remainder ∨ s = raw ++ remainder ∧ NeedsNone remainder)

/-- What the parsers read from `s` stands there, and an escape character with
nothing after it is rejected. -/
structure NeverInvents (s : Text) : Prop where
  alternative : ∀ {a remainder}, Alternative.decode s = .ok (a, remainder) →
    Splits (AlternativeText a) '|' (Stops IsAmpersand) s remainder
  restriction : ∀ {r remainder}, Restriction.decode s = .ok (r, remainder) →
    Splits (RestrictionText r) '&' (· = []) s remainder
  rune : ∀ {r}, RuneLike.from s = .ok r → RuneText r (withoutSpaces s)
  alternative_rejects : DanglingAlternative s → ∃ e, Alternative.decode s = .error e
  restriction_rejects : DanglingRestriction s → ∃ e, Restriction.decode s = .error e
  rune_rejects : DanglingRune (withoutSpaces s) → ∃ e, RuneLike.from s = .error e

theorem splits_of_afterBar {a : Alternative} {raw tail : Text} (ha : AlternativeText a raw)
    (htail : Stops IsSeparator tail) :
    Splits (AlternativeText a) '|' (Stops IsAmpersand) (raw ++ tail) (afterBar tail) := by
  refine ⟨raw, ha, ?_⟩
  rcases tail with - | ⟨c, cs⟩
  · exact .inr ⟨rfl, trivial⟩
  · rcases htail with rfl | rfl
    · exact .inl rfl
    · exact .inr ⟨rfl, stops_ampersand cs⟩

theorem splits_of_tail {r : Restriction} {raw tail : Text} (hr : RestrictionText r raw)
    (htail : Stops IsAmpersand tail) :
    Splits (RestrictionText r) '&' (· = []) (raw ++ tail) tail.tail := by
  refine ⟨raw, hr, ?_⟩
  rcases tail with - | ⟨c, cs⟩
  · exact .inr ⟨rfl, rfl⟩
  · obtain rfl := htail
    exact .inl rfl

theorem Splits.stops_restriction {r : Restriction} {s remainder : Text}
    (h : Splits (RestrictionText r) '&' (· = []) s remainder) :
    ∃ raw tail, RestrictionText r raw ∧ Stops IsAmpersand tail ∧ s = raw ++ tail := by
  obtain ⟨raw, hr, rfl | ⟨rfl, rfl⟩⟩ := h
  · exact ⟨raw, _, hr, stops_ampersand _, rfl⟩
  · exact ⟨raw, [], hr, trivial, rfl⟩

theorem from_eq_ok_iff {s : Text} {r : RuneLike} :
    RuneLike.from s = .ok r ↔ fromLoop (withoutSpaces s) = .ok r.restrictions := by
  rw [RuneLike.from]
  rcases fromLoop (withoutSpaces s) with e | rs
  · exact ⟨nofun, nofun⟩
  · constructor
    · intro h
      obtain rfl := Except.ok.inj h
      rfl
    · intro h
      obtain rfl := Except.ok.inj h
      rfl

/-- **The parsers do not invent text**, unless an escape character is the last
one of a text that they read to its end. -/
theorem neverInvents_iff (s : Text) :
    NeverInvents s ↔ ¬ DanglingRestriction s ∧ ¬ DanglingRune (withoutSpaces s) := by
  constructor
  · intro h
    constructor
    · intro hd
      obtain ⟨r, hdecode⟩ := restriction_decode_dangling hd
      obtain ⟨raw, tail, hr, htail, rfl⟩ := (h.restriction hdecode).stops_restriction
      exact not_danglingRestriction hr htail hd
    · intro hd
      obtain ⟨rs, hloop⟩ := fromLoop_dangling hd
      exact not_danglingRune (h.rune (r := ⟨rs⟩) (from_eq_ok_iff.mpr hloop)) hd
  · rintro ⟨hrestriction, hrune⟩
    exact
      { alternative := fun hdecode => by
          rcases decode_eq_ok hdecode with ⟨raw, tail, ha, htail, rfl, rfl⟩ | ⟨hd, -⟩
          · exact splits_of_afterBar ha htail
          · exact absurd (.here hd) hrestriction
        restriction := fun hdecode => by
          rcases restriction_decode_eq_ok hdecode with ⟨raw, tail, hr, htail, rfl, rfl⟩ | ⟨hd, -⟩
          · exact splits_of_tail hr htail
          · exact absurd hd hrestriction
        rune := fun hfrom => (fromLoop_eq_ok (from_eq_ok_iff.mp hfrom)).resolve_right hrune
        alternative_rejects := fun hd => absurd (.here hd) hrestriction
        restriction_rejects := fun hd => absurd hd hrestriction
        rune_rejects := fun hd => absurd hd hrune }

/-- Of `a=\` the value is read as `undefined`. -/
theorem not_neverInvents_backslash : ¬ NeverInvents "a=\\".toList := by
  intro h
  have hd : DanglingAlternative "a=\\".toList :=
    ⟨⟨['a'], .equals, [], by decide⟩, ['a', '='], ⟨[], rfl, .nil⟩, rfl⟩
  have hdecode : Alternative.decode "a=\\".toList =
      .ok (⟨['a'], .equals, "undefined".toList, by decide⟩, []) := by rfl
  obtain ⟨raw, ha, hs | ⟨hs, -⟩⟩ := h.alternative hdecode
  · exact not_danglingAlternative ha (stops_cons (.inl rfl) []) (hs ▸ hd)
  · exact not_danglingAlternative ha (stops_nil IsSeparator) (hs ▸ hd)

/-! ### The two parsers of alternatives -/

/-- No white space, bar, ampersand or backslash. -/
def PlainText (s : Text) : Prop :=
  ∀ c ∈ s, Js.isSpace c = false ∧ ¬ IsSeparator c ∧ c ≠ '\\'

/-- There is no punctuation behind the first one. -/
def OnePunctuation (s : Text) : Prop :=
  ∀ c ∈ (s.dropWhile fun c => !hasPunctuation c).tail, hasPunctuation c = false

instance : DecidablePred PlainText := fun s => List.decidableBAll _ s

instance : DecidablePred OnePunctuation := fun _ => List.decidableBAll _ _

theorem escaped_self {v : Text} (h : PlainText v) : Escaped '\\' IsSeparator v v := by
  induction v with
  | nil => exact .nil
  | cons c v ih =>
      obtain ⟨⟨-, hsep, hc⟩, hv⟩ := List.forall_mem_cons.mp h
      exact .plain hc hsep (ih hv)

theorem exists_splitPunctuation (cs : Text) :
    ∃ pieces, splitPunctuation cs = cs.takeWhile (fun c => !hasPunctuation c) :: pieces := by
  induction cs with
  | nil => exact ⟨[], rfl⟩
  | cons c cs ih =>
      rw [splitPunctuation]
      split_ifs with hc
      · rw [List.takeWhile_cons_of_neg (by simp [hc])]
        exact ⟨_, rfl⟩
      · obtain ⟨pieces, hpieces⟩ := ih
        rw [hpieces, List.takeWhile_cons_of_pos (by simp [hc])]
        exact ⟨pieces, rfl⟩

theorem splitPunctuation_field {field : Text} (hfield : IsField field)
    {d : Char} (hd : hasPunctuation d = true) (cs : Text) :
    splitPunctuation (field ++ d :: cs) = field :: [d] :: splitPunctuation cs := by
  induction field with
  | nil => rw [List.nil_append, splitPunctuation, if_pos hd]
  | cons c field ih =>
      obtain ⟨hc, hfield'⟩ := List.forall_mem_cons.mp hfield
      rw [List.cons_append, splitPunctuation, if_neg (by simp [hc]), ih hfield']
      rfl

theorem from_cons {field : Text} (hfield : IsField field) {d : Char}
    (hd : hasPunctuation d = true) {cs : Text} (hs : PlainText (field ++ d :: cs)) :
    Alternative.from (field ++ d :: cs) =
      Alternative.new field [d] (cs.takeWhile fun c => !hasPunctuation c) := by
  obtain ⟨pieces, hpieces⟩ := exists_splitPunctuation cs
  rw [Alternative.from, withoutSpaces_eq_self_iff.mpr fun c hc => (hs c hc).1,
    splitPunctuation_field hfield hd, hpieces]

/-- **The two parsers agree** on a text with nothing special in it just when
its value has no punctuation. -/
theorem from_eq_decode_iff {s remainder : Text} {a : Alternative} (hs : PlainText s)
    (h : Alternative.decode s = .ok (a, remainder)) :
    Alternative.from s = .ok a ↔ OnePunctuation s := by
  rcases exists_field s with hnone | ⟨field, d, cs, rfl, hfield, hd⟩
  · rw [Alternative.decode, List.dropWhile_eq_nil_iff.mpr fun c hc => by rw [hnone c hc]; rfl] at h
    cases h
  · -- with nothing to escape, `decode` takes all behind the condition
    have hcs : PlainText cs := fun c hc =>
      hs c (List.mem_append_right _ (List.mem_cons_of_mem _ hc))
    have hvalue : readValue cs = (cs, []) := by
      have hread := readValue_append (escaped_self hcs) []
      rwa [List.append_nil, readValue, List.append_nil] at hread
    rw [decode_cons hfield hd, hvalue] at h
    rcases hnew : Alternative.new field [d] cs with e | b
    · rw [hnew] at h
      cases h
    rw [hnew] at h
    obtain ⟨rfl, -⟩ := Prod.mk.inj (Except.ok.inj h)
    obtain ⟨hfield', hcond, hcs'⟩ := new_eq_ok_iff.mp hnew
    rw [from_cons hfield hd hs, new_eq_ok_iff, OnePunctuation, (takeWhile_field hfield hd cs).2,
      List.tail_cons, hcs', eq_comm (a := cs), List.takeWhile_eq_self_iff]
    constructor
    · rintro ⟨-, -, hall⟩ c hc
      simpa using hall c hc
    · intro hall
      exact ⟨hfield', hcond, fun c hc => by simp [hall c hc]⟩

/-- The text `a=1`. -/
theorem from_eq_decode_word :
    PlainText "a=1".toList ∧ OnePunctuation "a=1".toList ∧
      Alternative.from "a=1".toList = .ok ⟨['a'], .equals, ['1'], by decide⟩ := by
  have hplain : PlainText "a=1".toList := by decide
  have hone : OnePunctuation "a=1".toList := by decide
  have hdecode : Alternative.decode "a=1".toList =
      .ok (⟨['a'], .equals, ['1'], by decide⟩, []) := by rfl
  exact ⟨hplain, hone, (from_eq_decode_iff hplain hdecode).mpr hone⟩

/-- Of the value `1-2`, `Alternative.from` keeps the `1`. -/
theorem from_ne_decode_dash :
    PlainText "a=1-2".toList ∧
      Alternative.decode "a=1-2".toList = .ok (⟨['a'], .equals, "1-2".toList, by decide⟩, []) ∧
      Alternative.from "a=1-2".toList ≠ .ok ⟨['a'], .equals, "1-2".toList, by decide⟩ := by
  refine ⟨by decide, rfl, ?_⟩
  have hfrom : Alternative.from "a=1-2".toList = .ok ⟨['a'], .equals, ['1'], by decide⟩ := by rfl
  rw [hfrom]
  decide

end NostrMesh.Runes
