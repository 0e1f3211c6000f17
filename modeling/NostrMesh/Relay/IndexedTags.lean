/-
NostrMesh/Relay/IndexedTags.lean

Whether `event_tags` holds the tags of the events, string for string.

The trigger casts each string to the text of a JSON value and trims the
quotes off.  `unquote` is that round trip.  It gives a string back exactly if
every character of it is plain; of the others it leaves a backslash behind,
and takes a quote off the end.  So the trigger writes the tags that an event
carries exactly if the strings of its one-letter tags are plain
(`mem_tagRows_iff_plainTags`).

For runs, `Consistent` collects what every statement keeps: `event_tags` is
what the trigger writes for the rows, and ids tell the rows apart.

Main result: `mirrorsTags_iff`.
-/
import Mathlib.Data.List.MinMax
import Mathlib.Logic.Relation
import NostrMesh.Relay.Addresses
import NostrMesh.Relay.Filters
import NostrMesh.Relay.Partition

namespace NostrMesh.Relay.IndexedTags

open Tables

/-! ### What the text of a JSON string leaves of it -/

/-- `trim(value::text, '"')`, for a JSON string. -/
def unquote (s : String) : String := trimQuotes (jsonText s)

/-- The characters between the quotes of the JSON text. -/
def escaped (cs : List Char) : List Char := cs.flatMap jsonEscape

variable {c : Char} {cs : List Char} {s : String}

theorem escaped_append (cs cs' : List Char) : escaped (cs ++ cs') = escaped cs ++ escaped cs' :=
  List.flatMap_append

/-- A character is copied, or else its escape starts with a backslash. -/
theorem jsonEscape_cases (c : Char) :
    (IsPlain c ∧ jsonEscape c = [c]) ∨
      ∃ d rest, jsonEscape c = '\\' :: d :: rest ∧ (c ≠ '"' → (d :: rest).getLast? ≠ some '"') := by
  by_cases hplain : IsPlain c
  · exact Or.inl ⟨hplain, jsonEscape_of_isPlain hplain⟩
  · refine Or.inr ?_
    simp only [IsPlain, ne_eq, not_and_or, not_not, not_le] at hplain
    simp only [jsonEscape]
    split_ifs with hquote hbackslash h8 h12 h10 h13 h9 h32
    · exact ⟨'"', [], rfl, fun h => absurd hquote h⟩
    · exact ⟨'\\', [], rfl, fun _ => by decide⟩
    · exact ⟨'b', [], rfl, fun _ => by decide⟩
    · exact ⟨'f', [], rfl, fun _ => by decide⟩
    · exact ⟨'n', [], rfl, fun _ => by decide⟩
    · exact ⟨'r', [], rfl, fun _ => by decide⟩
    · exact ⟨'t', [], rfl, fun _ => by decide⟩
    · -- the last character of a numeric escape is a hexadecimal digit
      refine ⟨'u', '0' :: '0' :: hexDigitsOfByte c.toNat, rfl, fun _ => ?_⟩
      have hdigit : ∀ n < 16, Bytes.hexDigit n ≠ '"' := by decide
      have := hdigit (c.toNat % 16) (Nat.mod_lt _ (by omega))
      simpa [hexDigitsOfByte] using this
    · rcases hplain with h | h | h
      · exact absurd h hquote
      · exact absurd h hbackslash
      · exact absurd h h32

theorem jsonEscape_ne_nil (c : Char) : jsonEscape c ≠ [] := by
  rcases jsonEscape_cases c with ⟨-, h⟩ | ⟨d, rest, h, -⟩
  · simp [h]
  · simp [h]

theorem jsonEscape_quote : jsonEscape '"' = ['\\', '"'] := by decide

theorem head?_escaped_ne (cs : List Char) : (escaped cs).head? ≠ some '"' := by
  rcases cs with - | ⟨c, cs⟩
  · simp [escaped]
  · rw [escaped, List.flatMap_cons]
    rcases jsonEscape_cases c with ⟨hplain, h⟩ | ⟨d, rest, h, -⟩
    · simpa [h] using hplain.1
    · simp [h]

theorem getLast?_jsonEscape (h : c ≠ '"') : (jsonEscape c).getLast? ≠ some '"' := by
  rcases jsonEscape_cases c with ⟨-, he⟩ | ⟨d, rest, he, hlast⟩
  · simpa [he] using h
  · simpa [he] using hlast h

theorem dropWhile_quotes_of_head? (h : cs.head? ≠ some '"') :
    cs.dropWhile (fun c => c = '"') = cs := by
  rcases cs with - | ⟨c, cs⟩
  · rfl
  · have hc : c ≠ '"' := by simpa using h
    simp [hc]

/-- **The trim**, for what does not end in a quote. -/
theorem unquote_of_getLast? (h : cs.getLast? ≠ some '"') :
    unquote (String.ofList cs) = String.ofList (escaped cs) := by
  rcases List.eq_nil_or_concat' cs with rfl | ⟨init, c, rfl⟩
  · decide
  · have hc : c ≠ '"' := by simpa using h
    have hne : escaped (init ++ [c]) ≠ [] := by
      simp [escaped, jsonEscape_ne_nil]
    -- neither end of the escaped characters is a quote
    have hlast : (escaped (init ++ [c])).getLast? ≠ some '"' := by
      have hone : escaped [c] = jsonEscape c := by simp [escaped]
      rw [escaped_append, hone, List.getLast?_append_of_ne_nil _ (jsonEscape_ne_nil c)]
      exact getLast?_jsonEscape hc
    have hhead : (escaped (init ++ [c]) ++ ['"']).head? ≠ some '"' := by
      rw [List.head?_append_of_ne_nil _ hne]
      exact head?_escaped_ne _
    simp only [unquote, trimQuotes, jsonText, String.toList_ofList]
    show String.ofList (((('"' :: (escaped (init ++ [c]) ++ ['"'])).dropWhile _).reverse.dropWhile
      _).reverse) = _
    -- so that one quote goes in front, and one at the end
    rw [List.dropWhile_cons_of_pos (by simp), dropWhile_quotes_of_head? hhead, List.reverse_append,
      List.reverse_singleton, List.singleton_append, List.dropWhile_cons_of_pos (by simp),
      dropWhile_quotes_of_head? (by rwa [List.head?_reverse]), List.reverse_reverse]

/-- **The trim**, for what ends in a quote: the quote goes, and the backslash
before it stays. -/
theorem unquote_concat_quote (cs : List Char) :
    unquote (String.ofList (cs ++ ['"'])) = String.ofList (escaped cs ++ ['\\']) := by
  have htext : escaped (cs ++ ['"']) = escaped cs ++ ['\\', '"'] := by
    rw [escaped_append]
    simp [escaped, jsonEscape_quote]
  have hhead : (escaped cs ++ ['\\', '"'] ++ ['"']).head? ≠ some '"' := by
    rcases he : escaped cs with - | ⟨d, ds⟩
    · -- the string is a quote and nothing else
      decide
    · have := head?_escaped_ne cs
      rw [he] at this
      simpa using this
  simp only [unquote, trimQuotes, jsonText, String.toList_ofList]
  show String.ofList (((('"' :: (escaped (cs ++ ['"']) ++ ['"'])).dropWhile _).reverse.dropWhile
    _).reverse) = _
  rw [List.dropWhile_cons_of_pos (by simp), htext, dropWhile_quotes_of_head? hhead]
  simp

/-- The two cases of the trim. -/
theorem unquote_cases (s : String) :
    (unquote s = String.ofList (escaped s.toList)) ∨
      ∃ cs, s.toList = cs ++ ['"'] ∧ unquote s = String.ofList (escaped cs ++ ['\\']) := by
  by_cases h : s.toList.getLast? = some '"'
  · obtain ⟨cs, hcs⟩ := List.getLast?_eq_some_iff.mp h
    refine Or.inr ⟨cs, hcs, ?_⟩
    rw [← unquote_concat_quote, ← hcs, String.ofList_toList]
  · refine Or.inl ?_
    rw [← unquote_of_getLast? h, String.ofList_toList]

/-! ### Strings that come through -/

instance (c : Char) : Decidable (IsPlain c) := inferInstanceAs (Decidable (_ ∧ _ ∧ _))

/-- No quotes, no backslashes, no control characters. -/
def Plain (s : String) : Prop := ∀ c ∈ s.toList, IsPlain c

instance (s : String) : Decidable (Plain s) := List.decidableBAll IsPlain s.toList

theorem unquote_of_plain (h : Plain s) : unquote s = s := trimQuotes_jsonText h

theorem length_le_escaped (cs : List Char) : cs.length ≤ (escaped cs).length := by
  induction cs with
  | nil => exact Nat.le_refl _
  | cons c cs ih =>
      have hone := List.length_pos_of_ne_nil (jsonEscape_ne_nil c)
      simp only [escaped, List.flatMap_cons, List.length_append, List.length_cons] at ih ⊢
      omega

theorem length_lt_escaped (hc : c ∈ cs) (hplain : ¬ IsPlain c) :
    cs.length < (escaped cs).length := by
  obtain ⟨front, back, rfl⟩ := List.append_of_mem hc
  obtain ⟨d, rest, he, -⟩ := (jsonEscape_cases c).resolve_left fun h => hplain h.1
  have hfront := length_le_escaped front
  have hback := length_le_escaped back
  simp only [escaped, List.flatMap_append, List.flatMap_cons, he, List.length_append,
    List.length_cons] at hfront hback ⊢
  omega

theorem not_isPlain_backslash : ¬ IsPlain '\\' := fun h => h.2.1 rfl

/-- A string that is not plain gets a backslash. -/
theorem backslash_mem_unquote (h : ¬ Plain s) : '\\' ∈ (unquote s).toList := by
  rcases unquote_cases s with he | ⟨cs, -, he⟩
  · simp only [Plain, not_forall] at h
    obtain ⟨c, hc, hplain⟩ := h
    obtain ⟨d, rest, hesc, -⟩ := (jsonEscape_cases c).resolve_left fun h => hplain h.1
    rw [he, String.toList_ofList]
    exact List.mem_flatMap.mpr ⟨c, hc, by rw [hesc]; exact List.mem_cons_self⟩
  · rw [he, String.toList_ofList]
    exact List.mem_append_right _ (List.mem_singleton.mpr rfl)

/-- A string with a backslash gets longer. -/
theorem length_lt_unquote (h : '\\' ∈ s.toList) : s.toList.length < (unquote s).toList.length := by
  rcases unquote_cases s with he | ⟨cs, hcs, he⟩
  · rw [he, String.toList_ofList]
    exact length_lt_escaped h not_isPlain_backslash
  · have hmem : '\\' ∈ cs := by
      rw [hcs] at h
      simpa using h
    have hlt := length_lt_escaped hmem not_isPlain_backslash
    rw [he, String.toList_ofList, hcs, List.length_append, List.length_append]
    exact Nat.add_lt_add_right hlt 1

theorem unquote_ne_empty_iff : unquote s ≠ "" ↔ s ≠ "" := by
  rw [not_iff_not, ← String.toList_eq_nil_iff, ← String.toList_eq_nil_iff]
  rcases unquote_cases s with he | ⟨cs, hcs, he⟩
  · rw [he, String.toList_ofList]
    constructor
    · intro hnil
      have := length_le_escaped s.toList
      rw [hnil] at this
      exact List.eq_nil_of_length_eq_zero (Nat.le_zero.mp this)
    · rintro hnil
      rw [hnil]
      rfl
  · rw [he, String.toList_ofList, hcs]
    simp

/-! ### Names of one letter -/

/-- A name of which one letter is left is a plain letter, or the quote,
of which a backslash is left. -/
theorem unquote_letter (h : (unquote s).toList.length = 1) :
    (Plain s ∧ s.toList.length = 1) ∨ (s = "\"" ∧ unquote s = "\\") := by
  rcases unquote_cases s with he | ⟨cs, hcs, he⟩
  · rw [he, String.toList_ofList] at h
    have hle := length_le_escaped s.toList
    have hplain : Plain s := by
      intro c hc
      by_contra hnot
      have hlt := length_lt_escaped hc hnot
      have hpos := List.length_pos_of_mem hc
      omega
    refine Or.inl ⟨hplain, ?_⟩
    have hself := congrArg String.toList (he.symm.trans (unquote_of_plain hplain))
    rw [String.toList_ofList] at hself
    rw [← hself, h]
  · rw [he, String.toList_ofList, List.length_append, List.length_singleton] at h
    have hnil : escaped cs = [] := List.eq_nil_of_length_eq_zero (by omega)
    have hcsnil : cs = [] := by
      have := length_le_escaped cs
      rw [hnil] at this
      exact List.eq_nil_of_length_eq_zero (Nat.le_zero.mp this)
    refine Or.inr ⟨?_, by rw [he, hnil]; rfl⟩
    rw [← String.ofList_toList (s := s), hcs, hcsnil]
    rfl

/-! ### The tags of one row -/

/-- The pairs of name and value that an event carries in tags of one letter,
with its id. -/
def carriedTags (row : EventRow) : List EventTagRow :=
  row.eventTags.filterMap fun
    | name :: value :: _ =>
        if name.toList.length = 1 ∧ value ≠ "" then some ⟨row.eventId, name, value⟩ else none
    | _ => none

/-- The strings of the tags of one letter are plain. -/
def PlainTags (tags : List (List String)) : Prop :=
  ∀ name value rest, name :: value :: rest ∈ tags → name.toList.length = 1 → value ≠ "" →
    Plain name ∧ Plain value

variable {row : EventRow} {t : EventTagRow}

theorem mem_carriedTags : t ∈ carriedTags row ↔ ∃ name value rest,
    name :: value :: rest ∈ row.eventTags ∧ name.toList.length = 1 ∧ value ≠ "" ∧
      t = ⟨row.eventId, name, value⟩ := by
  rw [carriedTags, List.mem_filterMap]
  constructor
  · rintro ⟨tag, htag, h⟩
    rcases tag with - | ⟨name, - | ⟨value, rest⟩⟩
    · cases h
    · cases h
    · simp only [Option.ite_none_right_eq_some, Option.some.injEq] at h
      exact ⟨name, value, rest, htag, h.1.1, h.1.2, h.2.symm⟩
  · rintro ⟨name, value, rest, htag, hname, hvalue, rfl⟩
    exact ⟨_, htag, if_pos ⟨hname, hvalue⟩⟩

theorem mem_tagRows : t ∈ tagRows row ↔ ∃ name value rest,
    name :: value :: rest ∈ row.eventTags ∧ (unquote name).toList.length = 1 ∧ value ≠ "" ∧
      t = ⟨row.eventId, unquote name, unquote value⟩ := by
  rw [tagRows, List.mem_filterMap]
  constructor
  · rintro ⟨tag, htag, h⟩
    rcases tag with - | ⟨name, - | ⟨value, rest⟩⟩
    · cases h
    · cases h
    · simp only [List.getElem?_cons_zero, List.getElem?_cons_succ, Option.ite_none_right_eq_some,
        Option.some.injEq] at h
      exact ⟨name, value, rest, htag, h.1.1, unquote_ne_empty_iff.mp h.1.2, h.2.symm⟩
  · rintro ⟨name, value, rest, htag, hname, hvalue, rfl⟩
    exact ⟨_, htag, if_pos ⟨hname, unquote_ne_empty_iff.mpr hvalue⟩⟩

theorem eventId_of_mem_carriedTags (h : t ∈ carriedTags row) : t.eventId = row.eventId := by
  obtain ⟨name, value, rest, -, -, -, rfl⟩ := mem_carriedTags.mp h
  rfl

/-- Plain tags are written as they are. -/
theorem mem_tagRows_of_plainTags (h : PlainTags row.eventTags) :
    t ∈ tagRows row ↔ t ∈ carriedTags row := by
  rw [mem_tagRows, mem_carriedTags]
  constructor
  · rintro ⟨name, value, rest, htag, hname, hvalue, rfl⟩
    have hone : name.toList.length = 1 := by
      rcases unquote_letter hname with ⟨-, hone⟩ | ⟨rfl, -⟩
      · exact hone
      · rfl
    obtain ⟨hplain, hplain'⟩ := h name value rest htag hone hvalue
    exact ⟨name, value, rest, htag, hone, hvalue,
      by rw [unquote_of_plain hplain, unquote_of_plain hplain']⟩
  · rintro ⟨name, value, rest, htag, hname, hvalue, rfl⟩
    obtain ⟨hplain, hplain'⟩ := h name value rest htag hname hvalue
    exact ⟨name, value, rest, htag, by rwa [unquote_of_plain hplain], hvalue,
      by rw [unquote_of_plain hplain, unquote_of_plain hplain']⟩

/-- The names are plain where nothing is lost: the trigger never writes a
name that is not, except for the backslash that it makes of a quote. -/
theorem plain_name (h : ∀ t, t ∈ tagRows row ↔ t ∈ carriedTags row) {name value : String}
    {rest : List String} (htag : name :: value :: rest ∈ row.eventTags)
    (hname : name.toList.length = 1) (hvalue : value ≠ "") : Plain name := by
  have hwritten : ∀ name value rest, name :: value :: rest ∈ row.eventTags →
      name.toList.length = 1 → value ≠ "" → Plain name ∨
        name = "\\" ∧ ∃ value' rest', "\"" :: value' :: rest' ∈ row.eventTags ∧ value' ≠ "" := by
    intro name value rest htag hname hvalue
    obtain ⟨n, v, r, hn, hone, hv, heq⟩ :=
      mem_tagRows.mp ((h _).mpr (mem_carriedTags.mpr ⟨name, value, rest, htag, hname, hvalue, rfl⟩))
    obtain rfl : name = unquote n := congrArg EventTagRow.tagName heq
    rcases unquote_letter hone with ⟨hplain, -⟩ | ⟨rfl, hback⟩
    · -- the name that is written is the one of the tag
      exact Or.inl (by rwa [unquote_of_plain hplain])
    · exact Or.inr ⟨hback, v, r, hn, hv⟩
  rcases hwritten name value rest htag hname hvalue with hplain | ⟨-, value', rest', htag', hvalue'⟩
  · exact hplain
  · -- the quote itself is never written
    rcases hwritten "\"" value' rest' htag' rfl hvalue' with hplain | ⟨habs, -⟩
    · exact absurd rfl (hplain '"' (List.mem_singleton.mpr rfl)).1
    · exact absurd habs (by decide)

/-- Strings among which `unquote` stays are plain.  Of those that are not, the
longest with a backslash would be mapped to a longer one. -/
theorem plain_of_unquote_mem {values : List String} (h : ∀ v ∈ values, unquote v ∈ values)
    {value : String} (hmem : value ∈ values) : Plain value := by
  by_contra hplain
  let bad := values.filter fun v => '\\' ∈ v.toList
  have hbad : unquote value ∈ bad :=
    List.mem_filter.mpr ⟨h value hmem, by simpa using backslash_mem_unquote hplain⟩
  obtain ⟨longest, hlongest⟩ : ∃ v, v ∈ bad.argmax fun v => v.toList.length := by
    rcases hmax : bad.argmax fun v => v.toList.length with - | v
    · rw [List.argmax_eq_none.mp hmax] at hbad
      cases hbad
    · exact ⟨v, hmax⟩
  obtain ⟨hin, hback⟩ := List.mem_filter.mp (List.argmax_mem hlongest)
  have hback' : '\\' ∈ longest.toList := by simpa using hback
  have hnot : ¬ Plain longest := fun hp => not_isPlain_backslash (hp _ hback')
  have hnext : unquote longest ∈ bad :=
    List.mem_filter.mpr ⟨h longest hin, by simpa using backslash_mem_unquote hnot⟩
  exact absurd (List.le_of_mem_argmax hnext hlongest) (not_le.mpr (length_lt_unquote hback'))

/-- **The trigger writes the tags that a row carries** exactly if they are
plain: if it does, the values that the row carries stay among themselves. -/
theorem mem_tagRows_iff_plainTags :
    (∀ t, t ∈ tagRows row ↔ t ∈ carriedTags row) ↔ PlainTags row.eventTags := by
  refine ⟨fun h name value rest htag hname hvalue => ⟨plain_name h htag hname hvalue, ?_⟩,
    fun h t => mem_tagRows_of_plainTags h⟩
  have hvalues : ∀ v ∈ (carriedTags row).map EventTagRow.tagValue,
      unquote v ∈ (carriedTags row).map EventTagRow.tagValue := by
    intro v hv
    obtain ⟨t, ht, rfl⟩ := List.mem_map.mp hv
    obtain ⟨n, v, r, htag, hn, hne, rfl⟩ := mem_carriedTags.mp ht
    -- the trigger writes the entry under the same name
    have hname := unquote_of_plain (plain_name h htag hn hne)
    refine List.mem_map.mpr ⟨⟨row.eventId, unquote n, unquote v⟩, ?_, rfl⟩
    exact (h _).mp (mem_tagRows.mpr ⟨n, v, r, htag, by rwa [hname], hne, rfl⟩)
  refine plain_of_unquote_mem hvalues (List.mem_map.mpr ⟨⟨row.eventId, name, value⟩, ?_, rfl⟩)
  exact mem_carriedTags.mpr ⟨name, value, rest, htag, hname, hvalue, rfl⟩

/-! ### Statements and the trigger -/

/-- What a statement writes to `events`.  Rows are deleted by condition, as
`archive-events.sh` does with a window of time. -/
inductive Write
  | create (event : IncomingEvent)
  | upsert (event : IncomingEvent)
  | deleteByPubkeyAndIds (pubkey : String) (eventIdsToDelete : List String)
  | delete (condition : EventRow → Bool)

/-- A row is deleted, and the trigger follows. -/
def deleteRow (db : Database) (row : EventRow) : Database :=
  ⟨db.events.filter fun r => r ≠ row, deleteTagRows row db.eventTags⟩

/-- `DELETE FROM events WHERE condition`, row by row. -/
def deleteRows (condition : EventRow → Bool) (db : Database) : Database :=
  (db.events.filter condition).foldl deleteRow db

/-- A statement, after some restarts of the deployment, at some time; it may
fail. -/
structure Execution where
  restarts : ℕ
  fault : Option DbError
  now : ℕ
  write : Write

def Execution.run (layout : Layout) (db : Database) (x : Execution) : Database :=
  match x.write with
  | .create event => (create (deployed layout x.restarts) x.fault x.now event db).2
  | .upsert event => (upsert (deployed layout x.restarts) x.fault x.now event db).2
  | .deleteByPubkeyAndIds pubkey ids => (deleteByPubkeyAndIds x.fault x.now pubkey ids db).2
  | .delete condition =>
      -- a statement that fails deletes no row
      match x.fault with
      | some _ => db
      | none => deleteRows condition db

/-- The tables after these statements. -/
def tablesAfter (layout : Layout) (xs : List Execution) : Database :=
  xs.foldl (Execution.run layout) ⟨[], []⟩

/-- The tags that a statement can write. -/
def Write.tags : Write → Option (List (List String))
  | .create event => some event.tags
  | .upsert event => some event.tags
  | .deleteByPubkeyAndIds _ _ => none
  | .delete _ => none

/-! ### What a statement does -/

/-- What can happen to the tables at one row; the tags that are written
satisfy `P`. -/
inductive RowStep (P : List (List String) → Prop) (db : Database) : Database → Prop
  | insert (new : EventRow) :
      (∀ r ∈ db.events, r.eventId ≠ new.eventId) → P new.eventTags →
      RowStep P db (db.change (.insert new))
  | update (old new : EventRow) :
      old ∈ db.events → (∀ r ∈ db.events, r ≠ old → r.eventId ≠ new.eventId) → P new.eventTags →
      RowStep P db (db.change (.update old new))
  | mark (row : EventRow) (deletedAt : Option ℕ) :
      row ∈ db.events → RowStep P db (db.change (.update row { row with deletedAt }))
  | delete (row : EventRow) : row ∈ db.events → RowStep P db (deleteRow db row)

/-- A statement, row by row. -/
abbrev RowSteps (P : List (List String) → Prop) : Database → Database → Prop :=
  Relation.ReflTransGen (RowStep P)

variable {P : List (List String) → Prop} {db db' : Database} {layout : Layout}

/-- What clashes with no row of the table has an id of its own. -/
theorem eventId_ne_of_no_clash {S : Schema} (hS : IdIndexed S) {new : EventRow}
    {rows : List EventRow} (h : ∀ u ∈ S.enforced, ∀ r ∈ rows, ¬ u.Clash r new) : ∀ r ∈ rows, r.eventId ≠ new.eventId := by
  obtain ⟨⟨ix, hix, hcol, hp⟩, -⟩ := hS
  intro r hr heq
  exact h _ (List.mem_map.mpr ⟨ix, hix, rfl⟩) r hr ((clash_eventId_iff hcol hp r new).mpr heq)

theorem rowSteps_create {S : Schema} (hS : IdIndexed S) (fault : Option DbError) (now : ℕ)
    {event : IncomingEvent} (hP : P event.tags) (db : Database) :
    RowSteps P db (create S fault now event db).2 := by
  simp only [create, insert, guarded]
  rcases fault <|> (insertRow now event).columnError with - | e
  · rcases insertIgnore_cases S.enforced (insertRow now event) db.events with ⟨hc, hno⟩ | ⟨hc, -⟩
    · simp only [hc, Statement.exec]
      exact .single (.insert _ (eventId_ne_of_no_clash hS hno) hP)
    · simp only [hc, Statement.exec, Database.change_none]
      exact .refl
  · exact .refl

theorem rowSteps_upsert {S : Schema} (hS : IdIndexed S) (fault : Option DbError) (now : ℕ)
    {event : IncomingEvent} (hP : P event.tags) (db : Database) :
    RowSteps P db (upsert S fault now event db).2 := by
  simp only [upsert, upsertStatement, guarded]
  rcases fault <|> (upsertRow now event).columnError with - | e
  · rcases S.infer addressColumns replaceableKinds with - | arbiter
    · -- no index fits the conflict clause
      exact .refl
    · rcases hu : Tables.upsert S.enforced arbiter.toUniqueIndex
          (fun old => old.eventCreatedAt < (upsertRow now event).eventCreatedAt)
          (mergeRow (upsertRow now event)) (upsertRow now event) db.events with constraint | c
      · simp only [hu, Statement.exec]
        exact .refl
      · simp only [hu, Statement.exec]
        rcases upsert_cases hu with ⟨rfl, -, hno⟩ | ⟨old, hold, -, -, rfl, hno⟩ | ⟨rfl, -⟩
        · exact .single (.insert _ (eventId_ne_of_no_clash hS hno) hP)
        · refine .single (.update old _ hold (fun r hr hne => ?_) hP)
          -- the row that is replaced is not among those that have to differ
          have hothers : ∀ q ∈ db.events.filter fun r => r ≠ old,
              q.eventId ≠ (mergeRow (upsertRow now event) old).eventId :=
            eventId_ne_of_no_clash hS fun u hu q hq =>
              hno u hu q (List.mem_filter.mp hq).1 (by simpa using (List.mem_filter.mp hq).2)
          exact hothers r (List.mem_filter.mpr ⟨hr, by simpa using hne⟩)
        · exact .refl
  · exact .refl

/-- Rows treated one after the other: what is done to one leaves the others
in the table. -/
theorem rowSteps_foldl {f : Database → EventRow → Database}
    (hstep : ∀ db row, row ∈ db.events → RowStep P db (f db row))
    (hothers : ∀ db row r, r ∈ db.events → r ≠ row → r ∈ (f db row).events)
    {targets : List EventRow} (hnodup : targets.Nodup) (htargets : ∀ r ∈ targets, r ∈ db.events) :
    RowSteps P db (targets.foldl f db) := by
  induction targets generalizing db with
  | nil => exact .refl
  | cons row targets ih =>
      obtain ⟨hrow, hnodup⟩ := List.nodup_cons.mp hnodup
      refine .head (hstep db row (htargets row List.mem_cons_self)) (ih hnodup fun r hr => ?_)
      refine hothers db row r (htargets r (List.mem_cons_of_mem _ hr)) ?_
      rintro rfl
      exact hrow hr

/-- One row for each id. -/
abbrev UniqueEventIds (rows : List EventRow) : Prop := Unique [eventIdUnique.toUniqueIndex] rows

theorem UniqueEventIds.uniqueIds {rows : List EventRow} (h : UniqueEventIds rows) :
    UniqueIds rows :=
  fun _ hr _ hs heq =>
    h.eq_of_clash (List.mem_singleton.mpr rfl) hr hs (clash_eventIdUnique_iff.mpr heq)

theorem UniqueEventIds.nodup {rows : List EventRow} (h : UniqueEventIds rows) : rows.Nodup :=
  (h _ (List.mem_singleton.mpr rfl)).imp fun hno heq =>
    hno (clash_eventIdUnique_iff.mpr (congrArg EventRow.eventId heq))

/-- **A statement** is made of steps at rows. -/
theorem rowSteps_run (x : Execution) (hids : UniqueEventIds db.events)
    (hP : ∀ tags ∈ x.write.tags, P tags) : RowSteps P db (x.run layout db) := by
  have hS := idIndexed_deployed layout x.restarts
  have hfilter : ∀ condition, (db.events.filter condition).Nodup := fun _ => hids.nodup.filter _
  rw [Execution.run]
  -- the rows that a statement treats one by one are chosen before it starts
  rcases hw : x.write with event | event | ⟨pubkey, ids⟩ | condition <;> rw [hw] at hP
  · exact rowSteps_create hS _ _ (hP _ rfl) db
  · exact rowSteps_upsert hS _ _ (hP _ rfl) db
  · simp only [deleteByPubkeyAndIds]
    rcases x.fault with - | e
    · refine rowSteps_foldl (fun db row hrow => .mark row _ hrow) ?_ (hfilter _)
        fun r hr => (List.mem_filter.mp hr).1
      intro db row r hr hne
      exact List.mem_map.mpr ⟨r, hr, if_neg hne⟩
    · exact .refl
  · rcases x.fault with - | e
    · refine rowSteps_foldl (fun db row hrow => .delete row hrow) ?_ (hfilter _)
        fun r hr => (List.mem_filter.mp hr).1
      intro db row r hr hne
      exact List.mem_filter.mpr ⟨hr, by simpa using hne⟩
    · exact .refl

/-! ### What every statement keeps -/

/-- `event_tags` is what the trigger writes for the rows, each id has one
row, and the tags of the rows satisfy `P`. -/
structure Consistent (P : List (List String) → Prop) (db : Database) : Prop where
  tagIndex : TagIndex db
  uniqueEventIds : UniqueEventIds db.events
  tags : ∀ row ∈ db.events, P row.eventTags

theorem consistent_empty : Consistent P ⟨[], []⟩ :=
  ⟨fun t => by simp, unique_nil, fun row hrow => by cases hrow⟩

/-- A deleted row takes its entries with it, and no others. -/
theorem tagIndex_deleteRow (h : TagIndex db) (hids : UniqueIds db.events) (hrow : row ∈ db.events) :
    TagIndex (deleteRow db row) := by
  intro t
  simp only [deleteRow, deleteTagRows, List.mem_filter, h t, decide_eq_true_eq]
  constructor
  · rintro ⟨⟨r, hr, ht⟩, hne⟩
    refine ⟨r, ⟨hr, ?_⟩, ht⟩
    rintro rfl
    exact hne (eventId_of_mem_tagRows ht)
  · rintro ⟨r, ⟨hr, hne⟩, ht⟩
    refine ⟨⟨r, hr, ht⟩, fun heq => hne (hids r hr row hrow ?_)⟩
    rw [← heq, eventId_of_mem_tagRows ht]

/-- A row comes into the table in place of another. -/
theorem Consistent.update (h : Consistent P db) {old new : EventRow} (hold : old ∈ db.events)
    (hno : ∀ r ∈ db.events, r ≠ old → r.eventId ≠ new.eventId) (hP : P new.eventTags) :
    Consistent P (db.change (.update old new)) := by
  refine ⟨h.tagIndex.update h.uniqueEventIds.uniqueIds hold, ?_, fun r hr => ?_⟩
  · refine h.uniqueEventIds.update (List.mem_singleton.mpr rfl)
      (clash_eventIdUnique_iff.mpr (rfl : old.eventId = old.eventId)).1 fun v hv r hr hne hclash => ?_
    rw [List.mem_singleton.mp hv] at hclash
    exact hno r hr hne (clash_eventIdUnique_iff.mp hclash)
  · rcases (mem_apply_update hold).mp hr with rfl | ⟨hr, -⟩
    · exact hP
    · exact h.tags r hr

theorem Consistent.step (h : Consistent P db) (hstep : RowStep P db db') : Consistent P db' := by
  cases hstep with
  | insert new hno hP =>
      refine ⟨h.tagIndex.insert, h.uniqueEventIds.insert fun u hu r hr hclash => ?_, fun r hr => ?_⟩
      · rw [List.mem_singleton.mp hu] at hclash
        exact hno r hr (clash_eventIdUnique_iff.mp hclash)
      · rcases List.mem_append.mp hr with hr | hr
        · exact h.tags r hr
        · rwa [List.mem_singleton.mp hr]
  | update old new hold hno hP => exact h.update hold hno hP
  | mark row deletedAt hrow =>
      -- a mark keeps the id and the tags
      refine h.update hrow (fun r hr hne heq => hne ?_) (h.tags row hrow)
      exact h.uniqueEventIds.uniqueIds r hr row hrow heq
  | delete row hrow =>
      refine ⟨tagIndex_deleteRow h.tagIndex h.uniqueEventIds.uniqueIds hrow, fun u hu => ?_,
        fun r hr => h.tags r (List.mem_filter.mp hr).1⟩
      exact (h.uniqueEventIds u hu).filter _

theorem Consistent.steps (h : Consistent P db) (hsteps : RowSteps P db db') : Consistent P db' := by
  induction hsteps with
  | refl => exact h
  | tail _ hstep ih => exact ih.step hstep

/-- **Every run keeps the tables consistent.** -/
theorem consistent_tablesAfter (layout : Layout) {xs : List Execution}
    (hP : ∀ x ∈ xs, ∀ tags ∈ x.write.tags, P tags) : Consistent P (tablesAfter layout xs) := by
  have hrun : ∀ db, Consistent P db → Consistent P (xs.foldl (Execution.run layout) db) := by
    induction xs with
    | nil => exact fun _ h => h
    | cons x xs ih =>
        intro db h
        refine ih (fun y hy => hP y (List.mem_cons_of_mem _ hy)) _ (h.steps ?_)
        exact rowSteps_run x h.uniqueEventIds (hP x List.mem_cons_self)
  exact hrun _ consistent_empty

/-! ### The index and the tags of the events -/

/-- `event_tags` holds the tags of one letter that the stored events carry. -/
def MirrorsTags (db : Database) : Prop :=
  ∀ t, t ∈ db.eventTags ↔ ∃ row ∈ db.events, t ∈ carriedTags row

/-- What the trigger writes mirrors the tags exactly if they are plain. -/
theorem Consistent.mirrors_iff (h : Consistent P db) :
    MirrorsTags db ↔ ∀ row ∈ db.events, PlainTags row.eventTags := by
  constructor
  · intro hmirrors row hrow
    refine mem_tagRows_iff_plainTags.mp fun t => ?_
    -- the id of an entry tells whose it is
    constructor
    · intro ht
      obtain ⟨r, hr, htr⟩ := (hmirrors t).mp ((h.tagIndex t).mpr ⟨row, hrow, ht⟩)
      have hid := (eventId_of_mem_carriedTags htr).symm.trans (eventId_of_mem_tagRows ht)
      rwa [← h.uniqueEventIds.uniqueIds r hr row hrow hid]
    · intro ht
      obtain ⟨r, hr, htr⟩ := (h.tagIndex t).mp ((hmirrors t).mpr ⟨row, hrow, ht⟩)
      have hid := (eventId_of_mem_tagRows htr).symm.trans (eventId_of_mem_carriedTags ht)
      rwa [← h.uniqueEventIds.uniqueIds r hr row hrow hid]
  · intro hplain t
    rw [h.tagIndex t]
    refine exists_congr fun row => and_congr_right fun hrow => ?_
    exact mem_tagRows_of_plainTags (hplain row hrow)

/-- An index that mirrors the tags is one that filters can rely on. -/
theorem MirrorsTags.exactTags (h : MirrorsTags db) (hids : UniqueIds db.events) : ExactTags db := by
  intro row hrow name value hvalue
  rw [h]
  constructor
  · rintro ⟨r, hr, ht⟩
    obtain rfl := hids r hr row hrow (eventId_of_mem_carriedTags ht).symm
    obtain ⟨n, v, rest, htag, hone, -, heq⟩ := mem_carriedTags.mp ht
    simp only [EventTagRow.mk.injEq, true_and] at heq
    obtain ⟨rfl, rfl⟩ := heq
    exact ⟨hone, rest, htag⟩
  · rintro ⟨hone, rest, htag⟩
    exact ⟨row, hrow, mem_carriedTags.mpr ⟨name, value, rest, htag, hone, hvalue, rfl⟩⟩

/-- **The tag index mirrors the tags** in every run that writes plain tags
only, after each of its statements; and after any statements at all it does
exactly if the tags of the stored events are plain. -/
theorem mirrorsTags_iff (layout : Layout) (xs : List Execution) :
    ((∀ x ∈ xs, ∀ tags ∈ x.write.tags, PlainTags tags) →
      ∀ ys, ys <+: xs → MirrorsTags (tablesAfter layout ys)) ∧
    (MirrorsTags (tablesAfter layout xs) ↔
      ∀ row ∈ (tablesAfter layout xs).events, PlainTags row.eventTags) := by
  refine ⟨fun hplain ys hys => ?_, ?_⟩
  · have h : Consistent PlainTags (tablesAfter layout ys) :=
      consistent_tablesAfter layout fun x hx => hplain x (hys.mem hx)
    exact h.mirrors_iff.mpr h.tags
  · have h : Consistent (fun _ => True) (tablesAfter layout xs) :=
      consistent_tablesAfter layout fun _ _ _ _ => trivial
    exact h.mirrors_iff

/-- A draft of an article. -/
def articleDraft (id : String) (createdAt : ℤ) (topic content sig : String) : IncomingEvent where
  id := id
  pubkey := "f9308a019258c31049344f85f89d5229b531c845836f99b08601f113bce036f9"
  createdAt := createdAt
  kind := 30023
  tags := [["d", "intro"], ["t", topic]]
  content := content
  sig := sig
  remoteAddress := none
  expiration := none
  deduplication := some ["intro"]

def firstDraft : IncomingEvent :=
  articleDraft "98b9ea881b0690676f517a6874242111c5491584b9fd27b477ca0a1c53a8a3f7" 1700000000
    "relays" "first draft" ("2a0a8cb9e908e5b08482a879a4b70f52cfc9f6f87c384a3f0083b54ef07583a9" ++
      "75b58997ff8334d964d1c2d04103e168ee64a3936bd8a0c21d4a879a82e2291f")

def secondDraft : IncomingEvent :=
  articleDraft "f4da6218bd432091e6f33dbf6941f1e9046aaa11bda9394e731d33cad552f6da" 1700000100
    "nostr" "second draft" ("6b5e2f18652e4a1297711564d71cab2a273689a84220484870102b59c43a27dd" ++
      "cd8804bf43021b9173fe5e8eded4a7a0c3d6a26f89e57df7a4e585cf82dc87ed")

/-- The second draft of an article replaces the first. -/
theorem mirrorsTags_drafts :
    MirrorsTags (tablesAfter .flat
      [⟨0, none, 1700000000, .upsert firstDraft⟩, ⟨0, none, 1700000100, .upsert secondDraft⟩]) := by
  refine (mirrorsTags_iff .flat _).1 ?_ _ (List.prefix_refl _)
  have hletters : ∀ topic : String, Plain topic → PlainTags [["d", "intro"], ["t", topic]] := by
    intro topic htopic name value rest htag _ _
    have hintro : Plain "intro" := by decide +kernel
    simp only [List.mem_cons, List.cons.injEq, List.not_mem_nil, or_false] at htag
    rcases htag with ⟨rfl, rfl, -⟩ | ⟨rfl, rfl, -⟩
    · exact ⟨by decide +kernel, hintro⟩
    · exact ⟨by decide +kernel, htopic⟩
  intro x hx tags htags
  simp only [List.mem_cons, List.not_mem_nil, or_false] at hx
  rcases hx with rfl | rfl
  · obtain rfl := Option.some.inj htags
    exact hletters "relays" (by decide +kernel)
  · obtain rfl := Option.some.inj htags
    exact hletters "nostr" (by decide +kernel)

/-- A note about a record of seven inches. -/
def inchNote : IncomingEvent where
  id := "053a019c44a68da83c4ad283d0bba28619d035c8dba511174e85284a09aba024"
  pubkey := "f9308a019258c31049344f85f89d5229b531c845836f99b08601f113bce036f9"
  createdAt := 1700000000
  kind := 1
  tags := [["t", "7\" single"]]
  content := "record of the day"
  sig := "986ab12babe93bc75bf8f082ed37956148db32ccba457e863e96f9d0cbfd1e50" ++
    "da9a21c5cbfaa5c1818fe6c7213b8ffbba0a925d1ef2e0d242012647970860c2"
  remoteAddress := some "::1"
  expiration := none
  deduplication := none

/-- The tag is stored with a backslash, and nothing finds it under the value
that the note has. -/
theorem inchNote_not_mirrored :
    ¬ MirrorsTags (tablesAfter .flat [⟨0, none, 1700000000, .create inchNote⟩]) := by
  have hstored : insertRow 1700000000 inchNote ∈
      (tablesAfter .flat [⟨0, none, 1700000000, .create inchNote⟩]).events := by decide +kernel
  have hconsistent : Consistent (fun _ => True)
      (tablesAfter .flat [⟨0, none, 1700000000, .create inchNote⟩]) :=
    consistent_tablesAfter .flat fun _ _ _ _ => trivial
  intro hmirrors
  have hplain := hconsistent.mirrors_iff.mp hmirrors _ hstored
  have hvalue := (hplain "t" "7\" single" [] List.mem_cons_self rfl (by decide)).2
  exact (hvalue '"' (by decide)).1 rfl

end NostrMesh.Relay.IndexedTags
