/-
NostrMesh/Relay/PrefixConditions.lean

The SQL conditions that `findByFilters` builds for the ids and authors of a
filter.  The entries are grouped by their length: those of 64 digits are
compared with the whole column, those of an even length with its first bytes,
and those of an odd length by a range, from the prefix with a 0 behind it to
the prefix with an f.

`EventRepository` has one condition for each entry; the groups say the same of
every row (`selects_prefixConditions`).

Main result: `prefixConditions_startsWith`, the conditions mean `startsWith`
on the hexadecimal form of the column.
-/
import NostrMesh.Relay.Filters

namespace NostrMesh.Relay

/-! ### Groups -/

section

variable {α κ : Type*} [DecidableEq κ]

/-- `groupBy`: the keys in the order in which they occur first, each with its
elements. -/
def groupBy (key : α → κ) (l : List α) : List (κ × List α) :=
  (l.map key).eraseDups.map fun k => (k, l.filter fun x => key x = k)

theorem exists_group_of_mem (key : α → κ) {l : List α} {x : α} (h : x ∈ l) :
    ∃ group ∈ groupBy key l, x ∈ group.2 := by
  refine ⟨(key x, l.filter fun y => key y = key x), ?_, ?_⟩
  · exact List.mem_map.mpr ⟨key x, List.mem_eraseDups.mpr (List.mem_map_of_mem h), rfl⟩
  · exact List.mem_filter.mpr ⟨h, decide_eq_true rfl⟩

/-- The groups have the elements of the list. -/
theorem any_groupBy (key : α → κ) (l : List α) (p : α → Bool) :
    (groupBy key l).any (fun group => group.2.any p) = l.any p := by
  rw [Bool.eq_iff_iff, List.any_eq_true, List.any_eq_true]
  constructor
  · rintro ⟨group, hgroup, hany⟩
    obtain ⟨k, -, rfl⟩ := List.mem_map.mp hgroup
    obtain ⟨x, hx, hp⟩ := List.any_eq_true.mp hany
    exact ⟨x, (List.mem_filter.mp hx).1, hp⟩
  · rintro ⟨x, hx, hp⟩
    obtain ⟨group, hgroup, hmem⟩ := exists_group_of_mem key hx
    exact ⟨group, hgroup, List.any_eq_true.mpr ⟨x, hmem, hp⟩⟩

theorem key_of_mem_groupBy {key : α → κ} {l : List α} {group : κ × List α}
    (h : group ∈ groupBy key l) : ∀ x ∈ group.2, key x = group.1 := by
  obtain ⟨k, -, rfl⟩ := List.mem_map.mp h
  exact fun x hx => of_decide_eq_true (List.mem_filter.mp hx).2

end

/-! ### Conditions -/

/-- The columns that `authors` and `ids` are compared with. -/
inductive TableField
  | eventPubkey
  | eventId
  deriving DecidableEq

/-- `bytea` in its hexadecimal format, `\x…`; in any other text the bytes are
written out. -/
def bytea (text : String) : Bytes :=
  match text.toList with
  | '\\' :: 'x' :: digits => Bytes.ofHexChars digits
  | _ => Bytes.ofText text

inductive Condition
  /-- `1 = 0` -/
  | never
  /-- `"column" in (…)` -/
  | isIn (tableField : TableField) (values : List Bytes)
  /-- `substring("column" from 1 for count) = value` -/
  | substringIs (tableField : TableField) (count : ℕ) (value : Bytes)
  /-- `substring("column" from 1 for count) BETWEEN low AND high` -/
  | substringBetween (tableField : TableField) (count : ℕ) (low high : String)
  deriving DecidableEq

/-- What a condition says of the values of the columns. -/
def Condition.holds (row : TableField → Bytes) : Condition → Bool
  | never => false
  | isIn tableField values => values.any fun value => row tableField = value
  | substringIs tableField count value => (row tableField).take count = value
  | substringBetween tableField count low high =>
      Bytes.le (bytea low) ((row tableField).take count) &&
        Bytes.le ((row tableField).take count) (bytea high)

/-! ### `findByFilters` -/

inductive LengthSpec
  | exact
  | even
  | odd
  deriving DecidableEq

def lengthSpec (entry : String) : LengthSpec :=
  if Js.length entry = 64 then .exact else if Js.length entry % 2 = 0 then .even else .odd

def groupByLengthSpec (entries : List String) : List (LengthSpec × List String) :=
  groupBy lengthSpec entries

/-- What `evolve` does with the group of a length. -/
def LengthSpec.conditions (tableFields : List TableField) (entries : List String) :
    LengthSpec → List Condition
  | exact => tableFields.map fun tableField => .isIn tableField (entries.map toBuffer)
  | even => entries.flatMap fun entry => tableFields.map fun tableField =>
      .substringIs tableField (Js.length entry >>> 1) (toBuffer entry)
  | odd => entries.flatMap fun entry => tableFields.map fun tableField =>
      .substringBetween tableField ((Js.length entry >>> 1) + 1) ("\\x" ++ entry ++ "0")
        ("\\x" ++ entry ++ "f")

/-- The conditions, joined by `or`, for one of the two fields of a filter;
none at all for a field that is missing. -/
def prefixConditions (tableFields : List TableField) : Option (List String) → List Condition
  | none => []
  | some [] => [.never]
  | some entries => (groupByLengthSpec entries).flatMap fun group =>
      group.1.conditions tableFields group.2

/-- A group without conditions is left out of the query. -/
def selects (conditions : List Condition) (row : TableField → Bytes) : Bool :=
  conditions.isEmpty || conditions.any (Condition.holds row)

/-- The columns of a row. -/
def EventRow.tableFields (row : EventRow) : TableField → Bytes
  | .eventPubkey => row.eventPubkey
  | .eventId => row.eventId

/-! ### The groups say the same as the entries -/

variable {row : TableField → Bytes} {tableField : TableField}

theorem bytea_hex (digits : String) : bytea ("\\x" ++ digits) = toBuffer digits := by
  rw [bytea, String.toList_append]
  rfl

/-- The condition for an entry, by its length. -/
theorem prefixMatches_eq (value : Bytes) (entry : String) : prefixMatches value entry =
    match lengthSpec entry with
    | .exact => decide (value = toBuffer entry)
    | .even => decide (value.take (Js.length entry >>> 1) = toBuffer entry)
    | .odd => Bytes.le (toBuffer (entry ++ "0")) (value.take ((Js.length entry >>> 1) + 1)) &&
        Bytes.le (value.take ((Js.length entry >>> 1) + 1)) (toBuffer (entry ++ "f")) := by
  have hhalf : Js.length entry >>> 1 = Js.length entry / 2 := Nat.shiftRight_eq_div_pow _ 1
  rw [prefixMatches, lengthSpec, hhalf]
  split_ifs
  · rfl
  · rfl
  · rfl

theorem any_eq_of_forall_mem {α : Type*} {p q : α → Bool} {l : List α}
    (h : ∀ x ∈ l, p x = q x) : l.any p = l.any q := by
  rw [Bool.eq_iff_iff, List.any_eq_true, List.any_eq_true]
  exact exists_congr fun x => and_congr_right fun hx => by rw [h x hx]

theorem holds_isIn (entries : List String) :
    (Condition.isIn tableField (entries.map toBuffer)).holds row =
      entries.any fun entry => decide (row tableField = toBuffer entry) := by
  rw [Condition.holds, List.any_map]
  rfl

/-- The conditions of a group, entry by entry. -/
theorem any_conditions (spec : LengthSpec) {entries : List String}
    (h : ∀ entry ∈ entries, lengthSpec entry = spec) :
    (spec.conditions [tableField] entries).any (Condition.holds row) =
      entries.any (prefixMatches (row tableField)) := by
  cases spec with
  | exact =>
      simp only [LengthSpec.conditions, List.map_cons, List.map_nil, List.any_cons, List.any_nil,
        Bool.or_false]
      rw [holds_isIn]
      refine any_eq_of_forall_mem fun entry hentry => ?_
      rw [prefixMatches_eq, h entry hentry]
  | even =>
      simp only [LengthSpec.conditions, List.map_cons, List.map_nil, List.any_flatMap,
        List.any_cons, List.any_nil, Bool.or_false]
      refine any_eq_of_forall_mem fun entry hentry => ?_
      rw [prefixMatches_eq, h entry hentry, Condition.holds]
  | odd =>
      simp only [LengthSpec.conditions, List.map_cons, List.map_nil, List.any_flatMap,
        List.any_cons, List.any_nil, Bool.or_false]
      refine any_eq_of_forall_mem fun entry hentry => ?_
      rw [prefixMatches_eq, h entry hentry, Condition.holds, String.append_assoc,
        String.append_assoc, bytea_hex, bytea_hex]

theorem exists_mem_conditions (tableField : TableField) (spec : LengthSpec) {entries : List String} {entry : String}
    (h : entry ∈ entries) : ∃ condition, condition ∈ spec.conditions [tableField] entries := by
  cases spec with
  | exact => exact ⟨_, List.mem_cons_self⟩
  | even => exact ⟨_, List.mem_flatMap.mpr ⟨entry, h, List.mem_cons_self⟩⟩
  | odd => exact ⟨_, List.mem_flatMap.mpr ⟨entry, h, List.mem_cons_self⟩⟩

/-- **The groups say the same as the entries** do one by one. -/
theorem selects_prefixConditions (entries : Option (List String)) :
    selects (prefixConditions [tableField] entries) row = prefixesMatch entries (row tableField) := by
  rcases entries with - | ⟨- | ⟨entry, entries⟩⟩
  · rfl
  · rfl
  have hgroups : prefixConditions [tableField] (some (entry :: entries)) =
      (groupByLengthSpec (entry :: entries)).flatMap fun group =>
        group.1.conditions [tableField] group.2 := rfl
  have hany : (prefixConditions [tableField] (some (entry :: entries))).any (Condition.holds row) =
      (entry :: entries).any (prefixMatches (row tableField)) := by
    rw [hgroups, List.any_flatMap, groupByLengthSpec, ← any_groupBy lengthSpec (entry :: entries)]
    exact any_eq_of_forall_mem fun group hgroup =>
      any_conditions group.1 (key_of_mem_groupBy hgroup)
  have hsome : (prefixConditions [tableField] (some (entry :: entries))).isEmpty = false := by
    obtain ⟨group, hgroup, hmem⟩ := exists_group_of_mem lengthSpec
      (List.mem_cons_self : entry ∈ entry :: entries)
    obtain ⟨condition, hcondition⟩ := exists_mem_conditions tableField group.1 hmem
    rw [List.isEmpty_eq_false_iff, hgroups]
    exact List.ne_nil_of_mem (List.mem_flatMap.mpr ⟨group, hgroup, hcondition⟩)
  rw [selects, hany, hsome, Bool.false_or, prefixesMatch]

/-- One entry has one condition. -/
theorem exists_prefixConditions_singleton (tableField : TableField) (entry : String) :
    ∃ condition, prefixConditions [tableField] (some [entry]) = [condition] := by
  have hgroups : groupByLengthSpec [entry] = [(lengthSpec entry, [entry])] := by
    simp [groupByLengthSpec, groupBy, List.eraseDups_cons]
  rw [prefixConditions, hgroups]
  · cases hspec : lengthSpec entry with
    | exact => exact ⟨_, rfl⟩
    | even => exact ⟨_, rfl⟩
    | odd => exact ⟨_, rfl⟩
  · simp

example : prefixConditions [.eventId] (some ["abcdef", "abc"]) =
    [.substringIs .eventId 3 [0xab, 0xcd, 0xef],
      .substringBetween .eventId 2 "\\xabc0" "\\xabcf"] := by decide +kernel

/-! ### Prefixes -/

/-- **Prefix conditions mean `startsWith`**, on the hexadecimal form of the
column. -/
theorem prefixConditions_startsWith (hvalue : (row tableField).length = 32) :
    (∀ entry, prefixSchema entry = true → ∃ condition,
        prefixConditions [tableField] (some [entry]) = [condition] ∧
          (condition.holds row = true ↔
            Js.startsWith (Bytes.toHex (row tableField)) entry = true)) ∧
      ∀ entries, (∀ entry ∈ entries, prefixSchema entry = true) →
        (selects (prefixConditions [tableField] (some entries)) row = true ↔
          ∃ entry ∈ entries, Js.startsWith (Bytes.toHex (row tableField)) entry = true) := by
  have hselects : ∀ entries, (∀ entry ∈ entries, prefixSchema entry = true) →
      (selects (prefixConditions [tableField] (some entries)) row = true ↔
        ∃ entry ∈ entries, Js.startsWith (Bytes.toHex (row tableField)) entry = true) := by
    intro entries hentries
    rw [selects_prefixConditions, prefixesMatch_iff hvalue, Option.all_some, List.any_eq_true]
    intro es hes
    obtain rfl := Option.some.inj hes
    exact hentries
  refine ⟨fun entry hentry => ?_, hselects⟩
  obtain ⟨condition, hcondition⟩ := exists_prefixConditions_singleton tableField entry
  have hone := hselects [entry] (by simpa using hentry)
  rw [hcondition] at hone
  exact ⟨condition, hcondition, by simpa [selects] using hone⟩

def noteColumns : TableField → Bytes
  | .eventPubkey => toBuffer "3bf0c63fcb93463407af97a5e5ee64fa883d107ef9e558472c4eb9aaaefa459d"
  | .eventId => toBuffer "86e50107226a1890472cfdcde525a35858bd0a2d23b23e01695f33009e9bd526"

/-- All digits of the key but the last one. -/
theorem prefixConditions_startsWith_note : selects (prefixConditions [.eventPubkey]
    (some ["86e5", "3bf0c63fcb93463407af97a5e5ee64fa883d107ef9e558472c4eb9aaaefa459"]))
      noteColumns = true :=
  ((prefixConditions_startsWith (by decide +kernel)).2 _ (by decide +kernel)).mpr
    ⟨_, List.mem_cons_of_mem _ List.mem_cons_self, by decide +kernel⟩

end NostrMesh.Relay
