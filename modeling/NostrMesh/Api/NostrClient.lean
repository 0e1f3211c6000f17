/-
NostrMesh/Api/NostrClient.lean

The API's view of the relays: `fetchEvents` merges what the relays send and
keeps the newest event of each key, and `resolveMetadata` parses the first.

A relay that is asked with a filter sends the newest `limit` of the matching
events that it holds; which of equally new ones it sends, the order in which
the answers arrive, and how often an event arrives are left open
(`QuerySync`).  `resolves_iff` reduces all of that to one question: which
events are newest among all that match.

`dedupeEvents_newestOfEachKey` says what `dedupeEvents` keeps of a list.
`orderIndependent_iff` says when the order of arrival makes no difference to
`dedupeEvents`: timestamps are whole seconds, and among events of one second
the first to arrive is taken.
-/
import NostrMesh.Api.Metadata
import NostrMesh.Lib.Newest

namespace NostrMesh.Api

open NewestFirst

/-! ### `dedupeEvents` -/

def dTag (event : Event) : Option String :=
  (event.tags.find? fun entry => entry.head? = some "d").bind fun tag => tag[1]?

/-- The key of `dedupeEvents`: the `d` tag if it is there and not empty, and
else the id. -/
def dedupeKey (event : Event) : String :=
  if (dTag event).getD "" = "" then "id:" ++ event.id else "d:" ++ (dTag event).getD ""

def dedupeEvents (events : List Event) : List Event :=
  latest Event.createdAt dedupeKey events

/-! ### What is kept -/

/-- What events are versions of: the record of a `d` tag, or one event. -/
inductive RecordKey
  | tagged (value : String)
  | untagged (eventId : String)
  deriving DecidableEq

/-- The value of the first `d` tag when it is not empty, otherwise the id. -/
def recordKey (event : Event) : RecordKey :=
  match dTag event with
  | some value => if value = "" then .untagged event.id else .tagged value
  | none => .untagged event.id

/-- `deduped` has exactly one event for each key in `events`, an event of
these with the largest `created_at`, and is sorted by it. -/
structure NewestOfEachKey (events deduped : List Event) : Prop where
  sorted : deduped.Pairwise fun x y => y.createdAt ≤ x.createdAt
  one : ∀ event ∈ events, (deduped.map recordKey).count (recordKey event) = 1
  newest : ∀ x ∈ deduped, x ∈ events ∧
    ∀ y ∈ events, recordKey y = recordKey x → y.createdAt ≤ x.createdAt

def RecordKey.text : RecordKey → String
  | tagged value => "d:" ++ value
  | untagged eventId => "id:" ++ eventId

theorem RecordKey.text_injective {k k' : RecordKey} (h : k.text = k'.text) : k = k' := by
  rcases k with value | eventId
  · rcases k' with value' | eventId'
    · exact congrArg tagged ((String.append_right_inj "d:").mp h)
    · have hchars := congrArg String.toList h
      simp [text] at hchars
  · rcases k' with value' | eventId'
    · have hchars := congrArg String.toList h
      simp [text] at hchars
    · exact congrArg untagged ((String.append_right_inj "id:").mp h)

theorem dedupeKey_eq_text (event : Event) : dedupeKey event = (recordKey event).text := by
  rw [dedupeKey, recordKey]
  rcases dTag event with - | value
  · rfl
  · rw [Option.getD_some]
    dsimp only
    split
    · rfl
    · rfl

/-- The prefixes keep the texts of tags and ids apart. -/
theorem dedupeKey_eq_iff {x y : Event} :
    dedupeKey x = dedupeKey y ↔ recordKey x = recordKey y := by
  rw [dedupeKey_eq_text, dedupeKey_eq_text]
  exact ⟨RecordKey.text_injective, congrArg RecordKey.text⟩

/-- **What `dedupeEvents` keeps**: the newest event of each key and nothing
else; and it leaves its own results alone. -/
theorem dedupeEvents_newestOfEachKey (events : List Event) :
    NewestOfEachKey events (dedupeEvents events) ∧
      dedupeEvents (dedupeEvents events) = dedupeEvents events := by
  refine ⟨⟨byTime_pairwise Event.createdAt _, fun event hevent => ?_, fun x hx => ?_⟩,
    latest_latest Event.createdAt dedupeKey events⟩
  · have hnodup : ((dedupeEvents events).map recordKey).Nodup := by
      have hkeys := nodup_map_latest Event.createdAt dedupeKey events
      have hevents : (dedupeEvents events).Nodup := hkeys.of_map
      rw [List.nodup_map_iff_inj_on hevents]
      intro x hx y hy heq
      exact (List.nodup_map_iff_inj_on hevents).mp hkeys x hx y hy (dedupeKey_eq_iff.mpr heq)
    obtain ⟨x, hx, hkey⟩ : ∃ x ∈ dedupeEvents events, dedupeKey x = dedupeKey event :=
      exists_mem_latest hevent
    refine List.count_eq_one_of_mem hnodup ?_
    exact List.mem_map.mpr ⟨x, hx, dedupeKey_eq_iff.mp hkey⟩
  · obtain ⟨hmem, hle⟩ := isNewestOfKey_iff.mp (isNewestOfKey_of_mem_latest hx)
    exact ⟨hmem, fun y hy hkey => hle y hy (dedupeKey_eq_iff.mpr hkey)⟩

/-! ### The order of arrival -/

/-- In every other order of arrival the same events give the same list. -/
def OrderIndependent (events : List Event) : Prop :=
  ∀ arrived, List.Perm arrived events → dedupeEvents arrived = dedupeEvents events

/-- No two different events, each a newest one of those with its key, have one
`created_at`. -/
def NoTies (events : List Event) : Prop :=
  ∀ x y, IsNewestOfKey Event.createdAt dedupeKey events x →
    IsNewestOfKey Event.createdAt dedupeKey events y → x.createdAt = y.createdAt → x = y

/-- **The order of arrival does not matter** exactly if there are no ties. -/
theorem orderIndependent_iff (events : List Event) (hids : (events.map Event.id).Nodup) :
    OrderIndependent events ↔ NoTies events :=
  latest_perm_iff hids.of_map

/-- A record of the blob whose hash is `"aa"`, published at this time. -/
def versionEvent (id : String) (createdAt : ℤ) : Event :=
  ⟨id, "9d", createdAt, 34578, [["d", "aa"]], "", ""⟩

/-- Versions of different seconds: any order of arrival will do. -/
theorem orderIndependent_nextSecond :
    OrderIndependent [versionEvent "01" 1700000000, versionEvent "02" 1700000001] := by
  refine (orderIndependent_iff _ (by decide)).mpr fun x y hx hy htime => ?_
  obtain ⟨hx, -⟩ := isNewestOfKey_iff.mp hx
  obtain ⟨hy, -⟩ := isNewestOfKey_iff.mp hy
  simp only [List.mem_cons, List.not_mem_nil, or_false] at hx hy
  rcases hx with rfl | rfl <;> rcases hy with rfl | rfl
  · rfl
  · exact absurd htime (by decide)
  · exact absurd htime (by decide)
  · rfl

/-- **Two versions of one second**: the one that arrives first is taken. -/
theorem not_orderIndependent_sameSecond :
    ¬ OrderIndependent [versionEvent "01" 1700000000, versionEvent "02" 1700000000] := by
  intro h
  have hswapped := h [versionEvent "02" 1700000000, versionEvent "01" 1700000000] (.swap _ _ _)
  exact absurd hswapped (by decide)

/-! ### Queries -/

/-- An event matches the filter. -/
def Filter.isMatch (filter : Filter) (event : Event) : Bool :=
  event.kind ∈ filter.kinds &&
    event.tags.any fun tag => tag.head? = some "d" && (tag[1]?).any fun value => value ∈ filter.dTags

/-- What a relay may send of the events that it holds. -/
def Answers (filter : Filter) (held answer : List Event) : Prop :=
  IsTop Event.createdAt filter.limit (held.filter filter.isMatch) answer

/-- `pool.querySync`: the events of all answers arrive, in any order, each
any number of times. -/
def QuerySync (filter : Filter) (relays : List (List Event)) (arrived : List Event) : Prop :=
  ∃ answers, List.Forall₂ (Answers filter) relays answers ∧
    ∀ event, event ∈ arrived ↔ ∃ answer ∈ answers, event ∈ answer

variable (L : Library) (secretKeyHex : String)

/-- What `resolveMetadata` makes of the event that it takes. -/
def outcomeOf (event : Event) : Except String (Option BlobMetadata) :=
  match parseMetadataEvent L event secretKeyHex with
  | .ok metadata => .ok (some metadata)
  | .error e => .error e

/-- `resolveMetadata`, once the events have arrived. -/
def resolveMetadata (arrived : List Event) : Except String (Option BlobMetadata) :=
  match dedupeEvents arrived with
  | [] => .ok none
  | event :: _ => outcomeOf L secretKeyHex event

/-- The outcomes that `resolveMetadata(hash)` can have when the relays hold
these events. -/
def Resolves (relays : List (List Event)) (hash : String)
    (outcome : Except String (Option BlobMetadata)) : Prop :=
  ∃ arrived, QuerySync (metadataFilterByHash hash) relays arrived ∧
    outcome = resolveMetadata L secretKeyHex arrived

/-! ### The newest event decides -/

variable {L} {secretKeyHex}

theorem resolveMetadata_nil : resolveMetadata L secretKeyHex [] = .ok none := rfl

/-- The event that is taken is a newest one of those that arrived. -/
theorem resolveMetadata_spec (L : Library) (secretKeyHex : String) {arrived : List Event} (h : arrived ≠ []) :
    ∃ event, IsNewest Event.createdAt arrived event ∧
      resolveMetadata L secretKeyHex arrived = outcomeOf L secretKeyHex event := by
  rcases hd : dedupeEvents arrived with - | ⟨event, rest⟩
  · exact absurd (latest_eq_nil_iff.mp hd) h
  · refine ⟨event, latest_head hd, ?_⟩
    rw [resolveMetadata, hd]

/-- A newest event that arrives first is taken. -/
theorem resolveMetadata_cons {arrived : List Event} {event : Event}
    (h : ∀ x ∈ arrived, x.createdAt ≤ event.createdAt) :
    resolveMetadata L secretKeyHex (event :: arrived) = outcomeOf L secretKeyHex event := by
  obtain ⟨rest, hd⟩ := latest_cons_of_newest dedupeKey h
  rw [resolveMetadata, dedupeEvents, hd]

/-- The matching events of all relays. -/
def matching (filter : Filter) (relays : List (List Event)) : List Event :=
  relays.flatten.filter filter.isMatch

theorem mem_matching {filter : Filter} {relays : List (List Event)} {event : Event} :
    event ∈ matching filter relays ↔
      ∃ held ∈ relays, event ∈ held.filter filter.isMatch := by
  simp only [matching, List.mem_filter, List.mem_flatten]
  constructor
  · rintro ⟨⟨held, hheld, hevent⟩, hmatch⟩
    exact ⟨held, hheld, hevent, hmatch⟩
  · rintro ⟨held, hheld, hevent, hmatch⟩
    exact ⟨⟨held, hheld, hevent⟩, hmatch⟩

section

variable {filter : Filter} {relays answers : List (List Event)}

theorem mem_of_answers (h : List.Forall₂ (Answers filter) relays answers) {event : Event}
    (hevent : ∃ answer ∈ answers, event ∈ answer) : event ∈ matching filter relays := by
  obtain ⟨answer, hanswer, hevent⟩ := hevent
  induction h with
  | nil => cases hanswer
  | @cons held a relays answers hhead htail ih =>
      rcases List.mem_cons.mp hanswer with rfl | hanswer
      · exact mem_matching.mpr ⟨held, List.mem_cons_self, IsTop.mem hhead hevent⟩
      · obtain ⟨held', hheld', hmem⟩ := mem_matching.mp (ih hanswer)
        exact mem_matching.mpr ⟨held', List.mem_cons_of_mem _ hheld', hmem⟩

/-- Among the answers there is an event at least as new as any that
matches. -/
theorem exists_newer_answer (h : List.Forall₂ (Answers filter) relays answers)
    (hlimit : 0 < filter.limit) {event : Event} (hevent : event ∈ matching filter relays) :
    ∃ answer ∈ answers, ∃ x ∈ answer, event.createdAt ≤ x.createdAt := by
  induction h with
  | nil => simp [matching] at hevent
  | @cons held a relays answers hhead htail ih =>
      obtain ⟨held', hheld', hmem⟩ := mem_matching.mp hevent
      rcases List.mem_cons.mp hheld' with rfl | hheld'
      · obtain ⟨x, hx, hnewest⟩ := IsTop.exists_newest hhead hlimit (List.ne_nil_of_mem hmem)
        exact ⟨a, List.mem_cons_self, x, hx, hnewest.2 event hmem⟩
      · obtain ⟨answer, hanswer, x, hx, hle⟩ := ih (mem_matching.mpr ⟨held', hheld', hmem⟩)
        exact ⟨answer, List.mem_cons_of_mem _ hanswer, x, hx, hle⟩

/-- Every newest matching event is sent in some answers. -/
theorem exists_answers (hlimit : 0 < filter.limit) {event : Event}
    (hevent : IsNewest Event.createdAt (matching filter relays) event) :
    ∃ answers, List.Forall₂ (Answers filter) relays answers ∧ ∃ answer ∈ answers, event ∈ answer := by
  obtain ⟨held, hheld, hmem⟩ := mem_matching.mp hevent.1
  have hnewest : IsNewest Event.createdAt (held.filter filter.isMatch) event :=
    ⟨hmem, fun x hx => hevent.2 x (mem_matching.mpr ⟨held, hheld, hx⟩)⟩
  obtain ⟨answer, hanswer, hin⟩ := hnewest.exists_isTop hlimit
  obtain ⟨before, after, rfl⟩ := List.append_of_mem hheld
  let send := fun held : List Event =>
    (byTime Event.createdAt (held.filter filter.isMatch)).take filter.limit
  have hsend : ∀ l : List (List Event), List.Forall₂ (Answers filter) l (l.map send) := by
    intro l
    rw [List.forall₂_map_right_iff]
    exact List.forall₂_same.mpr fun held _ => isTop_take _ _ _
  exact ⟨before.map send ++ answer :: after.map send,
    List.rel_append (hsend before) (.cons hanswer (hsend after)), answer, by simp, hin⟩

end

/-- **The newest event decides**: `resolveMetadata` finds nothing exactly if
no event matches, and otherwise its outcomes are those of the newest matching
events. -/
theorem resolves_iff {relays : List (List Event)} {hash : String}
    {outcome : Except String (Option BlobMetadata)} :
    Resolves L secretKeyHex relays hash outcome ↔
      (matching (metadataFilterByHash hash) relays = [] ∧ outcome = .ok none) ∨
      ∃ event, IsNewest Event.createdAt (matching (metadataFilterByHash hash) relays) event ∧
        outcome = outcomeOf L secretKeyHex event := by
  have hlimit : 0 < (metadataFilterByHash hash).limit := Nat.succ_pos _
  constructor
  · rintro ⟨arrived, ⟨answers, hanswers, harrived⟩, rfl⟩
    by_cases hnil : arrived = []
    · subst hnil
      refine Or.inl ⟨?_, resolveMetadata_nil⟩
      rw [List.eq_nil_iff_forall_not_mem]
      intro event hevent
      obtain ⟨answer, hanswer, x, hx, -⟩ := exists_newer_answer hanswers hlimit hevent
      exact List.not_mem_nil ((harrived x).mpr ⟨answer, hanswer, hx⟩)
    · obtain ⟨event, hnewest, hout⟩ :=
        resolveMetadata_spec L secretKeyHex hnil
      refine Or.inr ⟨event, ⟨?_, fun x hx => ?_⟩, hout⟩
      · exact mem_of_answers hanswers ((harrived event).mp hnewest.1)
      · obtain ⟨answer, hanswer, y, hy, hle⟩ := exists_newer_answer hanswers hlimit hx
        exact hle.trans (hnewest.2 y ((harrived y).mpr ⟨answer, hanswer, hy⟩))
  · rintro (⟨hnil, rfl⟩ | ⟨event, hnewest, rfl⟩)
    · refine ⟨[], ⟨relays.map fun held =>
        (byTime Event.createdAt (held.filter (metadataFilterByHash hash).isMatch)).take
          (metadataFilterByHash hash).limit, ?_, ?_⟩, rfl⟩
      · rw [List.forall₂_map_right_iff]
        exact List.forall₂_same.mpr fun held _ => isTop_take _ _ _
      · refine fun event => iff_of_false List.not_mem_nil ?_
        rintro ⟨answer, hanswer, hevent⟩
        obtain ⟨held, hheld, rfl⟩ := List.mem_map.mp hanswer
        have hmem := mem_matching.mpr ⟨held, hheld, mem_byTime.mp (List.mem_of_mem_take hevent)⟩
        rw [hnil] at hmem
        cases hmem
    · -- let the event arrive before everything else
      obtain ⟨answers, hanswers, hsent⟩ := exists_answers hlimit hnewest
      refine ⟨event :: answers.flatten, ⟨answers, hanswers, fun x => ?_⟩, ?_⟩
      · rw [List.mem_cons, List.mem_flatten]
        constructor
        · rintro (rfl | hx)
          · exact hsent
          · exact hx
        · exact Or.inr
      · refine (resolveMetadata_cons fun x hx => ?_).symm
        exact hnewest.2 x (mem_of_answers hanswers (List.mem_flatten.mp hx))

end NostrMesh.Api
