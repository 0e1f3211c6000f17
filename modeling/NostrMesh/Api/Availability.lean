/-
NostrMesh/Api/Availability.lean

Whether the API can tell a missing record from relays that cannot be reached.

`querySync` resolves with the events that arrive, whichever relays refuse the
connection or never answer, so that nothing arriving may mean two things; the
routes know one, and answer 404 (`replies_iff_of_not_someAnswer`).  Without any
relay to ask it never resolves, and the routes do not answer
(`not_replies_noRelays`).

Main result: `tellsAbsence_iff`.
-/
import NostrMesh.Api.HashBinding

namespace NostrMesh.Api

open Interleaving NewestFirst

/-! ### Relays that may be out of reach -/

/-- What comes of asking a relay. -/
inductive RelayOutcome
  /-- It answers, perhaps with no event. -/
  | answers (events : List Event)
  | refuses
  | timesOut

namespace RelayOutcome

def isAnswer : RelayOutcome → Bool
  | answers _ => true
  | refuses => false
  | timesOut => false

/-- The events that arrive from the relay. -/
def sent : RelayOutcome → List Event
  | answers events => events
  | refuses => []
  | timesOut => []

theorem sent_of_not_isAnswer {outcome : RelayOutcome} (h : outcome.isAnswer = false) :
    outcome.sent = [] := by
  rcases outcome with events | - | -
  · cases h
  · rfl
  · rfl

end RelayOutcome

/-- Some relay answers the query. -/
def SomeAnswer (outcomes : List RelayOutcome) : Prop := ∃ outcome ∈ outcomes, outcome.isAnswer

instance (outcomes : List RelayOutcome) : Decidable (SomeAnswer outcomes) :=
  inferInstanceAs (Decidable (∃ outcome ∈ outcomes, outcome.isAnswer = true))

/-- `pool.querySync`: the events of the relays arrive, in any order, each any
number of times.  It resolves when each relay has answered or failed, and never
does if there is none. -/
structure Received (outcomes : List RelayOutcome) (arrived : List Event) : Prop where
  ne_nil : outcomes ≠ []
  mem_iff : ∀ event, event ∈ arrived ↔ ∃ outcome ∈ outcomes, event ∈ outcome.sent

theorem received_flatMap {outcomes : List RelayOutcome} (hne : outcomes ≠ []) :
    Received outcomes (outcomes.flatMap RelayOutcome.sent) := ⟨hne, fun _ => List.mem_flatMap⟩

/-- Nothing arrives if no relay answers. -/
theorem Received.eq_nil {outcomes : List RelayOutcome} {arrived : List Event}
    (h : Received outcomes arrived) (hnone : ¬ SomeAnswer outcomes) : arrived = [] := by
  refine List.eq_nil_iff_forall_not_mem.mpr fun event hevent => ?_
  obtain ⟨outcome, houtcome, hsent⟩ := (h.mem_iff event).mp hevent
  have hno : outcome.isAnswer = false :=
    Bool.eq_false_iff.mpr fun hyes => hnone ⟨outcome, houtcome, hyes⟩
  rw [RelayOutcome.sent_of_not_isAnswer hno] at hsent
  cases hsent

theorem received_iff_of_not_someAnswer {outcomes : List RelayOutcome} {arrived : List Event}
    (hne : outcomes ≠ []) (hnone : ¬ SomeAnswer outcomes) :
    Received outcomes arrived ↔ arrived = [] := by
  refine ⟨fun h => h.eq_nil hnone, ?_⟩
  rintro rfl
  have hall : outcomes.flatMap RelayOutcome.sent = [] := (received_flatMap hne).eq_nil hnone
  exact hall ▸ received_flatMap hne

/-! ### The routes of `/events` -/

/-- The filters that the router asks with. -/
inductive EventsFilter
  | byId (ids : List String) (limit : ℕ)
  | byHash (filter : Filter)
  deriving DecidableEq, Repr

/-- The answer to a filter is the events that `querySync` resolves with. -/
abbrev EventsHandler (α : Type) := Prog EventsFilter (fun _ => List Event) α

inductive EventsAnswer
  | event (event : Event)
  | events (events : List Event)
  | error (status : ℕ) (error : String)
  deriving DecidableEq

def fetchEvents (filter : EventsFilter) : EventsHandler (List Event) := do
  let events ← Prog.perform filter
  return dedupeEvents events

def fetchEventById (eventId : String) : EventsHandler (Option Event) := do
  let events ← fetchEvents (.byId [eventId] 1)
  return events.head?

/-- `GET /:eventId`. -/
def getEvent (eventId : String) : EventsHandler EventsAnswer := do
  match ← fetchEventById eventId with
  | none => return .error 404 "Event not found"
  | some event => return .event event

/-- `GET /`, with the query parameter `hash` if it is a string. -/
def getEvents (hash : Option String) : EventsHandler EventsAnswer :=
  let hash := ((hash.map Js.trim).map Js.toLowerCase).getD ""
  if hash = "" then return .error 400 "Missing query parameter: hash"
  else if !Blossom.isHash hash then return .error 400 "Invalid hash format"
  else do
    let events ← fetchEvents (.byHash (metadataFilterByHash hash))
    return .events events

/-! ### Statuses -/

def Answer.status : Answer → ℕ
  | .created _ _ _ _ => 201
  | .metadata _ _ => 200
  | .file _ _ _ => 200
  | .deleted _ _ => 200
  | .error status _ => status

def EventsAnswer.status : EventsAnswer → ℕ
  | .event _ => 200
  | .events _ => 200
  | .error status _ => status

/-- Bad gateway, service unavailable, gateway timeout. -/
def IsUpstreamError (status : ℕ) : Prop := status = 502 ∨ status = 503 ∨ status = 504

instance (status : ℕ) : Decidable (IsUpstreamError status) :=
  inferInstanceAs (Decidable (_ ∨ _))

/-- The read routes for one blob or event. -/
inductive ReadRoute
  | blob (hash : String)
  | content (hash : String)
  | event (eventId : String)
  deriving DecidableEq, Repr

/-- The route asks the relays: a malformed hash is refused before. -/
def ReadRoute.Asks : ReadRoute → Prop
  | .blob name => ∃ hash, normalizeHash name = .ok hash
  | .content name => ∃ hash, normalizeHash name = .ok hash
  | .event _ => True

section

variable (L : Library) (config : Config) (outcomes : List RelayOutcome)

/-- Operations of the blob routes with these relays; a query may answer whatever
they send. -/
def asking : (o : Op) → Unit → Res o → Unit → Prop
  | .querySync _ => fun _ events _ => Received outcomes events
  | .now => fun _ _ _ => True
  | .putUpload _ _ => fun _ _ _ => True
  | .getBlob _ _ => fun _ _ _ => True
  | .publish _ => fun _ _ _ => True

/-- Operations of the router of `/events`. -/
def yielding : EventsFilter → Unit → List Event → Unit → Prop :=
  fun _ _ events _ => Received outcomes events

/-- A status that the route can answer with these relays. -/
def Replies : ReadRoute → ℕ → Prop
  | .blob name, status => ∃ answer,
      Runs (asking outcomes) (getMetadata L config name) () answer () ∧ answer.status = status
  | .content name, status => ∃ answer,
      Runs (asking outcomes) (getContent L config name) () answer () ∧ answer.status = status
  | .event eventId, status => ∃ answer,
      Runs (yielding outcomes) (getEvent eventId) () answer () ∧ answer.status = status

/-- A 404 means that a relay has answered, and if none has, the route answers,
with a status that says that the fault is upstream. -/
structure TellsAbsence (route : ReadRoute) : Prop where
  notFound : Replies L config outcomes route 404 → SomeAnswer outcomes
  answers : route.Asks → ¬ SomeAnswer outcomes → ∃ status, Replies L config outcomes route status
  upstream : route.Asks → ¬ SomeAnswer outcomes →
    ∀ status, Replies L config outcomes route status → IsUpstreamError status

end

variable {L : Library} {config : Config} {outcomes : List RelayOutcome} {route : ReadRoute}

/-! ### What the routes make of what arrives -/

/-- What follows the query goes on with what was resolved. -/
theorem runs_asking_resolveHash {α : Type} {f : Except String (Option BlobMetadata) → Handler α}
    {hash : String} {a : α} {u : Unit} :
    Runs (asking outcomes) ((resolveHash L config hash).bind f) () a u ↔
      ∃ arrived, Received outcomes arrived ∧
        Runs (asking outcomes) (f (resolveMetadata L config.nostrSecretKey arrived)) () a u := by
  simp only [resolveHash, perform, Prog.bind_eq, Prog.perform_bind, Prog.pure_eq, Prog.op_bind,
    Prog.ret_bind, runs_op_iff, asking]
  constructor
  · rintro ⟨arrived, _, hreceived, h⟩
    exact ⟨arrived, hreceived, h⟩
  · rintro ⟨arrived, hreceived, h⟩
    exact ⟨arrived, (), hreceived, h⟩

/-- The event route answers with the first of the newest events. -/
theorem runs_getEvent_iff {eventId : String} {answer : EventsAnswer} :
    Runs (yielding outcomes) (getEvent eventId) () answer () ↔
      ∃ arrived, Received outcomes arrived ∧
        answer = (dedupeEvents arrived).head?.elim (.error 404 "Event not found") .event := by
  simp only [getEvent, fetchEventById, fetchEvents, Prog.bind_eq, Prog.perform_bind, Prog.op_bind,
    Prog.pure_eq, Prog.ret_bind, runs_op_iff, yielding]
  constructor
  · rintro ⟨arrived, _, hreceived, h⟩
    refine ⟨arrived, hreceived, ?_⟩
    rcases hhead : (dedupeEvents arrived).head? with - | event <;> rw [hhead] at h
    · exact (runs_ret_iff.mp h).1
    · exact (runs_ret_iff.mp h).1
  · rintro ⟨arrived, hreceived, rfl⟩
    refine ⟨arrived, (), hreceived, ?_⟩
    rcases (dedupeEvents arrived).head? with - | event
    · exact .ret _ _
    · exact .ret _ _

/-- A route that asks answers when the query resolves. -/
theorem exists_received_of_replies (hasks : route.Asks) {status : ℕ}
    (h : Replies L config outcomes route status) : ∃ arrived, Received outcomes arrived := by
  rcases route with name | name | eventId
  · obtain ⟨hash, hname⟩ := hasks
    obtain ⟨answer, hruns, -⟩ := h
    simp only [getMetadata, hname, Prog.bind_eq, runs_asking_resolveHash] at hruns
    exact hruns.imp fun _ => And.left
  · obtain ⟨hash, hname⟩ := hasks
    obtain ⟨answer, hruns, -⟩ := h
    simp only [getContent, Prog.bind_eq, runs_bind_iff] at hruns
    obtain ⟨result, _, hcontent, -⟩ := hruns
    simp only [decryptedContent, hname, Prog.bind_eq, runs_asking_resolveHash] at hcontent
    exact hcontent.imp fun _ => And.left
  · obtain ⟨answer, hruns, -⟩ := h
    exact (runs_getEvent_iff.mp hruns).imp fun _ => And.left

/-- **Without a relay to ask** a route that asks never answers. -/
theorem not_replies_noRelays (hasks : route.Asks) (status : ℕ) : ¬ Replies L config [] route status := by
  intro h
  obtain ⟨arrived, hreceived⟩ := exists_received_of_replies hasks h
  exact hreceived.ne_nil rfl

theorem runs_getMetadata_of_not_someAnswer (hne : outcomes ≠ []) (hnone : ¬ SomeAnswer outcomes)
    {name hash : String} (hname : normalizeHash name = .ok hash) {answer : Answer} :
    Runs (asking outcomes) (getMetadata L config name) () answer () ↔
      answer = .error 404 "Metadata not found" := by
  simp only [getMetadata, hname, Prog.bind_eq, runs_asking_resolveHash,
    received_iff_of_not_someAnswer hne hnone, exists_eq_left, resolveMetadata_nil, Prog.pure_eq,
    runs_ret_iff, and_true]

theorem runs_getContent_of_not_someAnswer (hne : outcomes ≠ []) (hnone : ¬ SomeAnswer outcomes)
    {name hash : String} (hname : normalizeHash name = .ok hash) {answer : Answer} :
    Runs (asking outcomes) (getContent L config name) () answer () ↔
      answer = .error 404 "Blob not found" := by
  have hcontent : ∀ {result u}, Runs (asking outcomes) (decryptedContent L config name) ()
      result u ↔ result = .error (.error 404 "Blob not found") := by
    intro result u
    simp only [decryptedContent, hname, Prog.bind_eq, runs_asking_resolveHash,
      received_iff_of_not_someAnswer hne hnone, exists_eq_left, resolveMetadata_nil, Prog.pure_eq,
      runs_ret_iff, and_true]
  simp only [getContent, Prog.bind_eq, runs_bind_iff, hcontent]
  constructor
  · rintro ⟨_, _, rfl, h⟩
    exact (runs_ret_iff.mp h).1
  · rintro rfl
    exact ⟨_, (), rfl, .ret _ _⟩

/-- The list route answers an empty list if nothing arrives. -/
theorem runs_getEvents_of_not_someAnswer (hne : outcomes ≠ []) (hnone : ¬ SomeAnswer outcomes)
    {name : String} (hname : Blossom.isHash (Js.toLowerCase (Js.trim name)) = true)
    {answer : EventsAnswer} :
    Runs (yielding outcomes) (getEvents (some name)) () answer () ↔ answer = .events [] := by
  have hempty : Js.toLowerCase (Js.trim name) ≠ "" := by
    intro hempty
    rw [hempty] at hname
    cases hname
  simp only [getEvents, Option.map_some, Option.getD_some, if_neg hempty, hname, Bool.not_true,
    Bool.false_eq_true, if_false, fetchEvents, Prog.bind_eq, Prog.perform_bind, Prog.op_bind,
    Prog.pure_eq, Prog.ret_bind, runs_op_iff, runs_ret_iff, yielding,
    received_iff_of_not_someAnswer hne hnone]
  constructor
  · rintro ⟨_, _, rfl, rfl, -⟩
    rfl
  · rintro rfl
    exact ⟨[], (), rfl, rfl, trivial⟩

/-- **Nothing arriving is answered with 404**, whatever the reason. -/
theorem replies_iff_of_not_someAnswer (hne : outcomes ≠ []) (hasks : route.Asks)
    (hnone : ¬ SomeAnswer outcomes) {status : ℕ} :
    Replies L config outcomes route status ↔ status = 404 := by
  rcases route with name | name | eventId
  · obtain ⟨hash, hname⟩ := hasks
    simp [Replies, runs_getMetadata_of_not_someAnswer hne hnone hname, Answer.status, eq_comm]
  · obtain ⟨hash, hname⟩ := hasks
    simp [Replies, runs_getContent_of_not_someAnswer hne hnone hname, Answer.status, eq_comm]
  · have hhead : (dedupeEvents []).head? = none := rfl
    simp [Replies, runs_getEvent_iff, received_iff_of_not_someAnswer hne hnone, hhead,
      EventsAnswer.status, eq_comm]

/-- A malformed hash is not looked for. -/
theorem replies_of_not_asks (hasks : ¬ route.Asks) {status : ℕ}
    (h : Replies L config outcomes route status) : status = 500 := by
  have hmalformed : ∀ name, (¬ ∃ hash, normalizeHash name = .ok hash) →
      ∃ e, normalizeHash name = .error e := by
    intro name hno
    rcases hname : normalizeHash name with e | hash
    · exact ⟨e, rfl⟩
    · exact absurd ⟨hash, hname⟩ hno
  rcases route with name | name | eventId
  · obtain ⟨e, hname⟩ := hmalformed name hasks
    obtain ⟨answer, hruns, rfl⟩ := h
    simp only [getMetadata, hname, Prog.pure_eq, runs_ret_iff] at hruns
    rw [hruns.1]
    rfl
  · obtain ⟨e, hname⟩ := hmalformed name hasks
    obtain ⟨answer, hruns, rfl⟩ := h
    simp only [getContent, decryptedContent, hname, Prog.pure_eq, Prog.bind_eq, Prog.ret_bind,
      runs_ret_iff] at hruns
    rw [hruns.1]
    rfl
  · exact absurd trivial hasks

/-! ### Main result -/

/-- **The API tells absence from failure** exactly if a relay answers, or no
relay is asked. -/
theorem tellsAbsence_iff :
    TellsAbsence L config outcomes route ↔ SomeAnswer outcomes ∨ ¬ route.Asks := by
  constructor
  · rintro ⟨hnotFound, hanswers, -⟩
    by_cases hasks : route.Asks
    · refine Or.inl (by_contra fun hnone => ?_)
      -- without relays there is no answer, and with others it is 404
      by_cases hne : outcomes = []
      · subst hne
        obtain ⟨status, hreplies⟩ := hanswers hasks hnone
        exact not_replies_noRelays hasks status hreplies
      · exact hnone (hnotFound ((replies_iff_of_not_someAnswer hne hasks hnone).mpr rfl))
    · exact Or.inr hasks
  · intro hcases
    by_cases hasks : route.Asks
    · have hsome : SomeAnswer outcomes := hcases.resolve_right (not_not.mpr hasks)
      exact ⟨fun _ => hsome, fun _ hnone => absurd hsome hnone, fun _ hnone => absurd hsome hnone⟩
    · refine ⟨fun h => ?_, fun h => absurd h hasks, fun h => absurd h hasks⟩
      cases replies_of_not_asks hasks h

/-- With one relay, which refuses, `GET /blobs/:hash` answers 404. -/
theorem not_tellsAbsence_refused :
    Replies sampleLibrary ⟨"http://localhost:3000", sampleSecret⟩ [.refuses] (.blob sampleHash) 404 ∧
    ¬ TellsAbsence sampleLibrary ⟨"http://localhost:3000", sampleSecret⟩ [.refuses]
      (.blob sampleHash) := by
  have hasks : (ReadRoute.blob sampleHash).Asks :=
    ⟨sampleHash, normalizeHash_of_isHash isHash_sampleHash⟩
  have hreplies : Replies sampleLibrary ⟨"http://localhost:3000", sampleSecret⟩ [.refuses]
      (.blob sampleHash) 404 :=
    (replies_iff_of_not_someAnswer (by simp) hasks (by decide)).mpr rfl
  exact ⟨hreplies, fun h => absurd (h.notFound hreplies) (by decide)⟩

end NostrMesh.Api
