/-
NostrMesh/Relay/Replies.lean

How often the relay answers an `EVENT` message with `OK`, whatever fails
underneath: the rate limiter, the user lookup, the statements of the store,
the broadcast.

`EventMessageHandler.handleMessage` has a `try` around the strategy alone.
What the rate limiter or the lookup throws before gets no answer.  The
strategies answer before they broadcast, so that a broadcast that throws is
answered a second time, by the `catch` of the handler or of the strategy.
`Misanswered` lists these cases.

Main results: `exactlyOneOk_iff`, and `replies_over`, which says that over a store
without a fault of the broadcast the replies are those of `handleEvent`.
-/
import NostrMesh.Relay.AdmissionPolicy
import NostrMesh.Relay.StoreInvariant

namespace NostrMesh.Relay.EventMessageHandler

open Traffic

/-! ### What the handler depends on -/

/-- What is thrown: an `Error`, or a value that is none. -/
inductive Thrown
  | error (message : String)
  | value
  deriving DecidableEq, Repr

/-- Everything around the handler of one message, and how it turns out. -/
structure Surroundings where
  runtime : Runtime
  relayPublicKey : String
  settings : Settings
  clientAddress : String
  now : ℤ
  /-- `rateLimiter.hit`, at each of the rate limits. -/
  hit : (index : ℕ) → (key : String) → (period rate : ℤ) → Except Thrown Bool
  findByPubkey : (pubkey : String) → Except Thrown (Option User)
  deleteByPubkeyAndIds : Except Thrown ℕ
  insert : Except Thrown ℕ
  upsert : Except Thrown ℕ
  /-- What the broadcast throws. -/
  broadcast : Option Thrown

/-- `["OK", eventId, successful, message]`. -/
structure CommandResult where
  eventId : String
  successful : Bool
  message : String
  deriving DecidableEq, Repr

/-- The replies, and what is thrown in the end. -/
abbrev Replies := List CommandResult × Option Thrown

variable (W : Surroundings) (event : Event)

/-! ### The rate limiter -/

def KindOrRange.toText : KindOrRange → String
  | .kind kind => toString kind
  | .range first last => "[" ++ toString first ++ "," ++ toString last ++ "]"

def rateLimitKey (limit : EventRateLimit) : String :=
  match limit.kinds with
  | some kinds => event.pubkey ++ ":events:" ++ toString limit.period ++ ":[" ++
      ",".intercalate (kinds.map KindOrRange.toText) ++ "]"
  | none => event.pubkey ++ ":events:" ++ toString limit.period

/-- The rate limits that are hit, with their places in the list. -/
def applicableRateLimits : List (EventRateLimit × ℕ) :=
  let rateLimits := W.settings.eventLimits.rateLimits.getD []
  let whitelists := W.settings.eventLimits.whitelists
  if W.relayPublicKey = event.pubkey then []
  else if (whitelists.bind EventWhitelists.pubkeys).any fun pubkeys =>
    event.pubkey ∈ pubkeys then []
  else if (whitelists.bind EventWhitelists.ipAddresses).any fun addresses =>
    W.clientAddress ∈ addresses then []
  else rateLimits.zipIdx.filter fun entry =>
    entry.1.kinds.all fun kinds => kinds.any (isEventKindOrRangeMatch event)

/-- What the rate limiter answers at one of them. -/
def hitOf (entry : EventRateLimit × ℕ) : Except Thrown Bool :=
  W.hit entry.2 (rateLimitKey event entry.1) entry.1.period entry.1.rate

/-- The loop of `isRateLimited`. -/
def hitAll : List (EventRateLimit × ℕ) → Bool → Except Thrown Bool
  | [], limited => .ok limited
  | entry :: entries, limited =>
      match hitOf W event entry with
      | .error t => .error t
      | .ok isRateLimited => hitAll entries (limited || isRateLimited)

def isRateLimited : Except Thrown Bool := hitAll W event (applicableRateLimits W event) false

/-! ### The other checks -/

def isEventValid : Option String :=
  if !isEventIdValid W.runtime event then some "invalid: event id does not match"
  else if !isEventSignatureValid W.runtime event then
    some "invalid: event signature verification failed"
  else none

/-- `isUserAdmitted`, with a lookup that may throw. -/
def isAdmitted : Except Thrown (Option String) :=
  if asksForUser W.relayPublicKey W.settings event then
    match W.findByPubkey event.pubkey with
    | .error t => .error t
    | .ok user => .ok (checkUser W.settings user)
  else .ok none

/-! ### The strategies -/

def ok (successful : Bool) (message : String) : CommandResult := ⟨event.id, successful, message⟩

/-- The reply to a row count, and the broadcast of what is new. -/
def announce (count : ℕ) : Replies :=
  if count = 0 then ([ok event true "duplicate:"], none) else ([ok event true ""], W.broadcast)

/-- `create` answers 0 for an insert that is rejected. -/
def executeDefault : Replies := announce W event (W.insert.toOption.getD 0)

def executeDelete : Replies :=
  if (eventIdsToDelete event).isEmpty then executeDefault W event
  else
    match W.deleteByPubkeyAndIds with
    | .error t => ([], some t)
    | .ok _ => executeDefault W event

def executeEphemeral : Replies := ([ok event true ""], W.broadcast)

/-- The body of both replaceable strategies. -/
def upsertAndAnnounce : Replies :=
  match W.upsert with
  | .error t => ([], some t)
  | .ok count => announce W event count

/-- The `catch` of the replaceable strategy, which is silent about values
that are no errors. -/
def caughtReplaceable : Thrown → List CommandResult
  | .error message =>
      if Js.endsWith message
          "duplicate key value violates unique constraint \"events_event_id_unique\"" then
        [ok event false "rejected: event already exists"]
      else [ok event false "error: "]
  | .value => []

def executeReplaceable : Replies :=
  match upsertAndAnnounce W event with
  | (replies, none) => (replies, none)
  | (replies, some t) => (replies ++ caughtReplaceable event t, none)

def execute : Replies :=
  match eventStrategyFactory event with
  | .replaceable => executeReplaceable W event
  | .ephemeral => executeEphemeral W event
  | .delete => executeDelete W event
  | .parameterizedReplaceable => upsertAndAnnounce W event
  | .default => executeDefault W event

/-- The `catch` around the strategy. -/
def caught : Replies → Replies
  | (replies, none) => (replies, none)
  | (replies, some _) => (replies ++ [ok event false "error: unable to process event"], none)

def handleMessage : Replies :=
  match isEventValid W event with
  | some reason => ([ok event false reason], none)
  | none =>
      if isExpiredEvent W.runtime W.now event then ([ok event false "event is expired"], none)
      else
        match isRateLimited W event with
        | .error t => ([], some t)
        | .ok true => ([ok event false "rate-limited: slow down"], none)
        | .ok false =>
            match canAcceptEvent W.relayPublicKey W.now W.settings.eventLimits event with
            | some reason => ([ok event false reason], none)
            | none =>
                match isAdmitted W event with
                | .error t => ([], some t)
                | .ok (some reason) => ([ok event false reason], none)
                | .ok none => caught event (execute W event)

/-- One `OK`, which carries the id of the event. -/
def Answers (replies : Replies) : Prop :=
  ∃ reply, replies.1 = [reply] ∧ reply.eventId = event.id

def ExactlyOneOk : Prop := Answers event (handleMessage W event)

/-! ### What goes wrong -/

/-- The event is valid, and not expired. -/
def IsLive : Prop :=
  isEventValid W event = none ∧ isExpiredEvent W.runtime W.now event = false

/-- No rate limit refuses the event, and the limits accept it. -/
def IsAccepted : Prop :=
  (∀ entry ∈ applicableRateLimits W event, hitOf W event entry = .ok false) ∧
    canAcceptEvent W.relayPublicKey W.now W.settings.eventLimits event = none

/-- The author needs no admission, or has it. -/
def IsLetIn : Prop :=
  asksForUser W.relayPublicKey W.settings event = true →
    ∃ user, W.findByPubkey event.pubkey = .ok user ∧ checkUser W.settings user = none

/-- The store finds the event new, or it is not to be stored. -/
def IsNew : Prop :=
  match eventStrategyFactory event with
  | .ephemeral => True
  | .default => ∃ count, W.insert = .ok count ∧ count ≠ 0
  | .delete => (eventIdsToDelete event = [] ∨ ∃ count, W.deleteByPubkeyAndIds = .ok count) ∧
      ∃ count, W.insert = .ok count ∧ count ≠ 0
  | .replaceable | .parameterizedReplaceable => ∃ count, W.upsert = .ok count ∧ count ≠ 0

/-- The cases in which there is no answer, or a second one. -/
inductive Misanswered : Prop
  /-- The rate limiter throws: no answer. -/
  | rateLimiter (entry : EventRateLimit × ℕ) (t : Thrown) : IsLive W event →
      entry ∈ applicableRateLimits W event → hitOf W event entry = .error t → Misanswered
  /-- The lookup throws: no answer. -/
  | lookup (t : Thrown) : IsLive W event → IsAccepted W event →
      asksForUser W.relayPublicKey W.settings event = true →
      W.findByPubkey event.pubkey = .error t → Misanswered
  /-- The broadcast throws: two answers. -/
  | broadcast (t : Thrown) : IsLive W event → IsAccepted W event → IsLetIn W event → IsNew W event →
      W.broadcast = some t → (eventStrategyFactory event = .replaceable → t ≠ .value) → Misanswered
  /-- The upsert throws something that is no error: no answer. -/
  | upsert : IsLive W event → IsAccepted W event → IsLetIn W event →
      eventStrategyFactory event = .replaceable → W.upsert = .error .value → Misanswered

/-! ### One message, step by step -/

variable {W event}

theorem hitAll_eq_error_iff {entries : List (EventRateLimit × ℕ)} {limited : Bool} :
    (∃ t, hitAll W event entries limited = .error t) ↔
      ∃ entry ∈ entries, ∃ t, hitOf W event entry = .error t := by
  induction entries generalizing limited with
  | nil => simp [hitAll]
  | cons entry entries ih =>
      rcases e : hitOf W event entry with t | isRateLimited
      · simp [hitAll, e]
      · simp [hitAll, e, ih]

theorem hitAll_eq_false_iff {entries : List (EventRateLimit × ℕ)} {limited : Bool} :
    hitAll W event entries limited = .ok false ↔
      limited = false ∧ ∀ entry ∈ entries, hitOf W event entry = .ok false := by
  induction entries generalizing limited with
  | nil => simp [hitAll]
  | cons entry entries ih =>
      rcases e : hitOf W event entry with t | isRateLimited
      · simp [hitAll, e]
      · simp [hitAll, e, ih, and_assoc]

theorem answers_ok (successful : Bool) (message : String) (t : Option Thrown) :
    Answers event ([ok event successful message], t) := ⟨_, rfl, rfl⟩

theorem not_answers_nil (t : Option Thrown) : ¬ Answers event ([], t) := by
  simp [Answers]

/-- After the reply of a strategy only the broadcast can throw. -/
theorem answers_caught_announce {count : ℕ} :
    Answers event (caught event (announce W event count)) ↔ (count ≠ 0 → W.broadcast = none) := by
  by_cases hc : count = 0
  · simpa [announce, hc, caught] using answers_ok true "duplicate:" none
  · rcases e : W.broadcast with - | t
    · simpa [announce, hc, e, caught] using answers_ok true "" none
    · simp [announce, hc, e, caught, Answers]

theorem answers_caught_executeDefault :
    Answers event (caught event (executeDefault W event)) ↔
      ((∃ count, W.insert = .ok count ∧ count ≠ 0) → W.broadcast = none) := by
  rcases e : W.insert with t | count
  · simp [executeDefault, e, Except.toOption, answers_caught_announce]
  · simp [executeDefault, e, Except.toOption, answers_caught_announce]

theorem answers_caught_upsertAndAnnounce :
    Answers event (caught event (upsertAndAnnounce W event)) ↔
      ((∃ count, W.upsert = .ok count ∧ count ≠ 0) → W.broadcast = none) := by
  rcases e : W.upsert with t | count
  · simpa [upsertAndAnnounce, e, caught] using answers_ok false _ none
  · simp [upsertAndAnnounce, e, answers_caught_announce]

theorem answers_caughtReplaceable (t : Thrown) :
    Answers event (caughtReplaceable event t, none) ↔ t ≠ .value := by
  cases t with
  | value => simp [caughtReplaceable, not_answers_nil]
  | error message =>
      refine iff_of_true ?_ (by simp)
      simp only [caughtReplaceable]
      split
      · exact answers_ok false _ none
      · exact answers_ok false _ none

/-- The replaceable strategy is silent about values that are no errors: the
reply before the broadcast stays the only one, a failed upsert gets none. -/
theorem answers_caught_executeReplaceable :
    Answers event (caught event (executeReplaceable W event)) ↔
      ((∃ count, W.upsert = .ok count ∧ count ≠ 0) → ∀ t, W.broadcast = some t → t = .value) ∧
        W.upsert ≠ .error .value := by
  rcases e : W.upsert with t | count
  · simpa [executeReplaceable, upsertAndAnnounce, e, caught] using answers_caughtReplaceable t
  by_cases hc : count = 0
  · -- nothing new, and no broadcast
    simpa [executeReplaceable, upsertAndAnnounce, e, announce, hc, caught] using
      answers_ok true "duplicate:" none
  rcases hb : W.broadcast with - | t
  · simpa [executeReplaceable, upsertAndAnnounce, e, announce, hc, caught, hb] using
      answers_ok true "" none
  cases t with
  | value =>
      simpa [executeReplaceable, upsertAndAnnounce, e, announce, hc, caught, hb,
        caughtReplaceable] using answers_ok true "" none
  | error message =>
      -- the `catch` of the strategy replies once more
      obtain ⟨reply, hreply, -⟩ :=
        (@answers_caughtReplaceable event (.error message)).mpr (by simp)
      simp only at hreply
      simp [executeReplaceable, upsertAndAnnounce, e, announce, hc, caught, hb, hreply, Answers]

theorem answers_caught_executeDelete :
    Answers event (caught event (executeDelete W event)) ↔
      (((eventIdsToDelete event = [] ∨ ∃ count, W.deleteByPubkeyAndIds = .ok count) ∧
        ∃ count, W.insert = .ok count ∧ count ≠ 0) → W.broadcast = none) := by
  by_cases hids : eventIdsToDelete event = []
  · simpa [executeDelete, hids] using answers_caught_executeDefault
  rcases e : W.deleteByPubkeyAndIds with t | count
  · simpa [executeDelete, hids, e, caught] using answers_ok false _ none
  · simpa [executeDelete, hids, e] using answers_caught_executeDefault

theorem answers_caught_executeEphemeral :
    Answers event (caught event (executeEphemeral W event)) ↔ W.broadcast = none := by
  rcases e : W.broadcast with - | t
  · simpa [executeEphemeral, e, caught] using answers_ok true "" none
  · simp [executeEphemeral, e, caught, Answers]

/-- What one accepted event is answered, over the five strategies. -/
theorem answers_caught_execute :
    Answers event (caught event (execute W event)) ↔
      (IsNew W event → ∀ t, W.broadcast = some t →
        eventStrategyFactory event = .replaceable ∧ t = .value) ∧
      ¬ (eventStrategyFactory event = .replaceable ∧ W.upsert = .error .value) := by
  have silent (P : Prop) : (P → W.broadcast = none) ↔
      (P → ∀ t, W.broadcast = some t → False) := by
    simp only [Option.eq_none_iff_forall_ne_some, ne_eq, imp_false]
  rcases e : eventStrategyFactory event with - | - | - | - | -
  · simpa [execute, IsNew, e] using answers_caught_executeReplaceable
  · simpa [execute, IsNew, e] using
      answers_caught_executeEphemeral.trans (true_imp_iff.symm.trans (silent True))
  · simpa [execute, IsNew, e] using answers_caught_executeDelete.trans (silent _)
  · simpa [execute, IsNew, e] using answers_caught_upsertAndAnnounce.trans (silent _)
  · simpa [execute, IsNew, e] using answers_caught_executeDefault.trans (silent _)

/-! ### Main result -/

variable (W event)

/-- The event gets as far as the strategies. -/
def IsPassed : Prop := IsLive W event ∧ IsAccepted W event ∧ IsLetIn W event

variable {W event}

theorem isAdmitted_eq_error_iff {t : Thrown} :
    isAdmitted W event = .error t ↔ asksForUser W.relayPublicKey W.settings event = true ∧
      W.findByPubkey event.pubkey = .error t := by
  by_cases hasks : asksForUser W.relayPublicKey W.settings event = true
  · rcases e : W.findByPubkey event.pubkey with t' | user <;> simp [isAdmitted, hasks, e]
  · simp [isAdmitted, hasks]

theorem isAdmitted_eq_none_iff : isAdmitted W event = .ok none ↔ IsLetIn W event := by
  by_cases hasks : asksForUser W.relayPublicKey W.settings event = true
  · rcases e : W.findByPubkey event.pubkey with t' | user <;> simp [isAdmitted, IsLetIn, hasks, e]
  · simp [isAdmitted, IsLetIn, hasks]

theorem isRateLimited_eq_error_iff : (∃ t, isRateLimited W event = .error t) ↔
    ∃ entry ∈ applicableRateLimits W event, ∃ t, hitOf W event entry = .error t :=
  hitAll_eq_error_iff

theorem isAccepted_iff : IsAccepted W event ↔ isRateLimited W event = .ok false ∧
    canAcceptEvent W.relayPublicKey W.now W.settings.eventLimits event = none := by
  simp [IsAccepted, isRateLimited, hitAll_eq_false_iff]

/-- The handler up to the strategy: an early exit is one reply, an error of the
rate limiter or of the lookup none. -/
theorem answers_handleMessage :
    Answers event (handleMessage W event) ↔
      (IsLive W event →
        ∀ entry ∈ applicableRateLimits W event, ∀ t, hitOf W event entry ≠ .error t) ∧
      (IsLive W event → IsAccepted W event → asksForUser W.relayPublicKey W.settings event = true →
        ∀ t, W.findByPubkey event.pubkey ≠ .error t) ∧
      (IsPassed W event → Answers event (caught event (execute W event))) := by
  have hhits : (∀ entry ∈ applicableRateLimits W event, ∀ t, hitOf W event entry ≠ .error t) ↔
      ∀ t, isRateLimited W event ≠ .error t := by
    have herror := @isRateLimited_eq_error_iff W event
    grind
  rw [hhits]
  simp only [IsPassed, isAccepted_iff, ← isAdmitted_eq_none_iff]
  -- the checks in their order, each early exit first
  rcases hvalid : isEventValid W event with - | reason
  rotate_left
  · simpa [handleMessage, hvalid, IsLive] using answers_ok false reason none
  rcases hexpired : isExpiredEvent W.runtime W.now event with - | -
  rotate_left
  · simpa [handleMessage, hvalid, hexpired, IsLive] using answers_ok false _ none
  rcases hlimited : isRateLimited W event with t | - | -
  · simp [handleMessage, hvalid, hexpired, hlimited, IsLive, not_answers_nil]
  rotate_left
  · simpa [handleMessage, hvalid, hexpired, hlimited, IsLive] using answers_ok false _ none
  rcases haccept : canAcceptEvent W.relayPublicKey W.now W.settings.eventLimits event
    with - | reason
  rotate_left
  · simpa [handleMessage, hvalid, hexpired, hlimited, haccept, IsLive] using
      answers_ok false reason none
  have hlookup : (asksForUser W.relayPublicKey W.settings event = true →
      ∀ t, W.findByPubkey event.pubkey ≠ .error t) ↔ ∀ t, isAdmitted W event ≠ .error t := by
    simp only [ne_eq, isAdmitted_eq_error_iff, not_and]
    exact forall_comm
  rcases hadmitted : isAdmitted W event with t | - | reason
  · simp [handleMessage, hvalid, hexpired, hlimited, haccept, hlookup, hadmitted, IsLive,
      not_answers_nil]
  · simp [handleMessage, hvalid, hexpired, hlimited, haccept, hlookup, hadmitted, IsLive]
  · simpa [handleMessage, hvalid, hexpired, hlimited, haccept, hlookup, hadmitted, IsLive] using
      answers_ok false reason none

/-- **One `OK` for an event**, unless the rate limiter or the lookup throws, the
broadcast throws after the reply, or the upsert of a replaceable event throws
something that is no error. -/
theorem exactlyOneOk_iff : ExactlyOneOk W event ↔ ¬ Misanswered W event := by
  rw [ExactlyOneOk, answers_handleMessage, answers_caught_execute]
  constructor
  · rintro ⟨hrate, hlookup, hpassed⟩ h
    cases h with
    | rateLimiter entry t hlive hentry ht => exact hrate hlive entry hentry t ht
    | lookup t hlive haccepted hasks ht => exact hlookup hlive haccepted hasks t ht
    | broadcast t hlive haccepted hlet hnew ht hvalue =>
        obtain ⟨hreplaceable, rfl⟩ := (hpassed ⟨hlive, haccepted, hlet⟩).1 hnew t ht
        exact hvalue hreplaceable rfl
    | upsert hlive haccepted hlet hreplaceable ht =>
        exact (hpassed ⟨hlive, haccepted, hlet⟩).2 ⟨hreplaceable, ht⟩
  · intro h
    refine ⟨?_, ?_, ?_⟩
    · intro hlive entry hentry t ht
      exact h (.rateLimiter entry t hlive hentry ht)
    · intro hlive haccepted hasks t ht
      exact h (.lookup t hlive haccepted hasks ht)
    · rintro ⟨hlive, haccepted, hlet⟩
      refine ⟨?_, ?_⟩
      · intro hnew t ht
        by_contra hsilent
        exact h (.broadcast t hlive haccepted hlet hnew ht fun hr hv => hsilent ⟨hr, hv⟩)
      · rintro ⟨hreplaceable, ht⟩
        exact h (.upsert hlive haccepted hlet hreplaceable ht)

/-- A relay with one rate limit, and a note that is new to it. -/
def noteSurroundings (hit : Except Thrown Bool) : Surroundings where
  runtime := runtimeFor [shortNote]
  relayPublicKey := relayKey
  settings := ⟨none, none, some ⟨some { EventLimits.empty with
    rateLimits := some [⟨60000, 6, none⟩] }⟩⟩
  clientAddress := "::1"
  now := 1700000000
  hit _ _ _ _ := hit
  findByPubkey _ := .ok none
  deleteByPubkeyAndIds := .ok 0
  insert := .ok 1
  upsert := .ok 1
  broadcast := none

/-- There is no reply while the cache behind the rate limiter is down. -/
theorem not_exactlyOneOk_note :
    ¬ ExactlyOneOk (noteSurroundings (.error (.error "Socket closed"))) shortNote := by
  rintro ⟨reply, hreply, -⟩
  have hnone : (handleMessage (noteSurroundings (.error (.error "Socket closed")))
      shortNote).1.length = 0 := by decide +kernel
  simp [hreply] at hnone

/-! ### The statements of the store -/

/-- What a statement throws is an error. -/
def thrownBy {α : Type} : Except DbError α → Except Thrown α :=
  Except.mapError fun e => .error e.message

/-- The tables once a deletion has marked its targets. -/
def afterMarking (F : Faults) (now : ℕ) (event : ReceivedEvent) (db : Database) : Database :=
  match eventStrategyFactory event.toEvent with
  | .delete =>
      if (eventIdsToDelete event.toEvent).isEmpty then db
      else (deleteByPubkeyAndIds F.delete now event.pubkey (eventIdsToDelete event.toEvent) db).2
  | _ => db

/-- The same surroundings over a store, with a broadcast that works. -/
def Surroundings.over (W : Surroundings) (S : Schema) (F : Faults) (now : ℕ)
    (event : ReceivedEvent) (db : Database) : Surroundings :=
  { W with
    deleteByPubkeyAndIds := thrownBy
      (Relay.deleteByPubkeyAndIds F.delete now event.pubkey (eventIdsToDelete event.toEvent) db).1
    insert := .ok (create S F.insert now (event.incoming none) (afterMarking F now event db)).1
    upsert := thrownBy (Relay.upsert S F.insert now (event.incoming (attached event.toEvent)) db).1
    broadcast := none }

def messageOf : Emit → Option CommandResult
  | .message eventId successful message => some ⟨eventId, successful, message⟩
  | .broadcast _ => none

theorem announce_eq_commandResult (event : Event) (count : ℕ) (hb : W.broadcast = none) :
    announce W event count = ((commandResult event count).filterMap messageOf, none) := by
  by_cases hc : count = 0
  · simp [announce, commandResult, hc, messageOf, ok]
  · simp [announce, commandResult, hc, messageOf, ok, hb]

section

variable {S : Schema} {F : Faults} {now count : ℕ} {event : ReceivedEvent} {db db' : Database}
  {e : DbError}

theorem announce_over (count : ℕ) : announce (W.over S F now event db) event.toEvent count =
    ((commandResult event.toEvent count).filterMap messageOf, none) :=
  announce_eq_commandResult event.toEvent count rfl

theorem upsert_over_error
    (h : Relay.upsert S F.insert now (event.incoming (attached event.toEvent)) db =
      (.error e, db')) :
    (W.over S F now event db).upsert = .error (.error e.message) := by
  simp [Surroundings.over, h, thrownBy, Except.mapError]

theorem upsert_over_ok
    (h : Relay.upsert S F.insert now (event.incoming (attached event.toEvent)) db =
      (.ok count, db')) :
    (W.over S F now event db).upsert = .ok count := by
  simp [Surroundings.over, h, thrownBy, Except.mapError]

theorem replies_over_replaceable (hs : eventStrategyFactory event.toEvent = .replaceable) :
    (caught event.toEvent (execute (W.over S F now event db) event.toEvent)).1 =
      (handleEvent S F now event db).1.filterMap messageOf := by
  have hattached : attached event.toEvent = none := by simp [attached, hs]
  rcases hu : Relay.upsert S F.insert now (event.incoming none) db with ⟨e | count, db'⟩
  · have hthrown : (W.over S F now event db).upsert = .error (.error e.message) :=
      upsert_over_error (by rwa [hattached])
    simp only [execute, hs, executeReplaceable, upsertAndAnnounce, hthrown, List.nil_append,
      caught, caughtReplaceable, handleEvent, Relay.execute, Relay.executeReplaceable, hu]
    -- a duplicate is told as one, and any other error as its message
    split
    · rfl
    · rfl
  · have hcount : (W.over S F now event db).upsert = .ok count :=
      upsert_over_ok (by rwa [hattached])
    simp [execute, hs, executeReplaceable, upsertAndAnnounce, hcount, announce_over, caught,
      handleEvent, Relay.execute, Relay.executeReplaceable, hu]

theorem replies_over_parameterized
    (hs : eventStrategyFactory event.toEvent = .parameterizedReplaceable) :
    (caught event.toEvent (execute (W.over S F now event db) event.toEvent)).1 =
      (handleEvent S F now event db).1.filterMap messageOf := by
  have hattached : attached event.toEvent = some (deduplicationTag event.toEvent) := by
    simp [attached, hs]
  rcases hu : Relay.upsert S F.insert now
    (event.incoming (some (deduplicationTag event.toEvent))) db with ⟨e | count, db'⟩
  · have hthrown : (W.over S F now event db).upsert = .error (.error e.message) :=
      upsert_over_error (by rwa [hattached])
    simp [execute, hs, upsertAndAnnounce, hthrown, caught, handleEvent, Relay.execute,
      executeParameterizedReplaceable, hu, messageOf, ok]
  · have hcount : (W.over S F now event db).upsert = .ok count :=
      upsert_over_ok (by rwa [hattached])
    simp [execute, hs, upsertAndAnnounce, hcount, announce_over, caught, handleEvent, Relay.execute,
      executeParameterizedReplaceable, hu]

/-- A deletion inserts its own event into the tables that it has marked. -/
theorem replies_over_delete (hs : eventStrategyFactory event.toEvent = .delete) :
    (caught event.toEvent (execute (W.over S F now event db) event.toEvent)).1 =
      (handleEvent S F now event db).1.filterMap messageOf := by
  by_cases hids : (eventIdsToDelete event.toEvent).isEmpty
  · have hinsert : (W.over S F now event db).insert =
        .ok (create S F.insert now (event.incoming none) db).1 := by
      simp [Surroundings.over, afterMarking, hs, hids]
    simp [execute, hs, executeDelete, hids, executeDefault, hinsert, Except.toOption, announce_over,
      caught, handleEvent, Relay.execute, Relay.executeDelete, Relay.executeDefault]
  rcases hd : Relay.deleteByPubkeyAndIds F.delete now event.pubkey (eventIdsToDelete event.toEvent)
    db with ⟨e | count, db'⟩
  · have hthrown : (W.over S F now event db).deleteByPubkeyAndIds = .error (.error e.message) := by
      simp [Surroundings.over, hd, thrownBy, Except.mapError]
    simp [execute, hs, executeDelete, hids, hthrown, caught, handleEvent, Relay.execute,
      Relay.executeDelete, hd, messageOf, ok]
  · have hmarked : (W.over S F now event db).deleteByPubkeyAndIds = .ok count := by
      simp [Surroundings.over, hd, thrownBy, Except.mapError]
    have hinsert : (W.over S F now event db).insert =
        .ok (create S F.insert now (event.incoming none) db').1 := by
      simp [Surroundings.over, afterMarking, hs, hids, hd]
    simp [execute, hs, executeDelete, hids, hmarked, executeDefault, hinsert, Except.toOption,
      announce_over, caught, handleEvent, Relay.execute, Relay.executeDelete, hd,
      Relay.executeDefault]

end

/-- Over a store, the replies are those of `handleEvent`. -/
theorem replies_over (S : Schema) (F : Faults) (now : ℕ) (event : ReceivedEvent) (db : Database) :
    (caught event.toEvent (execute (W.over S F now event db) event.toEvent)).1 =
      (handleEvent S F now event db).1.filterMap messageOf := by
  rcases hs : eventStrategyFactory event.toEvent with - | - | - | - | -
  · exact replies_over_replaceable hs
  · simp [execute, executeEphemeral, Surroundings.over, hs, caught, handleEvent, Relay.execute,
      Relay.executeEphemeral, messageOf, ok]
  · exact replies_over_delete hs
  · exact replies_over_parameterized hs
  · have hinsert : (W.over S F now event db).insert =
        .ok (create S F.insert now (event.incoming none) db).1 := by
      simp [Surroundings.over, afterMarking, hs]
    simp [execute, hs, executeDefault, hinsert, Except.toOption, announce_over, caught, handleEvent,
      Relay.execute, Relay.executeDefault]

end NostrMesh.Relay.EventMessageHandler
