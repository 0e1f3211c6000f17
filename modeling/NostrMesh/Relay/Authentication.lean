/-
NostrMesh/Relay/Authentication.lean

Authentication on one connection: `isAuthenticationRequired`, which issues a
challenge to whoever publishes without, and the strategy of `AUTH` messages,
which takes the answer.

Messages of the connection are programs over the operations of the adapter,
and interleave wherever the source awaits.  An operation is what runs between
two awaits: after the rate limiter the gate and the creation of the handler,
and after the checks of an `AUTH` event the whole strategy.  The adapter's
two fields do not say how they came about; `log` records that, newest first.

Two things carry the argument.  A challenge that is there is the latest that
was issued, because issuing is the only way to set it.  And once a client is
authenticated there is no challenge, and none will be issued any more.

Main result: `publishing_is_proven`.
-/
import NostrMesh.Relay.AdmissionPolicy
import NostrMesh.Relay.StoreInvariant

namespace NostrMesh.Relay.Authentication

open Interleaving Traffic

/-! ### `AUTH` events -/

/-- `EventKinds.AUTH`. -/
def authKind : ℕ := 22242

/-- The loop of `isSignedAuthEvent`, with what it has seen. -/
def seesBoth (relay challenge : Bool) : List (List String) → Bool
  | [] => false
  | tag :: tags =>
      -- a tag without a value counts for nothing
      if tag.length < 2 then seesBoth relay challenge tags
      else if tag.head? = some "challenge" then
        if relay then true else seesBoth relay true tags
      else if tag.head? = some "relay" then
        if challenge then true else seesBoth true challenge tags
      else seesBoth relay challenge tags

def isSignedAuthEvent (event : Event) : Bool :=
  event.kind = authKind && seesBoth false false event.tags

/-- A tag of this name that has a value. -/
def isTagNamed (name : String) (tag : List String) : Bool := 2 ≤ tag.length && tag.head? = some name

/-- The value of the first tag of this name that has one. -/
def firstValue (name : String) (event : Event) : Option String :=
  (event.tags.find? (isTagNamed name)).bind fun tag => tag[1]?

def isValidSignedAuthEvent (event : Event) (challenge : String) : Bool :=
  isSignedAuthEvent event && firstValue "challenge" event = some challenge

/-- The loop finds both tags, in either order. -/
theorem seesBoth_iff {tags : List (List String)} : ∀ {relay challenge : Bool},
    ¬ (relay = true ∧ challenge = true) → (seesBoth relay challenge tags = true ↔
      (relay = true ∨ ∃ tag ∈ tags, isTagNamed "relay" tag = true) ∧
        (challenge = true ∨ ∃ tag ∈ tags, isTagNamed "challenge" tag = true)) := by
  induction tags with
  | nil =>
      intro relay challenge hnot
      simpa [seesBoth] using fun hr hc => hnot ⟨hr, hc⟩
  | cons tag tags ih =>
      intro relay challenge hnot
      simp only [seesBoth, isTagNamed, List.exists_mem_cons_iff, Bool.and_eq_true,
        decide_eq_true_eq] at ih ⊢
      by_cases hshort : tag.length < 2
      · rw [if_pos hshort, ih hnot]
        simp [not_le.mpr hshort]
      · have hlong : 2 ≤ tag.length := not_lt.mp hshort
        rw [if_neg hshort]
        by_cases hchallenge : tag.head? = some "challenge"
        · rw [if_pos hchallenge]
          -- the loop returns with the second of the two tags
          rcases relay with - | -
          · rw [if_neg Bool.false_ne_true, ih (by simp)]
            simp [hchallenge, hlong]
          · simp [hchallenge, hlong]
        · rw [if_neg hchallenge]
          by_cases hrelay : tag.head? = some "relay"
          · rw [if_pos hrelay]
            rcases challenge with - | -
            · rw [if_neg Bool.false_ne_true, ih (by simp)]
              simp [hrelay, hlong]
            · simp [hrelay, hlong]
          · rw [if_neg hrelay, ih hnot]
            simp [hrelay, hchallenge]

/-- **`isSignedAuthEvent`**: the kind, a relay tag and a challenge tag. -/
theorem isSignedAuthEvent_iff {event : Event} : isSignedAuthEvent event = true ↔
    event.kind = 22242 ∧ (∃ tag ∈ event.tags, isTagNamed "relay" tag = true) ∧
      ∃ tag ∈ event.tags, isTagNamed "challenge" tag = true := by
  rw [isSignedAuthEvent, Bool.and_eq_true, decide_eq_true_iff,
    seesBoth_iff fun h => Bool.false_ne_true h.1]
  simp only [authKind, Bool.false_eq_true, false_or]

/-! ### The adapter of a connection -/

/-- The messages that the schema of messages lets through. -/
inductive Message
  | event (event : Event)
  | auth (event : Event)
  | req (subscriptionId : String) (filters : List SubscriptionFilter)
  | close (subscriptionId : String)
  deriving DecidableEq, Repr

structure AuthChallenge where
  createdAt : ℕ
  challenge : String
  deriving DecidableEq, Repr

/-- What has happened on the connection. -/
inductive Entry
  | issued (challenge : AuthChallenge)
  | authenticated (event : Event) (now : ℕ)
  | handlerCreated (message : Message)
  deriving DecidableEq, Repr

/-- The adapter, and the record of what has happened, newest first. -/
structure Adapter where
  authChallenge : Option AuthChallenge
  authenticated : Bool
  log : List Entry
  deriving DecidableEq, Repr

def Adapter.setNewAuthChallenge (createdAt : ℕ) (challenge : String) (s : Adapter) : Adapter :=
  { s with
    authChallenge := some ⟨createdAt, challenge⟩
    log := .issued ⟨createdAt, challenge⟩ :: s.log }

def Adapter.setClientToAuthenticated (event : Event) (now : ℕ) (s : Adapter) : Adapter :=
  ⟨none, true, .authenticated event now :: s.log⟩

/-- The condition of `isAuthenticationRequired`, under
`authentication.enabled`. -/
def isAuthenticationRequired (enabled authenticated : Bool) : Message → Bool
  | .event _ => !authenticated && enabled
  | .auth _ => false
  | .req _ _ => false
  | .close _ => false

/-- What `onClientMessage` does after the rate limiter, up to the handler:
it answers with a new challenge, or it creates the handler. -/
def gate (enabled : Bool) (createdAt : ℕ) (challenge : String) (message : Message) (s : Adapter) :
    Option String × Adapter :=
  if isAuthenticationRequired enabled s.authenticated message then
    (some challenge, s.setNewAuthChallenge createdAt challenge)
  else (none, { s with log := .handlerCreated message :: s.log })

/-- How the strategy of `AUTH` messages ends. -/
inductive AuthResult
  | succeeded
  | failed
  | threw
  deriving DecidableEq, Repr

/-- `permittedChallengeResponseTimeDelayMs`. -/
def permittedChallengeResponseTimeDelayMs : ℕ := 1000 * 60 * 10

/-- `SignedAuthEventStrategy.execute`.  Without a challenge, taking the data
apart throws. -/
def executeSignedAuth (now : ℕ) (event : Event) (s : Adapter) : AuthResult × Adapter :=
  match s.authChallenge with
  | none => (.threw, s)
  | some data =>
      let verified := isValidSignedAuthEvent event data.challenge
      let timeIsWithinBounds := now < data.createdAt + permittedChallengeResponseTimeDelayMs
      if verified ∧ timeIsWithinBounds then (.succeeded, s.setClientToAuthenticated event now)
      else (.failed, s)

/-! ### Messages as programs -/

inductive Op
  | isRateLimited
  | gate (message : Message)
  | settle
  | check (event : Event)
  | executeSignedAuth (event : Event)

abbrev Res : Op → Type
  | .isRateLimited => Checked
  | .gate _ => Option String
  | .settle => Unit
  | .check _ => Checked
  | .executeSignedAuth _ => AuthResult

abbrev Handler (α : Type) := Prog Op Res α

abbrev perform (o : Op) : Handler (Res o) := Prog.perform o

/-- What an operation answers and does to the adapter.  Limiters, settings
and users may answer anything, and challenges are whatever comes out of
`randomBytes`. -/
def eff (enabled : Bool) : (o : Op) → Adapter → Res o → Adapter → Prop
  | .isRateLimited => fun s _ s' => s' = s
  | .gate message => fun s r s' =>
      ∃ createdAt challenge, (r, s') = gate enabled createdAt challenge message s
  | .settle => fun s _ s' => s' = s
  | .check _ => fun s _ s' => s' = s
  | .executeSignedAuth event => fun s r s' => ∃ now, (r, s') = executeSignedAuth now event s

inductive Reply
  | notice (text : String)
  | ok (eventId : String) (successful : Bool) (message : String)
  | auth (challenge : String)
  deriving DecidableEq, Repr

/-- What is sent at once, and the message that is left to another handler. -/
structure Outcome where
  replies : List Reply
  handed : Option Message
  deriving DecidableEq, Repr

variable (R : Runtime)

/-- `AuthEventMessageHandler.isEventValid`. -/
def isEventValid (event : Event) : Option String :=
  if !isEventIdValid R event then some "invalid: event id does not match"
  else if !isEventSignatureValid R event then some "invalid: event signature verification failed"
  else if !isSignedAuthEvent event then some "invalid: auth verification failed"
  else none

/-- `AuthEventMessageHandler.handleMessage`.  The hash of the event and its
signature are awaited; an error of the other checks ends the handler. -/
def handleAuthMessage (event : Event) : Handler Outcome := do
  let _ ← perform .settle
  match isEventValid R event with
  | some reason => return ⟨[.ok event.id false reason], none⟩
  | none =>
      match ← perform (.check event) with
      | .failed => return ⟨[], none⟩
      | .refused reason => return ⟨[.ok event.id false reason], none⟩
      | .passed =>
          match ← perform (.executeSignedAuth event) with
          | .succeeded => return ⟨[.ok event.id true "authentication: succeeded"], none⟩
          | .failed => return ⟨[.ok event.id false "authentication: failed"], none⟩
          | .threw => return ⟨[.ok event.id false "error: unable to process event"], none⟩

/-- What the gate answers whoever has to authenticate first. -/
def unauthorized (message : Message) (challenge : String) : List Reply :=
  match message with
  | .event event => [.ok event.id false "rejected: unauthorized", .auth challenge]
  | .auth event => [.ok event.id false "rejected: unauthorized", .auth challenge]
  | .req _ _ => [.auth challenge]
  | .close _ => [.auth challenge]

/-- `onClientMessage`, for a message that fits the schema. -/
def onClientMessage (message : Message) : Handler Outcome := do
  match ← perform .isRateLimited with
  | .failed => return ⟨[], none⟩
  | .refused _ => return ⟨[.notice "rate limited"], none⟩
  | .passed =>
      match ← perform (.gate message) with
      | some challenge => return ⟨unauthorized message challenge, none⟩
      | none =>
          match message with
          | .auth event => handleAuthMessage R event
          | _ => return ⟨[], some message⟩

/-- The connection is open, and nothing has been handled yet. -/
def connected {ι : Type*} (messages : ι → Message) : Pool Op Res Adapter Outcome ι :=
  (⟨none, false, []⟩, fun i => onClientMessage R (messages i))

/-! ### What the log may say -/

/-- The latest challenge that was issued. -/
def latestIssued : List Entry → Option AuthChallenge
  | [] => none
  | .issued challenge :: _ => some challenge
  | _ :: before => latestIssued before

/-- The event proves that its author got the latest challenge, in time. -/
structure Proves (event : Event) (now : ℕ) (before : List Entry) : Prop where
  idValid : isEventIdValid R event = true
  signatureValid : isEventSignatureValid R event = true
  kind : event.kind = 22242
  relayTag : ∃ tag ∈ event.tags, isTagNamed "relay" tag = true
  challenge : ∃ latest, latestIssued before = some latest ∧
    firstValue "challenge" event = some latest.challenge ∧ now < latest.createdAt + 600000

/-- Nobody has been authenticated. -/
def NoneAuthenticated (log : List Entry) : Prop := ∀ event now, Entry.authenticated event now ∉ log

/-- What an entry says about those before it. -/
def Justified {ι : Type*} (messages : ι → Message) : Entry → List Entry → Prop
  | .issued _, _ => True
  | .authenticated event now, before =>
      (∃ i, messages i = .auth event) ∧ Proves R event now before ∧ NoneAuthenticated before
  | .handlerCreated (.event _), before => ¬ NoneAuthenticated before
  | .handlerCreated _, _ => True

/-- The invariant of a connection that requires authentication. -/
structure AuthInv {ι : Type*} (messages : ι → Message) (s : Adapter) : Prop where
  justified : ∀ entry before, entry :: before <:+ s.log → Justified R messages entry before
  latest : ∀ challenge, s.authChallenge = some challenge → latestIssued s.log = some challenge
  authenticated : s.authenticated = true → s.authChallenge = none ∧ ¬ NoneAuthenticated s.log
  unauthenticated : s.authenticated = false → NoneAuthenticated s.log

variable {R} {ι : Type*} {messages : ι → Message} {s : Adapter} {entry : Entry}

theorem authInv_connected : AuthInv R messages (connected R messages).1 where
  justified entry before h := by simp [connected] at h
  latest challenge h := by cases h
  authenticated h := by cases h
  unauthenticated _ event now h := by cases h

/-- A new entry has to be justified by the log as it is. -/
theorem AuthInv.justified_cons (h : AuthInv R messages s)
    (hentry : Justified R messages entry s.log) :
    ∀ e before, e :: before <:+ entry :: s.log → Justified R messages e before := by
  intro e before hsuffix
  rcases List.suffix_cons_iff.mp hsuffix with heq | hsuffix
  · obtain ⟨rfl, rfl⟩ := List.cons.inj heq
    exact hentry
  · exact h.justified e before hsuffix

/-! ### The operations keep the invariant -/

theorem AuthInv.gate (h : AuthInv R messages s) (createdAt : ℕ) (challenge : String)
    (message : Message) : AuthInv R messages (gate true createdAt challenge message s).2 := by
  rw [Authentication.gate]
  split
  · next hrequired =>
    -- a challenge is only issued to a client that is not authenticated
    have hnot : s.authenticated = false := by
      cases message <;> simp_all [isAuthenticationRequired]
    have hnone := h.unauthenticated hnot
    refine ⟨h.justified_cons trivial, fun c hc => ?_, fun habs => ?_, fun _ event now hmem => ?_⟩
    · obtain rfl := Option.some.inj hc
      rfl
    · exact absurd habs (by simp [Adapter.setNewAuthChallenge, hnot])
    · exact hnone event now (by simpa [Adapter.setNewAuthChallenge] using hmem)
  · next hrequired =>
    have hnone : NoneAuthenticated (.handlerCreated message :: s.log) ↔
        NoneAuthenticated s.log := by simp [NoneAuthenticated]
    refine ⟨h.justified_cons ?_, h.latest, fun hauth => ?_, fun hauth => ?_⟩
    · cases message with
      | event event =>
          -- the gate lets an `EVENT` through only if the client is authenticated
          have hauth : s.authenticated = true := by simpa [isAuthenticationRequired] using hrequired
          exact (h.authenticated hauth).2
      | auth event => trivial
      | req subscriptionId filters => trivial
      | close subscriptionId => trivial
    · exact ⟨(h.authenticated hauth).1, hnone.not.mpr (h.authenticated hauth).2⟩
    · exact hnone.mpr (h.unauthenticated hauth)

/-- An answer that is accepted proves what it has to prove: the challenge of
the adapter is the latest. -/
theorem AuthInv.executeSignedAuth (h : AuthInv R messages s) {event : Event}
    (hmessage : ∃ i, messages i = .auth event) (hvalid : isEventValid R event = none) (now : ℕ) :
    AuthInv R messages (executeSignedAuth now event s).2 := by
  rw [Authentication.executeSignedAuth]
  rcases hchallenge : s.authChallenge with - | data
  · exact h
  · dsimp only
    split
    · next haccepted =>
      obtain ⟨hverified, hintime⟩ := haccepted
      -- whoever is authenticated has no challenge left to answer
      have hnot : s.authenticated = false := by
        by_contra habs
        rw [(h.authenticated (Bool.not_eq_false _ ▸ habs)).1] at hchallenge
        cases hchallenge
      simp only [isValidSignedAuthEvent, Bool.and_eq_true, decide_eq_true_eq] at hverified
      obtain ⟨hsigned, hvalue⟩ := hverified
      obtain ⟨hkind, hrelay, -⟩ := isSignedAuthEvent_iff.mp hsigned
      simp only [isEventValid] at hvalid
      split_ifs at hvalid with hid hsignature
      have hproves : Proves R event now s.log :=
        ⟨by simpa using hid, by simpa using hsignature, hkind, hrelay,
          data, h.latest data hchallenge, hvalue, hintime⟩
      refine ⟨h.justified_cons ⟨hmessage, hproves, h.unauthenticated hnot⟩, fun c hc => ?_,
        fun _ => ⟨rfl, fun hnone => hnone event now List.mem_cons_self⟩, fun habs => ?_⟩
      · cases hc
      · cases habs
    · exact h

/-! ### All runs -/

/-- The operations that the handler of a message can issue: an `AUTH` event
gets to the strategy only if it is valid. -/
def Issues (R : Runtime) (message : Message) : Op → Prop
  | .executeSignedAuth event => message = .auth event ∧ isEventValid R event = none
  | _ => True

theorem all_handleAuthMessage (event : Event) :
    (handleAuthMessage R event).All (Issues R (.auth event)) := by
  simp only [handleAuthMessage, perform, Prog.bind_eq, Prog.perform_bind]
  -- one operation after the other, and whatever it answers
  refine ⟨trivial, fun _ => ?_⟩
  rcases hvalid : isEventValid R event with - | reason
  · refine ⟨trivial, fun checked => ?_⟩
    cases checked with
    | passed =>
        refine ⟨⟨rfl, hvalid⟩, fun result => ?_⟩
        cases result <;> trivial
    | refused reason => trivial
    | failed => trivial
  · trivial

theorem all_onClientMessage (message : Message) :
    (onClientMessage R message).All (Issues R message) := by
  simp only [onClientMessage, perform, Prog.bind_eq, Prog.perform_bind]
  refine ⟨trivial, fun limited => ?_⟩
  cases limited with
  | failed => trivial
  | refused reason => trivial
  | passed =>
      refine ⟨trivial, fun challenge => ?_⟩
      rcases challenge with - | challenge
      · cases message with
        | auth event => exact all_handleAuthMessage event
        | event event => trivial
        | req subscriptionId filters => trivial
        | close subscriptionId => trivial
      · trivial

variable [DecidableEq ι] {c : Pool Op Res Adapter Outcome ι}

/-- **The invariant holds in every interleaving.** -/
theorem authInv_of_reaches (hr : PoolReaches (fun _ => eff true) (connected R messages) c) :
    AuthInv R messages c.1 := by
  refine (pool_invariant_of_all ?_ hr (fun i => all_onClientMessage (messages i))
    authInv_connected).1
  intro i o s r s' hissues h heff
  cases o with
  | isRateLimited =>
      obtain rfl : s' = s := heff
      exact h
  | gate message =>
      obtain ⟨createdAt, challenge, heq⟩ := heff
      rw [show s' = _ from congrArg Prod.snd heq]
      exact h.gate createdAt challenge message
  | settle =>
      obtain rfl : s' = s := heff
      exact h
  | check event =>
      obtain rfl : s' = s := heff
      exact h
  | executeSignedAuth event =>
      obtain ⟨now, heq⟩ := heff
      rw [show s' = _ from congrArg Prod.snd heq]
      exact h.executeSignedAuth ⟨i, hissues.1⟩ hissues.2 now

/-- **Publishing is proven.**  In every interleaving of the messages of a
connection, a handler for an `EVENT` message is created only after an `AUTH`
message of the connection proved the challenge that was then the latest; and
after one such message no other is accepted, so no challenge serves twice. -/
theorem publishing_is_proven (R : Runtime) (messages : ι → Message)
    (c : Pool Op Res Adapter Outcome ι)
    (hr : PoolReaches (fun _ => eff true) (connected R messages) c) :
    (∀ event before, .handlerCreated (.event event) :: before <:+ c.1.log →
      ∃ auth now earlier, .authenticated auth now :: earlier <:+ before ∧
        (∃ i, messages i = .auth auth) ∧ Proves R auth now earlier) ∧
    ∀ auth now before, .authenticated auth now :: before <:+ c.1.log →
      ∀ auth' now', Entry.authenticated auth' now' ∉ before := by
  have hinv := authInv_of_reaches hr
  refine ⟨fun event before hsuffix => ?_, fun auth now before hsuffix => ?_⟩
  · have hsome : ¬ NoneAuthenticated before := hinv.justified _ _ hsuffix
    simp only [NoneAuthenticated, not_forall, not_not] at hsome
    obtain ⟨auth, now, hmem⟩ := hsome
    obtain ⟨later, earlier, rfl⟩ := List.append_of_mem hmem
    have hauth : .authenticated auth now :: earlier <:+
        later ++ .authenticated auth now :: earlier :=
      List.suffix_append _ _
    have hall := (hauth.trans (List.suffix_cons _ _)).trans hsuffix
    obtain ⟨hmessage, hproves, -⟩ := hinv.justified _ _ hall
    exact ⟨auth, now, earlier, hauth, hmessage, hproves⟩
  · exact (hinv.justified _ _ hsuffix).2.2

/-! ### A client that authenticates -/

/-- The challenge that the client is sent. -/
def sentChallenge : String := "5f0c3e9a7b1d4c2e8f6a0b9d3c7e1f52"

/-- The answer to it. -/
def authAnswer : Event where
  id := "5e22626476e86d0312a8904fa266e657b0a56764aa92bb5fc7e66cb8d200ead4"
  pubkey := "f9308a019258c31049344f85f89d5229b531c845836f99b08601f113bce036f9"
  createdAt := 1700000005
  kind := 22242
  tags := [["relay", "wss://relay.formstr.app"], ["challenge", sentChallenge]]
  content := ""
  sig := "9180150173694a5edd965f2420182a01cfeabd454772f485f7965567613c9d36" ++
    "5bd515283e21e7d2c4adb0894b514b716ea89d6f6b90ac90dc7737741664719d"

/-- The client publishes a note, answers, and publishes the note again. -/
def clientMessages : Fin 3 → Message
  | 0 => .event shortNote
  | 1 => .auth authAnswer
  | 2 => .event shortNote

/-- Nothing refuses the client; its answer comes after five seconds. -/
def respond : (o : Op) → Adapter → Res o × Adapter
  | .isRateLimited, s => (.passed, s)
  | .gate message, s => gate true 1700000000000 sentChallenge message s
  | .settle, s => ((), s)
  | .check _, s => (.passed, s)
  | .executeSignedAuth event, s => executeSignedAuth 1700000005000 event s

theorem eff_respond (o : Op) (s : Adapter) : eff true o s (respond o s).1 (respond o s).2 := by
  cases o with
  | isRateLimited => rfl
  | gate message => exact ⟨_, _, rfl⟩
  | settle => rfl
  | check event => rfl
  | executeSignedAuth event => exact ⟨_, rfl⟩

def clientRun : Pool Op Res Adapter Outcome (Fin 3) :=
  (((connected (runtimeFor [authAnswer]) clientMessages).runMember respond 0).runMember respond
    1).runMember respond 2

theorem reaches_clientRun : PoolReaches (fun _ => eff true)
    (connected (runtimeFor [authAnswer]) clientMessages) clientRun := by
  have hmember : ∀ (i : Fin 3) (c : Pool Op Res Adapter Outcome (Fin 3)),
      PoolReaches (fun _ => eff true) c (c.runMember respond i) := by
    intro i c
    refine .runMember ?_ c
    exact eff_respond
  exact ((hmember 0 _).trans (hmember 1 _)).trans (hmember 2 _)

/-- The second note gets a handler, and the answer came before it. -/
theorem publishing_is_proven_client :
    ∃ auth now earlier, .authenticated auth now :: earlier <:+ clientRun.1.log.tail ∧
      (∃ i, clientMessages i = .auth auth) ∧ Proves (runtimeFor [authAnswer]) auth now earlier := by
  refine (publishing_is_proven (runtimeFor [authAnswer]) clientMessages clientRun
    reaches_clientRun).1 shortNote _ ?_
  have hhead : clientRun.1.log.head? = some (.handlerCreated (.event shortNote)) := by
    decide +kernel
  exact ⟨[], List.cons_head?_tail (Option.mem_def.mpr hhead)⟩

end NostrMesh.Relay.Authentication
