/-
NostrMesh/Relay/AdmissionPolicy.lean

Whom the relay lets in, in two copies: `EventMessageHandler` decides for its
clients, and `StaticMirroringWorker` for the events of a mirrored relay.

What the policy says about the event itself is `Permitted`, over the limits
that apply; what it says about the author is `Admitted`.  The handler decides
both.  The worker decides the first in the same way, under the limits with
the mirror's overrides, but only where the mirror has limits at all: without
them it throws.  Of the second it knows nothing but fees, and it takes a
minimum below zero for a minimum.

Main result: `samePolicy_iff`.
-/
import NostrMesh.Relay.Settings

namespace NostrMesh.Relay

/-- A row of `users`, as `findByPubkey` answers it. -/
structure User where
  isAdmitted : Bool
  balance : ℤ
  deriving DecidableEq, Repr

/-- `UserRepository.findByPubkey`, on the users as they are. -/
abbrev Users := String → Option User

/-! ### `EventMessageHandler` -/

namespace EventMessageHandler

variable (relayPublicKey : String) (now : ℤ)

/-- The reason for which an event is refused. -/
def canAcceptEvent (limits : EventLimits) (event : Event) : Option String :=
  -- the relay itself may publish what it wants
  if relayPublicKey = event.pubkey then none
  else
    ((limits.content.bind (exceededContent event)).map fun maxLength =>
      s!"rejected: content is longer than {maxLength} bytes")
    <|> ((limits.createdAt.bind (exceededPositiveDelta now event)).map fun delta =>
      s!"rejected: created_at is more than {delta} seconds in the future")
    <|> ((limits.createdAt.bind (exceededNegativeDelta now event)).map fun delta =>
      s!"rejected: created_at is more than {delta} seconds in the past")
    <|> ((missedDifficulty (getEventProofOfWork event.id)
      (limits.eventId.bind EventIdLimits.minLeadingZeroBits)).map fun bits =>
        s!"pow: difficulty {getEventProofOfWork event.id}<{bits}")
    <|> ((missedDifficulty (getPubkeyProofOfWork event.pubkey)
      (limits.pubkey.bind PubkeyLimits.minLeadingZeroBits)).map fun bits =>
        s!"pow: pubkey difficulty {getPubkeyProofOfWork event.pubkey}<{bits}")
    <|> (if isNotWhitelisted (Js.startsWith event.pubkey)
        (limits.pubkey.bind PubkeyLimits.whitelist)
      then some "blocked: pubkey not allowed" else none)
    <|> (if isBlacklisted (Js.startsWith event.pubkey) (limits.pubkey.bind PubkeyLimits.blacklist)
      then some "blocked: pubkey not allowed" else none)
    <|> (if isNotWhitelisted (isEventKindOrRangeMatch event) (limits.kind.bind KindLimits.whitelist)
      then some s!"blocked: event kind {event.kind} not allowed" else none)
    <|> (if isBlacklisted (isEventKindOrRangeMatch event) (limits.kind.bind KindLimits.blacklist)
      then some s!"blocked: event kind {event.kind} not allowed" else none)

/-- The end of `isUserAdmitted`, with what `findByPubkey` answered. -/
def checkUser (settings : Settings) (user : Option User) : Option String :=
  match user with
  | none => some "blocked: pubkey not admitted"
  | some user =>
      if !user.isAdmitted then some "blocked: pubkey not admitted"
      else
        let minBalance := (settings.eventLimits.pubkey.bind PubkeyLimits.minBalance).getD 0
        if 0 < minBalance ∧ user.balance < minBalance then some "blocked: insufficient balance"
        else none

/-- `isUserAdmitted` gets to ask for the user. -/
def asksForUser (settings : Settings) (event : Event) : Bool :=
  let paymentsEnabled := settings.payments.any Payments.enabled
  let requireAdmission := (settings.authorization.bind Authorization.requireAdmission).getD false
  if !(paymentsEnabled || requireAdmission) then false
  else if relayPublicKey = event.pubkey then false
  else if paymentsEnabled &&
    (settings.payments.any fun p => (applicableFees p event).isEmpty) then false
  else true

/-- The reason for which an author is refused. -/
def isUserAdmitted (settings : Settings) (users : Users) (event : Event) : Option String :=
  if asksForUser relayPublicKey settings event then checkUser settings (users event.pubkey)
  else none

end EventMessageHandler

/-! ### `StaticMirroringWorker` -/

namespace StaticMirroringWorker

variable (relayPublicKey : String) (now : ℤ)

/-- The error that `this.config.limits.event` throws without `limits`. -/
def limitsUndefined : String := "Cannot read properties of undefined (reading 'event')"

/-- The limits of the relay with the overrides of the mirror. -/
def mergedLimits (settings : Settings) (config : Mirror) : EventLimits :=
  settings.eventLimits.mergeDeepRight ((config.limits.bind Limits.event).getD .empty)

def canAcceptEvent (settings : Settings) (config : Mirror) (event : Event) : Except String Bool :=
  -- an event of the relay itself does not come from a mirror
  if relayPublicKey = event.pubkey then .ok false
  else
    match config.limits with
    | none => .error limitsUndefined
    | some configLimits =>
        let limits := settings.eventLimits.mergeDeepRight (configLimits.event.getD .empty)
        if (limits.content.bind (exceededContent event)).isSome then .ok false
        else if (limits.createdAt.bind (exceededPositiveDelta now event)).isSome then .ok false
        else if (limits.createdAt.bind (exceededNegativeDelta now event)).isSome then .ok false
        else if (missedDifficulty (getEventProofOfWork event.id)
          (limits.eventId.bind EventIdLimits.minLeadingZeroBits)).isSome then .ok false
        else if (missedDifficulty (getPubkeyProofOfWork event.pubkey)
          (limits.pubkey.bind PubkeyLimits.minLeadingZeroBits)).isSome then .ok false
        else if isNotWhitelisted (Js.startsWith event.pubkey)
          (limits.pubkey.bind PubkeyLimits.whitelist) then .ok false
        else if isBlacklisted (Js.startsWith event.pubkey)
          (limits.pubkey.bind PubkeyLimits.blacklist) then .ok false
        else if isNotWhitelisted (isEventKindOrRangeMatch event)
          (limits.kind.bind KindLimits.whitelist) then .ok false
        else if isBlacklisted (isEventKindOrRangeMatch event)
          (limits.kind.bind KindLimits.blacklist) then .ok false
        else .ok true

def isUserAdmitted (settings : Settings) (config : Mirror) (users : Users) (event : Event) : Bool :=
  if config.skipAdmissionCheck = some true then true
  else
    match settings.payments with
    | none => true
    | some payments =>
        if payments.enabled ≠ true then true
        else if (applicableFees payments event).isEmpty then true
        else
          match users event.pubkey with
          | none => false
          | some user =>
              if user.isAdmitted ≠ true then false
              else
                let minBalance := settings.eventLimits.pubkey.bind PubkeyLimits.minBalance
                -- every minimum but zero is one, also below zero
                if minBalance.any fun minimum => minimum ≠ 0 && user.balance < minimum then false
                else true

end StaticMirroringWorker

/-! ### The policy about the event -/

def ContentSetting.toList : ContentSetting → List ContentLimits
  | .object limits => [limits]
  | .array limits => limits

/-- The limit is meant for events of this kind. -/
def ContentLimits.AppliesTo (limit : ContentLimits) (event : Event) : Prop :=
  ∀ kinds ∈ limit.kinds, ∃ item ∈ kinds, isEventKindOrRangeMatch event item = true

/-- What the limits ask of an event.  A bound of zero or less is no bound,
and an empty list bans nobody. -/
structure Permitted (limits : EventLimits) (now : ℤ) (event : Event) : Prop where
  content : ∀ content ∈ limits.content, ∀ limit ∈ content.toList, limit.AppliesTo event →
    ∀ maxLength ∈ limit.maxLength, 0 < maxLength → Js.length event.content ≤ maxLength
  notAhead : ∀ createdAt ∈ limits.createdAt, ∀ delta ∈ createdAt.maxPositiveDelta,
    0 < delta → event.createdAt ≤ now + delta
  notBehind : ∀ createdAt ∈ limits.createdAt, ∀ delta ∈ createdAt.maxNegativeDelta,
    0 < delta → now - delta ≤ event.createdAt
  eventWork : ∀ eventId ∈ limits.eventId, ∀ bits ∈ eventId.minLeadingZeroBits,
    0 < bits → bits ≤ getEventProofOfWork event.id
  pubkeyWork : ∀ pubkey ∈ limits.pubkey, ∀ bits ∈ pubkey.minLeadingZeroBits,
    0 < bits → bits ≤ getPubkeyProofOfWork event.pubkey
  pubkeyWhitelist : ∀ pubkey ∈ limits.pubkey, ∀ entries ∈ pubkey.whitelist,
    entries ≠ [] → ∃ entry ∈ entries, Js.startsWith event.pubkey entry = true
  pubkeyBlacklist : ∀ pubkey ∈ limits.pubkey, ∀ entries ∈ pubkey.blacklist,
    ∀ entry ∈ entries, Js.startsWith event.pubkey entry = false
  kindWhitelist : ∀ kind ∈ limits.kind, ∀ entries ∈ kind.whitelist,
    entries ≠ [] → ∃ entry ∈ entries, isEventKindOrRangeMatch event entry = true
  kindBlacklist : ∀ kind ∈ limits.kind, ∀ entries ∈ kind.blacklist,
    ∀ entry ∈ entries, isEventKindOrRangeMatch event entry = false

variable {event : Event} {limits : EventLimits} {now : ℤ} {relayPublicKey : String}

theorem exceededLength_eq_none_iff {limit : ContentLimits} : exceededLength event limit = none ↔
    (limit.AppliesTo event →
      ∀ maxLength ∈ limit.maxLength, 0 < maxLength → Js.length event.content ≤ maxLength) := by
  have happlies : limit.AppliesTo event ↔
      (limit.kinds.all fun kinds => kinds.any (isEventKindOrRangeMatch event)) = true := by
    rw [ContentLimits.AppliesTo]
    rcases limit.kinds with - | kinds
    · simp
    · simp
  rw [happlies, exceededLength, Option.filter_eq_none_iff]
  simp only [Bool.and_eq_true, decide_eq_true_eq, not_and]
  constructor
  · intro h hkinds maxLength hmem hpos
    by_contra hlt
    exact h maxLength hmem ⟨hpos, not_le.mp hlt⟩ hkinds
  · rintro h maxLength hmem ⟨hpos, hlt⟩ hkinds
    exact absurd (h hkinds maxLength hmem hpos) (not_le.mpr hlt)

theorem exceededContent_eq_none_iff {content : ContentSetting} :
    exceededContent event content = none ↔ ∀ limit ∈ content.toList, limit.AppliesTo event →
      ∀ maxLength ∈ limit.maxLength, 0 < maxLength → Js.length event.content ≤ maxLength := by
  cases content with
  | object limit => simp [exceededContent, ContentSetting.toList, exceededLength_eq_none_iff]
  | array limits =>
      simp only [exceededContent, ContentSetting.toList, List.findSome?_eq_none_iff,
        exceededLength_eq_none_iff]

theorem exceededPositiveDelta_eq_none_iff {createdAt : CreatedAtLimits} :
    exceededPositiveDelta now event createdAt = none ↔
      ∀ delta ∈ createdAt.maxPositiveDelta, 0 < delta → event.createdAt ≤ now + delta := by
  simp [exceededPositiveDelta, Option.filter_eq_none_iff]

theorem exceededNegativeDelta_eq_none_iff {createdAt : CreatedAtLimits} :
    exceededNegativeDelta now event createdAt = none ↔
      ∀ delta ∈ createdAt.maxNegativeDelta, 0 < delta → now - delta ≤ event.createdAt := by
  simp [exceededNegativeDelta, Option.filter_eq_none_iff]

theorem missedDifficulty_eq_none_iff {pow : ℕ} {minLeadingZeroBits : Option ℤ} :
    missedDifficulty pow minLeadingZeroBits = none ↔
      ∀ bits ∈ minLeadingZeroBits, 0 < bits → bits ≤ pow := by
  simp [missedDifficulty, Option.filter_eq_none_iff]

theorem isNotWhitelisted_eq_false_iff {α : Type*} {applies : α → Bool}
    {whitelist : Option (List α)} :
    isNotWhitelisted applies whitelist = false ↔
      ∀ entries ∈ whitelist, entries ≠ [] → ∃ entry ∈ entries, applies entry = true := by
  rcases whitelist with - | entries
  · simp [isNotWhitelisted]
  · simp [isNotWhitelisted, List.length_pos_iff]

theorem isBlacklisted_eq_false_iff {α : Type*} {applies : α → Bool} {blacklist : Option (List α)} :
    isBlacklisted applies blacklist = false ↔
      ∀ entries ∈ blacklist, ∀ entry ∈ entries, applies entry = false := by
  rcases blacklist with - | - | ⟨entry, entries⟩
  · simp [isBlacklisted]
  · simp [isBlacklisted]
  · simp [isBlacklisted]

/-- The conditions that `canAcceptEvent` goes through, in both copies. -/
structure Unobjectionable (limits : EventLimits) (now : ℤ) (event : Event) : Prop where
  content : limits.content.bind (exceededContent event) = none
  notAhead : limits.createdAt.bind (exceededPositiveDelta now event) = none
  notBehind : limits.createdAt.bind (exceededNegativeDelta now event) = none
  eventWork : missedDifficulty (getEventProofOfWork event.id)
    (limits.eventId.bind EventIdLimits.minLeadingZeroBits) = none
  pubkeyWork : missedDifficulty (getPubkeyProofOfWork event.pubkey)
    (limits.pubkey.bind PubkeyLimits.minLeadingZeroBits) = none
  pubkeyWhitelist : isNotWhitelisted (Js.startsWith event.pubkey)
    (limits.pubkey.bind PubkeyLimits.whitelist) = false
  pubkeyBlacklist : isBlacklisted (Js.startsWith event.pubkey)
    (limits.pubkey.bind PubkeyLimits.blacklist) = false
  kindWhitelist : isNotWhitelisted (isEventKindOrRangeMatch event)
    (limits.kind.bind KindLimits.whitelist) = false
  kindBlacklist : isBlacklisted (isEventKindOrRangeMatch event)
    (limits.kind.bind KindLimits.blacklist) = false

theorem unobjectionable_iff_permitted :
    Unobjectionable limits now event ↔ Permitted limits now event := by
  have hbind : ∀ {α β : Type} {o : Option α} {f : α → Option β} {Q : β → Prop},
      (∀ b ∈ o.bind f, Q b) ↔ ∀ a ∈ o, ∀ b ∈ f a, Q b := by
    intro α β o f Q
    rcases o with - | a
    · simp
    · simp
  constructor
  · rintro ⟨hcontent, hahead, hbehind, hevent, hpubkey, hpw, hpb, hkw, hkb⟩
    rw [Option.bind_eq_none_iff] at hcontent hahead hbehind
    rw [missedDifficulty_eq_none_iff, hbind] at hevent hpubkey
    rw [isNotWhitelisted_eq_false_iff, hbind] at hpw hkw
    rw [isBlacklisted_eq_false_iff, hbind] at hpb hkb
    exact ⟨fun content hmem => exceededContent_eq_none_iff.mp (hcontent content hmem),
      fun createdAt hmem => exceededPositiveDelta_eq_none_iff.mp (hahead createdAt hmem),
      fun createdAt hmem => exceededNegativeDelta_eq_none_iff.mp (hbehind createdAt hmem),
      hevent, hpubkey, hpw, hpb, hkw, hkb⟩
  · rintro ⟨hcontent, hahead, hbehind, hevent, hpubkey, hpw, hpb, hkw, hkb⟩
    exact {
      content := Option.bind_eq_none_iff.mpr fun content hmem =>
        exceededContent_eq_none_iff.mpr (hcontent content hmem)
      notAhead := Option.bind_eq_none_iff.mpr fun createdAt hmem =>
        exceededPositiveDelta_eq_none_iff.mpr (hahead createdAt hmem)
      notBehind := Option.bind_eq_none_iff.mpr fun createdAt hmem =>
        exceededNegativeDelta_eq_none_iff.mpr (hbehind createdAt hmem)
      eventWork := missedDifficulty_eq_none_iff.mpr (hbind.mpr hevent)
      pubkeyWork := missedDifficulty_eq_none_iff.mpr (hbind.mpr hpubkey)
      pubkeyWhitelist := isNotWhitelisted_eq_false_iff.mpr (hbind.mpr hpw)
      pubkeyBlacklist := isBlacklisted_eq_false_iff.mpr (hbind.mpr hpb)
      kindWhitelist := isNotWhitelisted_eq_false_iff.mpr (hbind.mpr hkw)
      kindBlacklist := isBlacklisted_eq_false_iff.mpr (hbind.mpr hkb) }

/-- **The handler** accepts what the limits permit. -/
theorem EventMessageHandler.canAcceptEvent_eq_none_iff (h : relayPublicKey ≠ event.pubkey) :
    canAcceptEvent relayPublicKey now limits event = none ↔ Permitted limits now event := by
  rw [← unobjectionable_iff_permitted]
  simp only [canAcceptEvent, if_neg h, Option.orElse_eq_orElse, Option.orElse_eq_or,
    Option.or_eq_none_iff, Option.map_eq_none_iff, ite_eq_right_iff, reduceCtorEq, imp_false,
    Bool.not_eq_true]
  exact ⟨fun ⟨h₁, h₂, h₃, h₄, h₅, h₆, h₇, h₈, h₉⟩ => ⟨h₁, h₂, h₃, h₄, h₅, h₆, h₇, h₈, h₉⟩,
    fun ⟨h₁, h₂, h₃, h₄, h₅, h₆, h₇, h₈, h₉⟩ => ⟨h₁, h₂, h₃, h₄, h₅, h₆, h₇, h₈, h₉⟩⟩

variable {settings : Settings} {config : Mirror} {users : Users}

/-- **The worker** accepts what the limits with the mirror's overrides
permit, if the mirror has limits; without them it throws. -/
theorem StaticMirroringWorker.canAcceptEvent_eq_true_iff (h : relayPublicKey ≠ event.pubkey) :
    canAcceptEvent relayPublicKey now settings config event = .ok true ↔
      config.limits ≠ none ∧ Permitted (mergedLimits settings config) now event := by
  have hrefuse : ∀ {c : Prop} [Decidable c] {x : Except String Bool},
      (if c then .ok false else x) = .ok true ↔ ¬ c ∧ x = .ok true := by
    intro c _ x
    by_cases hc : c
    · simp [hc]
    · simp [hc]
  rw [← unobjectionable_iff_permitted, mergedLimits]
  simp only [canAcceptEvent, if_neg h]
  rcases config.limits with - | configLimits
  · -- `this.config.limits.event` throws
    simp
  · simp only [hrefuse, Bool.not_eq_true, Option.isSome_eq_false_iff, Option.isNone_iff_eq_none,
      and_true, Option.bind_some]
    exact ⟨fun ⟨h₁, h₂, h₃, h₄, h₅, h₆, h₇, h₈, h₉⟩ =>
        ⟨Option.some_ne_none _, h₁, h₂, h₃, h₄, h₅, h₆, h₇, h₈, h₉⟩,
      fun ⟨_, h₁, h₂, h₃, h₄, h₅, h₆, h₇, h₈, h₉⟩ => ⟨h₁, h₂, h₃, h₄, h₅, h₆, h₇, h₈, h₉⟩⟩

/-! ### The policy about the author -/

/-- `limits?.event?.pubkey?.minBalance ?? 0n`. -/
def Settings.minBalance (settings : Settings) : ℤ :=
  (settings.eventLimits.pubkey.bind PubkeyLimits.minBalance).getD 0

/-- Payments are enabled, and some admission fee applies to the event. -/
def FeeApplies (settings : Settings) (event : Event) : Prop :=
  ∃ payments ∈ settings.payments, payments.enabled = true ∧ applicableFees payments event ≠ []

/-- Payments are not enabled, and admission is required all the same. -/
def AdmissionRequired (settings : Settings) : Prop :=
  settings.payments.any Payments.enabled = false ∧
    settings.authorization.bind Authorization.requireAdmission = some true

/-- The author is admitted, and has the balance that is asked for. -/
def InGoodStanding (settings : Settings) (users : Users) (event : Event) : Prop :=
  ∃ user ∈ users event.pubkey, user.isAdmitted = true ∧
    (0 < settings.minBalance → settings.minBalance ≤ user.balance)

/-- What the settings ask of the author. -/
def Admitted (settings : Settings) (users : Users) (event : Event) : Prop :=
  FeeApplies settings event ∨ AdmissionRequired settings → InGoodStanding settings users event

/-- The author is admitted, and owes the relay more than the minimum says. -/
def InDebt (settings : Settings) (users : Users) (event : Event) : Prop :=
  ∃ user ∈ users event.pubkey, user.isAdmitted = true ∧
    user.balance < settings.minBalance ∧ settings.minBalance < 0

theorem EventMessageHandler.checkUser_eq_none_iff :
    checkUser settings (users event.pubkey) = none ↔ InGoodStanding settings users event := by
  rw [InGoodStanding]
  rcases users event.pubkey with - | user
  · simp [checkUser]
  · have hmin : (settings.eventLimits.pubkey.bind PubkeyLimits.minBalance).getD 0 =
        settings.minBalance := rfl
    simp only [checkUser, hmin]
    rcases hadmitted : user.isAdmitted with - | -
    · simp [hadmitted]
    · simp [hadmitted]

theorem EventMessageHandler.asksForUser_iff (h : relayPublicKey ≠ event.pubkey) :
    asksForUser relayPublicKey settings event = true ↔
      FeeApplies settings event ∨ AdmissionRequired settings := by
  simp only [asksForUser, FeeApplies, AdmissionRequired, if_neg h]
  have hrequire : (settings.authorization.bind Authorization.requireAdmission).getD false = true ↔
      settings.authorization.bind Authorization.requireAdmission = some true := by
    rcases settings.authorization.bind Authorization.requireAdmission with - | b
    · simp
    · simp
  rw [← hrequire]
  rcases settings.payments with - | payments
  · simp
  · rcases henabled : payments.enabled with - | -
    · simp [henabled]
    · simp [henabled]

/-- **The handler** lets the authors in that the settings admit. -/
theorem EventMessageHandler.isUserAdmitted_eq_none_iff (h : relayPublicKey ≠ event.pubkey) :
    isUserAdmitted relayPublicKey settings users event = none ↔ Admitted settings users event := by
  rw [isUserAdmitted, Admitted, ← asksForUser_iff h]
  by_cases hasks : asksForUser relayPublicKey settings event = true
  · rw [if_pos hasks, checkUser_eq_none_iff]
    exact ⟨fun hstanding _ => hstanding, fun himp => himp hasks⟩
  · rw [if_neg hasks]
    exact iff_of_true rfl fun habs => absurd habs hasks

/-- **The worker** lets in whom no fee concerns, and of the others those who
are admitted, unless the minimum is not zero and they are below it. -/
theorem StaticMirroringWorker.isUserAdmitted_iff (hskip : config.skipAdmissionCheck ≠ some true) :
    isUserAdmitted settings config users event = true ↔
      (FeeApplies settings event →
        InGoodStanding settings users event ∧ ¬ InDebt settings users event) := by
  simp only [isUserAdmitted, if_neg hskip, FeeApplies, InGoodStanding, InDebt]
  rcases settings.payments with - | payments
  · simp
  · by_cases hcharged : payments.enabled = true ∧ applicableFees payments event ≠ []
    · -- the worker looks the author up
      obtain ⟨henabled, hfees⟩ := hcharged
      rcases users event.pubkey with - | user
      · simp [henabled, hfees]
      · rcases hadmitted : user.isAdmitted with - | -
        · simp [henabled, hfees, hadmitted]
        · -- a minimum below zero is none for the handler, and one for the worker
          rcases hbalance : settings.eventLimits.pubkey.bind PubkeyLimits.minBalance with
            - | minimum
          · simp [henabled, hfees, hadmitted, Settings.minBalance, hbalance]
          · simp only [Settings.minBalance, hbalance, Option.getD_some]
            simp [henabled, hfees, hadmitted]
            omega
    · have hfree : payments.enabled ≠ true ∨ applicableFees payments event = [] := by
        by_cases henabled : payments.enabled = true
        · exact Or.inr (not_not.mp fun hne => hcharged ⟨henabled, hne⟩)
        · exact Or.inl henabled
      rcases hfree with henabled | hfees
      · simp [henabled]
      · simp [hfees]

/-! ### The two copies -/

/-- The worker lets an event in exactly if the handler does, under the limits
with the mirror's overrides. -/
def SamePolicy (relayPublicKey : String) (settings : Settings) (config : Mirror) (users : Users)
    (now : ℤ) (event : Event) : Prop :=
  (StaticMirroringWorker.canAcceptEvent relayPublicKey now settings config event = .ok true ∧
      StaticMirroringWorker.isUserAdmitted settings config users event = true) ↔
    (EventMessageHandler.canAcceptEvent relayPublicKey now
        (StaticMirroringWorker.mergedLimits settings config) event = none ∧
      EventMessageHandler.isUserAdmitted relayPublicKey settings users event = none)

/-- Where the worker's copy of the policy about authors falls short. -/
inductive Gap (settings : Settings) (config : Mirror) (users : Users) (event : Event) : Prop
  /-- The mirror has no limits, and the author would be let in. -/
  | noLimits : config.limits = none → Admitted settings users event →
      Gap settings config users event
  /-- Admission is required without payments, and the author has none. -/
  | admissionRequired : config.limits ≠ none → AdmissionRequired settings →
      ¬ InGoodStanding settings users event → Gap settings config users event
  /-- A minimum below zero is taken for a minimum. -/
  | inDebt : config.limits ≠ none → FeeApplies settings event → InDebt settings users event →
      Gap settings config users event

/-- Payments are enabled where a fee applies. -/
theorem not_admissionRequired (h : FeeApplies settings event) : ¬ AdmissionRequired settings := by
  rintro ⟨hdisabled, -⟩
  obtain ⟨payments, hpayments, henabled, -⟩ := h
  rw [Option.mem_def.mp hpayments, Option.any_some, henabled] at hdisabled
  cases hdisabled

/-- Debt is no obstacle for the handler. -/
theorem InDebt.inGoodStanding (h : InDebt settings users event) :
    InGoodStanding settings users event := by
  obtain ⟨user, huser, hadmitted, -, hnegative⟩ := h
  exact ⟨user, huser, hadmitted, fun hpos => absurd hpos (not_lt.mpr hnegative.le)⟩

/-- **Mirroring applies the same policy** to every event of another author
than the relay itself, except for events that the limits permit where the
worker's policy has one of its gaps. -/
theorem samePolicy_iff (relayPublicKey : String) (settings : Settings) (config : Mirror)
    (users : Users) (now : ℤ) (event : Event) (hskip : config.skipAdmissionCheck ≠ some true)
    (hrelay : relayPublicKey ≠ event.pubkey) :
    SamePolicy relayPublicKey settings config users now event ↔
      ¬ (Permitted (StaticMirroringWorker.mergedLimits settings config) now event ∧
        Gap settings config users event) := by
  rw [SamePolicy, StaticMirroringWorker.canAcceptEvent_eq_true_iff hrelay,
    StaticMirroringWorker.isUserAdmitted_iff hskip,
    EventMessageHandler.canAcceptEvent_eq_none_iff hrelay,
    EventMessageHandler.isUserAdmitted_eq_none_iff hrelay]
  constructor
  · rintro hsame ⟨hpermitted, hgap⟩
    cases hgap with
    | noLimits hnone hadmitted => exact (hsame.mpr ⟨hpermitted, hadmitted⟩).1.1 hnone
    | admissionRequired hlimits hrequired hstanding =>
        -- no fee, so the worker asks for nothing
        have hfree : ¬ FeeApplies settings event := fun hfee => not_admissionRequired hfee hrequired
        have h := hsame.mp ⟨⟨hlimits, hpermitted⟩, fun hfee => absurd hfee hfree⟩
        exact hstanding (h.2 (Or.inr hrequired))
    | inDebt hlimits hfee hdebt =>
        have h := hsame.mpr ⟨hpermitted, fun _ => hdebt.inGoodStanding⟩
        exact (h.2 hfee).2 hdebt
  · intro hno
    constructor
    · rintro ⟨⟨hlimits, hpermitted⟩, hworker⟩
      refine ⟨hpermitted, fun hasks => ?_⟩
      rcases hasks with hfee | hrequired
      · exact (hworker hfee).1
      · by_contra hstanding
        exact hno ⟨hpermitted, .admissionRequired hlimits hrequired hstanding⟩
    · rintro ⟨hpermitted, hadmitted⟩
      have hlimits : config.limits ≠ none := fun hnone =>
        hno ⟨hpermitted, .noLimits hnone hadmitted⟩
      exact ⟨⟨hlimits, hpermitted⟩, fun hfee => ⟨hadmitted (Or.inl hfee), fun hdebt =>
        hno ⟨hpermitted, .inDebt hlimits hfee hdebt⟩⟩⟩

instance (relayPublicKey : String) (settings : Settings) (config : Mirror) (users : Users) (now : ℤ)
    (event : Event) : Decidable (SamePolicy relayPublicKey settings config users now event) :=
  inferInstanceAs (Decidable (_ ↔ _))

/-- A relay that charges for admission and asks for a balance. -/
def paidSettings : Settings where
  payments := some ⟨true, some ⟨some [⟨true, none⟩]⟩⟩
  authorization := none
  limits := some ⟨some { EventLimits.empty with pubkey := some ⟨some 1000, none, none, none⟩ }⟩

/-- A relay that lets in only whom it has admitted, without payments. -/
def closedSettings : Settings where
  payments := some ⟨false, none⟩
  authorization := some ⟨some true⟩
  limits := none

/-- A mirror of another relay, with a limit on notes. -/
def notesMirror : Mirror where
  address := "wss://relay.example"
  filters := some [⟨none, none, some [1], none, none, none, []⟩]
  secret := none
  limits := some ⟨some { EventLimits.empty with
    content := some (.object ⟨some [.kind 1], some 64⟩) }⟩
  skipAdmissionCheck := none

/-- A short note. -/
def shortNote : Event where
  id := "a9d53fee641fe563de947fa330a3b4902e52e249894660aaa521cd039e896128"
  pubkey := "f9308a019258c31049344f85f89d5229b531c845836f99b08601f113bce036f9"
  createdAt := 1700000000
  kind := 1
  tags := []
  content := "hello"
  sig := "3ed440e88bd49699e7827e60db9eaee0af7468afdb3b2c253301aa592d00c7e0" ++
    "8c5e0f64811944b6151f8959d21c1b0b484f0f6d396bce6285e2445496e75e28"

/-- The key of the relay itself. -/
def relayKey : String := "c6047f9441ed7d6d3045406e95c07cd85c778e4b8cef3ca7abac09b95c709ee5"

theorem samePolicy_paid :
    SamePolicy relayKey paidSettings notesMirror (fun _ => some ⟨true, 5000⟩) 1700000000
      shortNote := by
  refine (samePolicy_iff relayKey paidSettings notesMirror _ 1700000000 shortNote (by decide)
    (by decide)).mpr ?_
  rintro ⟨-, hgap⟩
  cases hgap with
  | noLimits hnone => cases hnone
  | admissionRequired _ hrequired => exact absurd hrequired.1 (by decide)
  | inDebt _ _ hdebt =>
      obtain ⟨user, -, -, -, hnegative⟩ := hdebt
      exact absurd hnegative (by decide)

/-- The mirror lets in an author whom the relay has never admitted. -/
theorem not_samePolicy_closed :
    ¬ SamePolicy relayKey closedSettings notesMirror (fun _ => none) 1700000000 shortNote := by
  decide

end NostrMesh.Relay
