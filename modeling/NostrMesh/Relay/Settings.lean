/-
NostrMesh/Relay/Settings.lean

The settings that decide whether an event is let in: the limits on events,
the fees, and the requirement of admission.  A mirror may override limits;
`mergeDeepRight` puts its overrides over the limits of the relay.

Each condition of the policy is stated once, as the limit that an event
exceeds or misses, or as the list that bans it.
-/
import NostrMesh.Relay.EventRepository

namespace NostrMesh.Relay

/-! ### Limits on events -/

/-- `EventKinds | EventKindsRange`. -/
inductive KindOrRange
  | kind (kind : ℕ)
  | range (first last : ℕ)
  deriving DecidableEq, Repr

def isEventKindOrRangeMatch (event : Event) : KindOrRange → Bool
  | .kind kind => kind = event.kind
  | .range first last => first ≤ event.kind && event.kind ≤ last

structure EventIdLimits where
  minLeadingZeroBits : Option ℤ
  deriving DecidableEq, Repr

structure PubkeyLimits where
  minBalance : Option ℤ
  minLeadingZeroBits : Option ℤ
  whitelist : Option (List String)
  blacklist : Option (List String)
  deriving DecidableEq, Repr

structure KindLimits where
  whitelist : Option (List KindOrRange)
  blacklist : Option (List KindOrRange)
  deriving DecidableEq, Repr

structure CreatedAtLimits where
  maxNegativeDelta : Option ℤ
  maxPositiveDelta : Option ℤ
  deriving DecidableEq, Repr

structure ContentLimits where
  kinds : Option (List KindOrRange)
  maxLength : Option ℤ
  deriving DecidableEq, Repr

/-- `ContentLimits | ContentLimits[]`. -/
inductive ContentSetting
  | object (limits : ContentLimits)
  | array (limits : List ContentLimits)
  deriving DecidableEq, Repr

structure EventRateLimit where
  period : ℤ
  rate : ℤ
  kinds : Option (List KindOrRange)
  deriving DecidableEq, Repr

structure EventWhitelists where
  pubkeys : Option (List String)
  ipAddresses : Option (List String)
  deriving DecidableEq, Repr

structure EventLimits where
  eventId : Option EventIdLimits
  pubkey : Option PubkeyLimits
  kind : Option KindLimits
  createdAt : Option CreatedAtLimits
  content : Option ContentSetting
  rateLimits : Option (List EventRateLimit)
  whitelists : Option EventWhitelists
  deriving DecidableEq, Repr

/-- `{}`. -/
def EventLimits.empty : EventLimits := ⟨none, none, none, none, none, none, none⟩

structure Limits where
  event : Option EventLimits
  deriving DecidableEq, Repr

/-! ### Fees and admission -/

structure FeeScheduleWhitelists where
  pubkeys : Option (List String)
  eventKinds : Option (List KindOrRange)
  deriving DecidableEq, Repr

structure FeeSchedule where
  enabled : Bool
  whitelists : Option FeeScheduleWhitelists
  deriving DecidableEq, Repr

structure FeeSchedules where
  admission : Option (List FeeSchedule)
  deriving DecidableEq, Repr

structure Payments where
  enabled : Bool
  feeSchedules : Option FeeSchedules
  deriving DecidableEq, Repr

structure Authorization where
  requireAdmission : Option Bool
  deriving DecidableEq, Repr

structure Settings where
  payments : Option Payments
  authorization : Option Authorization
  limits : Option Limits
  deriving DecidableEq, Repr

/-- `settings.limits?.event ?? {}`. -/
def Settings.eventLimits (settings : Settings) : EventLimits :=
  (settings.limits.bind Limits.event).getD .empty

structure Mirror where
  address : String
  filters : Option (List SubscriptionFilter)
  secret : Option String
  limits : Option Limits
  skipAdmissionCheck : Option Bool
  deriving DecidableEq, Repr

/-! ### `mergeDeepRight` -/

/-- One key whose values are objects on both sides, if they are there. -/
def mergeKey {α : Type*} (merge : α → α → α) : Option α → Option α → Option α
  | some l, some r => some (merge l r)
  | l, none => l
  | none, r => r

/-- Objects are merged, and an array is replaced as a whole. -/
def ContentSetting.mergeDeepRight : ContentSetting → ContentSetting → ContentSetting
  | .object l, .object r => .object ⟨r.kinds <|> l.kinds, r.maxLength <|> l.maxLength⟩
  | _, r => r

def EventLimits.mergeDeepRight (l r : EventLimits) : EventLimits where
  eventId := mergeKey (fun l r => ⟨r.minLeadingZeroBits <|> l.minLeadingZeroBits⟩) l.eventId r.eventId
  pubkey := mergeKey (fun l r =>
    ⟨r.minBalance <|> l.minBalance, r.minLeadingZeroBits <|> l.minLeadingZeroBits,
      r.whitelist <|> l.whitelist, r.blacklist <|> l.blacklist⟩) l.pubkey r.pubkey
  kind := mergeKey (fun l r => ⟨r.whitelist <|> l.whitelist, r.blacklist <|> l.blacklist⟩) l.kind r.kind
  createdAt := mergeKey (fun l r =>
    ⟨r.maxNegativeDelta <|> l.maxNegativeDelta, r.maxPositiveDelta <|> l.maxPositiveDelta⟩)
    l.createdAt r.createdAt
  content := mergeKey ContentSetting.mergeDeepRight l.content r.content
  rateLimits := r.rateLimits <|> l.rateLimits
  whitelists := mergeKey (fun l r => ⟨r.pubkeys <|> l.pubkeys, r.ipAddresses <|> l.ipAddresses⟩)
    l.whitelists r.whitelists

/-! ### Proof of work -/

/-- The zero bits before the first bit of a byte that is set. -/
def msb (b : UInt8) : ℕ := if b = 0 then 8 else 7 - b.toNat.log2

def getLeadingZeroBits : Bytes → ℕ
  | [] => 0
  | b :: bs => if msb b = 8 then 8 + getLeadingZeroBits bs else msb b

def getEventProofOfWork (eventId : String) : ℕ := getLeadingZeroBits (toBuffer eventId)

def getPubkeyProofOfWork (pubkey : String) : ℕ := getLeadingZeroBits (toBuffer pubkey)

/-! ### The conditions of the policy -/

/-- The length that the content exceeds. -/
def exceededLength (event : Event) (limit : ContentLimits) : Option ℤ :=
  limit.maxLength.filter fun maxLength =>
    0 < maxLength && maxLength < Js.length event.content &&
      limit.kinds.all fun kinds => kinds.any (isEventKindOrRangeMatch event)

/-- The first length that the content exceeds. -/
def exceededContent (event : Event) : ContentSetting → Option ℤ
  | .array limits => limits.findSome? (exceededLength event)
  | .object limits => exceededLength event limits

def exceededPositiveDelta (now : ℤ) (event : Event) (limits : CreatedAtLimits) : Option ℤ :=
  limits.maxPositiveDelta.filter fun delta => 0 < delta && now + delta < event.createdAt

def exceededNegativeDelta (now : ℤ) (event : Event) (limits : CreatedAtLimits) : Option ℤ :=
  limits.maxNegativeDelta.filter fun delta => 0 < delta && event.createdAt < now - delta

/-- The difficulty that a proof of work misses. -/
def missedDifficulty (pow : ℕ) (minLeadingZeroBits : Option ℤ) : Option ℤ :=
  minLeadingZeroBits.filter fun bits => 0 < bits && pow < bits

/-- A whitelist that has entries, none of which applies. -/
def isNotWhitelisted {α : Type*} (applies : α → Bool) (whitelist : Option (List α)) : Bool :=
  whitelist.any fun entries => 0 < entries.length && !entries.any applies

/-- A blacklist with an entry that applies. -/
def isBlacklisted {α : Type*} (applies : α → Bool) (blacklist : Option (List α)) : Bool :=
  blacklist.any fun entries => 0 < entries.length && entries.any applies

def feeScheduleApplies (event : Event) (feeSchedule : FeeSchedule) : Bool :=
  feeSchedule.enabled &&
    !(feeSchedule.whitelists.bind FeeScheduleWhitelists.pubkeys).any (fun pubkeys =>
      pubkeys.any fun pubkey => Js.startsWith event.pubkey pubkey) &&
    !(feeSchedule.whitelists.bind FeeScheduleWhitelists.eventKinds).any fun kinds =>
      kinds.any (isEventKindOrRangeMatch event)

/-- The admission fees that apply to an event; `[]` also where there is no
list of fees. -/
def applicableFees (payments : Payments) (event : Event) : List FeeSchedule :=
  ((payments.feeSchedules.bind FeeSchedules.admission).getD []).filter (feeScheduleApplies event)

end NostrMesh.Relay
