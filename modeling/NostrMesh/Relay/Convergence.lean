/-
NostrMesh/Relay/Convergence.lean

Two relays that receive the same events of one replaceable address in
different orders.

A relay that starts empty keeps one row for the address, and the row is a
register that keeps its newest value (`held_receive`): the events whose values
the columns take are written to it in the order in which they arrive.  So two
relays agree on the time of the stored event, and on the event if no other one
has that time (`relays_converge`).  Of several events with that time each relay
keeps the first that arrived, and then the relays disagree (`relays_diverge`).
-/
import Mathlib.Data.List.Induction
import NostrMesh.Lib.Newest
import NostrMesh.Lib.Register
import NostrMesh.Relay.Addresses

namespace NostrMesh.Relay

open Tables Registers NewestFirst

/-! ### Deliveries -/

/-- The arrival of an event. -/
structure Delivery where
  now : ℕ
  event : ReceivedEvent
  deriving DecidableEq, Repr

/-- A relay receives an event, and no statement fails. -/
def receive (db : Database) (d : Delivery) : Database :=
  (handleEvent flatSchema ⟨none, none⟩ d.now d.event db).2

/-- A relay that starts empty receives some events. -/
def receiveAll (ds : List Delivery) : Database := ds.foldl receive ⟨[], []⟩

/-- What the relay stores. -/
def storedEvents (db : Database) : List Event := db.events.map toNostrEvent

/-- All events have this replaceable address. -/
def OneAddress (pubkey : String) (kind : ℕ) (d : Deduplication) (ds : List Delivery) : Prop :=
  ∀ delivery ∈ ds, delivery.event.pubkey = pubkey ∧ delivery.event.kind = kind ∧
    addressOf delivery.event.toEvent = some d

/-- What every relay sees of a delivery: the event, and the expiration that
its tags give. -/
def Delivery.contents (d : Delivery) : Event × Option ℤ := (d.event.toEvent, d.event.expiration)

/-- Every column takes the value that the event has for it. -/
def Fits (contents : Event × Option ℤ) : Prop :=
  (upsertRow 0 ((⟨contents.1, none, contents.2⟩ : ReceivedEvent).incoming
    (attached contents.1))).columnError = none

instance : DecidablePred Fits := fun _ => inferInstanceAs (Decidable (_ = _))

/-- The address of the client is a text. -/
def Delivery.HasRemoteAddress (d : Delivery) : Prop := d.event.remoteAddress.bind textError = none

/-- The two relays end up with the same stored event. -/
def Converge (ds ds' : List Delivery) : Prop :=
  storedEvents (receiveAll ds) = storedEvents (receiveAll ds')

/-! ### One delivery -/

/-- An event as it is read back from its row. -/
def storedForm (event : Event) : Event :=
  { event with
    id := Bytes.toHex (toBuffer event.id)
    pubkey := Bytes.toHex (toBuffer event.pubkey)
    sig := Bytes.toHex (toBuffer event.sig) }

/-- The write that an event asks for. -/
def entry (event : Event) : ℤ × Event := (event.createdAt, event)

/-- The table is the register: its row, if there is one, has this address and
holds the event. -/
def Held (pubkey : String) (kind : ℕ) (d : Deduplication) (held : Option (ℤ × Event))
    (rows : List EventRow) : Prop :=
  match held with
  | none => rows = []
  | some x => ∃ row, rows = [row] ∧ row.eventPubkey = toBuffer pubkey ∧ row.eventKind = kind ∧
      row.eventDeduplication = some d ∧ row.eventCreatedAt = x.1 ∧ toNostrEvent row = storedForm x.2

section

variable {pubkey : String} {kind : ℕ} {d : Deduplication} {held : Option (ℤ × Event)}
variable {db : Database} {delivery : Delivery}

/-- The strategies do nothing but upsert. -/
theorem receive_eq (h : (addressOf delivery.event.toEvent).isSome) : receive db delivery =
    (upsert flatSchema none delivery.now
      (delivery.event.incoming (attached delivery.event.toEvent)) db).2 := by
  rcases hupsert : upsert flatSchema none delivery.now
    (delivery.event.incoming (attached delivery.event.toEvent)) db with ⟨result, db'⟩
  obtain ⟨count, -, hhandled⟩ | ⟨e, message, -, hhandled⟩ :=
    handleEvent_of_upsert (F := ⟨none, none⟩) h hupsert
  · rw [receive, hhandled]
  · rw [receive, hhandled]

theorem columnError_iff_fits (hremote : delivery.HasRemoteAddress) :
    (upsertRow delivery.now (delivery.event.incoming
      (attached delivery.event.toEvent))).columnError = none ↔ Fits delivery.contents := by
  have heq : (upsertRow delivery.now (delivery.event.incoming
      (attached delivery.event.toEvent))).columnError =
      (upsertRow 0 ((⟨delivery.event.toEvent, none, delivery.event.expiration⟩ :
        ReceivedEvent).incoming (attached delivery.event.toEvent))).columnError := by
    rw [Delivery.HasRemoteAddress] at hremote
    simp only [EventRow.columnError, upsertRow, insertRow, ReceivedEvent.incoming, hremote,
      Option.bind_none]
    rfl
  rw [heq]
  rfl

/-- An event that does not fit is not stored. -/
theorem receive_of_not_fits (h : (addressOf delivery.event.toEvent).isSome)
    (hremote : delivery.HasRemoteAddress) (hfits : ¬ Fits delivery.contents) :
    receive db delivery = db := by
  rw [receive_eq h]
  rcases herror : (upsertRow delivery.now (delivery.event.incoming
    (attached delivery.event.toEvent))).columnError with - | e
  · exact absurd ((columnError_iff_fits hremote).mp herror) hfits
  · simp [upsert, upsertStatement, guarded, herror, Statement.exec]

/-- **An event that fits is written to the register.** -/
theorem held_receive (hheld : Held pubkey kind d held db.events)
    (hpubkey : delivery.event.pubkey = pubkey) (hkind : delivery.event.kind = kind)
    (haddr : addressOf delivery.event.toEvent = some d) (hremote : delivery.HasRemoteAddress)
    (hfits : Fits delivery.contents) :
    Held pubkey kind d (write held (entry delivery.event.toEvent)) (receive db delivery).events := by
  have h : (addressOf delivery.event.toEvent).isSome := by rw [haddr, Option.isSome_some]
  have herror := (columnError_iff_fits hremote).mpr hfits
  have hclash := clash_upsertRow_iff delivery.event delivery.now h
  have hrow := rowOf_upsertRow delivery.event delivery.now h
  have hchange : ∀ c, Tables.upsert flatSchema.enforced replaceableEventsIdx.toUniqueIndex
      (fun old => old.eventCreatedAt < (upsertRow delivery.now (delivery.event.incoming
        (attached delivery.event.toEvent))).eventCreatedAt)
      (mergeRow (upsertRow delivery.now (delivery.event.incoming
        (attached delivery.event.toEvent))))
      (upsertRow delivery.now (delivery.event.incoming (attached delivery.event.toEvent)))
      db.events = .ok c → (receive db delivery).events = c.apply db.events := by
    intro c hc
    rw [receive_eq h]
    simp only [upsert, upsertStatement, guarded, herror, infer_flatSchema, hc]
    rfl
  -- from here on only what the row holds matters
  generalize hr : upsertRow delivery.now (delivery.event.incoming
    (attached delivery.event.toEvent)) = row at hclash hrow hchange
  have hform : toNostrEvent row = storedForm delivery.event.toEvent := by
    rw [← hr]
    rfl
  rcases held with - | held
  · -- the first event of the address
    have hempty : db.events = [] := hheld
    have hviolated : violated flatSchema.enforced [] row = none := by simp [violated]
    have hinsert := hchange (.insert row) (by simp [hempty, Tables.upsert, hviolated])
    rw [hempty] at hinsert
    exact ⟨row, hinsert, hrow.eventPubkey.trans (congrArg _ hpubkey), hrow.eventKind.trans hkind,
      hrow.eventDeduplication.trans haddr, hrow.eventCreatedAt, hform⟩
  · obtain ⟨old, hrows, hpubkey', hkind', hdedup, htime, hstored⟩ := hheld
    have hsame : replaceableEventsIdx.toUniqueIndex.Clash old row :=
      (hclash old).mpr ⟨h, by rw [hpubkey', hpubkey], by rw [hkind', hkind], by rw [hdedup, haddr]⟩
    have htimes : old.eventCreatedAt < row.eventCreatedAt ↔
        held.1 < (entry delivery.event.toEvent).1 := by
      rw [htime, hrow.eventCreatedAt]
      rfl
    by_cases hlt : old.eventCreatedAt < row.eventCreatedAt
    · -- the only row is the one that is replaced, so that no index objects
      have hviolated : violated flatSchema.enforced [] (mergeRow row old) = none := by simp [violated]
      have hupdate : (receive db delivery).events = [mergeRow row old] := by
        rw [hchange (.update old (mergeRow row old)) (by
          simp [hrows, Tables.upsert, hsame, hlt, hviolated]), hrows]
        simp [Change.apply]
      rw [write_of_lt (htimes.mp hlt)]
      refine ⟨mergeRow row old, hupdate, hpubkey', hkind', hdedup, hrow.eventCreatedAt, ?_⟩
      show _ = storedForm delivery.event.toEvent
      rw [← hform]
      simp only [toNostrEvent, mergeRow, hpubkey', hkind', hrow.eventPubkey, hrow.eventKind, hpubkey,
        hkind]
    · have hkept := hchange .none (by simp [hrows, Tables.upsert, hsame, hlt])
      rw [write_of_le (not_lt.mp fun hlt' => hlt (htimes.mpr hlt'))]
      exact ⟨old, hkept.trans hrows, hpubkey', hkind', hdedup, htime, hstored⟩

end

/-! ### All deliveries -/

/-- The events that fit. -/
def fittingEvents (ds : List Delivery) : List Event :=
  ((ds.map Delivery.contents).filter fun contents => Fits contents).map Prod.fst

section

variable {pubkey : String} {kind : ℕ} {d : Deduplication} {ds ds' : List Delivery}

/-- **The table is the register** to which all events that fit have been
written. -/
theorem held_receiveAll (haddress : OneAddress pubkey kind d ds)
    (hremote : ∀ delivery ∈ ds, delivery.HasRemoteAddress) :
    Held pubkey kind d (writeAll none ((fittingEvents ds).map entry)) (receiveAll ds).events := by
  -- the last delivery is one more write
  induction ds using List.reverseRecOn with
  | nil => rfl
  | append_singleton ds delivery ih =>
      have hmem : delivery ∈ ds ++ [delivery] := by simp
      have hsub : ∀ x ∈ ds, x ∈ ds ++ [delivery] := fun x hx => List.mem_append_left _ hx
      obtain ⟨hpubkey, hkind, haddr⟩ := haddress delivery hmem
      have hheld := ih (fun x hx => haddress x (hsub x hx)) fun x hx => hremote x (hsub x hx)
      have hstep : receiveAll (ds ++ [delivery]) = receive (receiveAll ds) delivery := by
        simp [receiveAll]
      rw [hstep]
      by_cases hfits : Fits delivery.contents
      · have hevents : (fittingEvents (ds ++ [delivery])).map entry =
            (fittingEvents ds).map entry ++ [entry delivery.event.toEvent] := by
          have hcontents : delivery.contents.1 = delivery.event.toEvent := rfl
          simp [fittingEvents, hfits, hcontents]
        rw [hevents, writeAll_append]
        exact held_receive hheld hpubkey hkind haddr (hremote delivery hmem) hfits
      · have hevents : fittingEvents (ds ++ [delivery]) = fittingEvents ds := by
          simp [fittingEvents, hfits]
        rw [hevents, receive_of_not_fits (by rw [haddr, Option.isSome_some]) (hremote delivery hmem)
          hfits]
        exact hheld

/-- What the relay stores is what the register holds. -/
theorem storedEvents_receiveAll (haddress : OneAddress pubkey kind d ds)
    (hremote : ∀ delivery ∈ ds, delivery.HasRemoteAddress) : storedEvents (receiveAll ds) =
      (writeAll none ((fittingEvents ds).map entry)).toList.map fun x => storedForm x.2 := by
  have hheld := held_receiveAll haddress hremote
  rcases hw : writeAll none ((fittingEvents ds).map entry) with - | x
  · rw [hw] at hheld
    have hempty : (receiveAll ds).events = [] := hheld
    simp [storedEvents, hempty]
  · rw [hw] at hheld
    obtain ⟨row, hrows, -, -, -, -, hform⟩ := hheld
    simp [storedEvents, hrows, hform]

/-- The register holds the first of the newest events that fit. -/
theorem isFirstNewest_of_writeAll {x : ℤ × Event}
    (h : writeAll none ((fittingEvents ds).map entry) = some x) :
    IsFirstNewest Event.createdAt (fittingEvents ds) x.2 := by
  obtain ⟨event, rfl, hfirst⟩ := (isFirstNewest_writeAll h).of_map
  exact hfirst

/-- **A relay stores the first of the newest events that fit**, if there is
one. -/
theorem storedEvents_newest (haddress : OneAddress pubkey kind d ds)
    (hremote : ∀ delivery ∈ ds, delivery.HasRemoteAddress) (hne : fittingEvents ds ≠ []) :
    ∃ event, IsFirstNewest Event.createdAt (fittingEvents ds) event ∧
      storedEvents (receiveAll ds) = [storedForm event] := by
  rw [storedEvents_receiveAll haddress hremote]
  rcases hw : writeAll none ((fittingEvents ds).map entry) with - | x
  · exact absurd (List.map_eq_nil_iff.mp (writeAll_eq_none_iff.mp hw)) hne
  · exact ⟨x.2, isFirstNewest_of_writeAll hw, rfl⟩

/-- **Two relays** that receive the same events of one address end up with
events of the same time, that of the newest events that fit, each with the first
of these that it received, and with the same event if only one of the events that
fit has that time. -/
theorem relays_converge (haddress : OneAddress pubkey kind d ds)
    (haddress' : OneAddress pubkey kind d ds')
    (hremote : ∀ delivery ∈ ds, delivery.HasRemoteAddress)
    (hremote' : ∀ delivery ∈ ds', delivery.HasRemoteAddress)
    (hperm : (ds.map Delivery.contents).Perm (ds'.map Delivery.contents)) :
    (fittingEvents ds ≠ [] → ∃ event event',
      IsFirstNewest Event.createdAt (fittingEvents ds) event ∧
      IsFirstNewest Event.createdAt (fittingEvents ds') event' ∧
      storedEvents (receiveAll ds) = [storedForm event] ∧
      storedEvents (receiveAll ds') = [storedForm event'] ∧ event.createdAt = event'.createdAt) ∧
    ((∀ event event', IsNewest Event.createdAt (fittingEvents ds) event →
      IsNewest Event.createdAt (fittingEvents ds) event' → event = event') → Converge ds ds') := by
  have hfitting : (fittingEvents ds).Perm (fittingEvents ds') := (hperm.filter _).map _
  have hmem : ∀ event, event ∈ fittingEvents ds' ↔ event ∈ fittingEvents ds :=
    fun event => hfitting.mem_iff.symm
  have hmain : fittingEvents ds ≠ [] → ∃ event event',
      IsFirstNewest Event.createdAt (fittingEvents ds) event ∧
      IsFirstNewest Event.createdAt (fittingEvents ds') event' ∧
      storedEvents (receiveAll ds) = [storedForm event] ∧
      storedEvents (receiveAll ds') = [storedForm event'] ∧
      event.createdAt = event'.createdAt := by
    intro hne
    have hne' : fittingEvents ds' ≠ [] := fun hnil => hne (hnil ▸ hfitting).eq_nil
    obtain ⟨event, hevent, hstored⟩ := storedEvents_newest haddress hremote hne
    obtain ⟨event', hevent', hstored'⟩ := storedEvents_newest haddress' hremote' hne'
    have hnewest := hevent.isNewest
    have hnewest' := hevent'.isNewest.congr hmem
    exact ⟨event, event', hevent, hevent', hstored, hstored',
      le_antisymm (hnewest'.2 event hnewest.1) (hnewest.2 event' hnewest'.1)⟩
  refine ⟨hmain, fun hown => ?_⟩
  rw [Converge]
  by_cases hne : fittingEvents ds = []
  · have hne' : fittingEvents ds' = [] := (hne ▸ hfitting).nil_eq.symm
    rw [storedEvents_receiveAll haddress hremote, storedEvents_receiveAll haddress' hremote', hne,
      hne']
  · obtain ⟨event, event', hevent, hevent', hstored, hstored', -⟩ := hmain hne
    rw [hstored, hstored', hown event event' hevent.isNewest (hevent'.isNewest.congr hmem)]

end

/-! ### Profiles -/

/-- A profile event of one key. -/
def profileDelivery (id content sig : String) (createdAt : ℤ) : Delivery where
  now := 0
  event :=
    { id := id
      pubkey := "f9308a019258c31049344f85f89d5229b531c845836f99b08601f113bce036f9"
      createdAt := createdAt
      kind := 0
      tags := []
      content := content
      sig := sig
      remoteAddress := some "::1"
      expiration := none }

def profileA : Delivery :=
  profileDelivery "10f6719223f764164557e63a13424ae414b59442d2dc2069453cc53c144eefaa" "\x7b\x7d"
    ("4cc4754e384744ee578265f01750c8fbe90ffb645abd6479ba15ee23b3c7a9c7" ++
      "6b1bc09c53e484fb5633dfb1e59352d3ea134468bfee145d9b769b32e9be1005") 1700000000

def profileB : Delivery :=
  profileDelivery "1a7dc6039023764eaff10951348e03fe893b02fe936144f856c67cdcb0195671" ""
    ("edffa686e1ae7c56a7ed4701a9eec8a64b3791789fe86dfe9992bf1ef8f6df65" ++
      "866f682bf61246f1f040190058830718b6b6c5d25d91faab841b82c197be526f") 1700000000

/-- Written later than the other two. -/
def laterProfile : Delivery :=
  profileDelivery "96d191f3e88aec641d8014f3f6ed9fd929c8faf4043bae84378a7aff22c3cc7a" "\x7b\x7d"
    ("16a6af2b63a6191fa60d051d8dd676fa058887960d23f67871eff97d0a5fdab3" ++
      "ad22e9cd47f8b46189dc0e491328ad34d337c9f52df5821f3ed323d4f86b36e9") 1700000100

theorem oneAddress_profiles {ds : List Delivery}
    (h : ∀ d ∈ ds, d = profileA ∨ d = profileB ∨ d = laterProfile) :
    OneAddress profileA.event.pubkey 0 (.ofPubkeyKind profileA.event.pubkey 0) ds := by
  intro d hd
  rcases h d hd with rfl | rfl | rfl
  · exact ⟨rfl, rfl, rfl⟩
  · exact ⟨rfl, rfl, rfl⟩
  · exact ⟨rfl, rfl, rfl⟩

theorem hasRemoteAddress_profiles {ds : List Delivery}
    (h : ∀ d ∈ ds, d = profileA ∨ d = profileB ∨ d = laterProfile) :
    ∀ d ∈ ds, d.HasRemoteAddress := by
  intro d hd
  rw [Delivery.HasRemoteAddress]
  rcases h d hd with rfl | rfl | rfl
  · decide
  · decide
  · decide

/-- Three profiles in two orders: both relays keep the latest.  Without it each
keeps the first of the other two. -/
theorem relays_converge_profiles :
    Converge [profileA, profileB, laterProfile] [laterProfile, profileB, profileA] ∧
    ∃ event event', IsFirstNewest Event.createdAt (fittingEvents [profileA, profileB]) event ∧
      IsFirstNewest Event.createdAt (fittingEvents [profileB, profileA]) event' ∧
      storedEvents (receiveAll [profileA, profileB]) = [storedForm event] ∧
      storedEvents (receiveAll [profileB, profileA]) = [storedForm event'] ∧
      event.createdAt = event'.createdAt := by
  have hprofiles : ∀ d ∈ [profileA, profileB, laterProfile],
      d = profileA ∨ d = profileB ∨ d = laterProfile := by simp
  have hprofiles' : ∀ d ∈ [laterProfile, profileB, profileA],
      d = profileA ∨ d = profileB ∨ d = laterProfile := by simp
  have hties : ∀ d ∈ [profileA, profileB], d = profileA ∨ d = profileB ∨ d = laterProfile := by simp
  have hties' : ∀ d ∈ [profileB, profileA], d = profileA ∨ d = profileB ∨ d = laterProfile := by simp
  have hfitting : fittingEvents [profileA, profileB, laterProfile] =
      [profileA.event.toEvent, profileB.event.toEvent, laterProfile.event.toEvent] := by
    decide +kernel
  have hlatest : ∀ event, IsNewest Event.createdAt
      (fittingEvents [profileA, profileB, laterProfile]) event →
      event = laterProfile.event.toEvent := by
    rw [hfitting]
    rintro event ⟨hmem, hnewest⟩
    have hle := hnewest laterProfile.event.toEvent (by simp)
    simp only [List.mem_cons, List.not_mem_nil, or_false] at hmem
    rcases hmem with rfl | rfl | rfl
    · exact absurd hle (by decide)
    · exact absurd hle (by decide)
    · rfl
  constructor
  · exact (relays_converge (oneAddress_profiles hprofiles) (oneAddress_profiles hprofiles')
      (hasRemoteAddress_profiles hprofiles) (hasRemoteAddress_profiles hprofiles')
      (List.reverse_perm [_, _, _]).symm).2
        fun event event' hevent hevent' => (hlatest event hevent).trans (hlatest event' hevent').symm
  · exact (relays_converge (oneAddress_profiles hties) (oneAddress_profiles hties')
      (hasRemoteAddress_profiles hties) (hasRemoteAddress_profiles hties')
      (List.Perm.swap _ _ _)).1 (by decide +kernel)

/-- **Two events of one second** stay in the order of arrival: of two relays
that receive them in different orders, each keeps its first. -/
theorem relays_diverge :
    (OneAddress profileA.event.pubkey 0 (.ofPubkeyKind profileA.event.pubkey 0) [profileA, profileB] ∧
      List.Perm [profileA, profileB] [profileB, profileA]) ∧
    ¬ Converge [profileA, profileB] [profileB, profileA] := by
  refine ⟨⟨oneAddress_profiles (by simp), List.Perm.swap _ _ _⟩, ?_⟩
  rw [Converge]
  decide +kernel

end NostrMesh.Relay
