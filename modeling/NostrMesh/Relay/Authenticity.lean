/-
NostrMesh/Relay/Authenticity.lean

Whether what the relay sends verifies.

Clients check the id and the signature of every event.  The relay reads its
events back from the columns of the table, in which identifiers are bytes, so
that an event whose identifiers are not in lower case comes back as another
one.  The schema refuses such an event from a client; a mirror has no schema,
and stores it, so that what the relay sends verifies (`Original`) up to the
letters of a mirrored event (`isEventIdValid_storedForm_iff`).  Texts with
unpaired surrogates, which come back as other texts, are outside the model
(`NostrMesh.Event`).

`Safe` carries this through any interleaving (`honest_handle`).
-/
import NostrMesh.Relay.AdmissionPolicy
import NostrMesh.Relay.Deletion
import NostrMesh.Relay.Identity

namespace NostrMesh.Relay.Authenticity

open Interleaving Tables Traffic
open Columns (eventSchema eventSchema_eq_true_iff)
open Identity (Secp256k1 UpdatedInvoice runtime sendInvoiceUpdateNotification canonicalBytes)
open LiveEvents (hexSchema toHex_toBuffer)

/-! ### What leaves the relay -/

/-- The events that a handler sends to anybody. -/
def events : Traffic.Answer → List Event
  | .emitted emits => emits.filterMap Emit.announced
  | .sent events => events
  | .ended => []

/-- The event is one that verifies, or one of the mirrored events that does,
read back from its row. -/
def Original (R : Runtime) (Mirrored : Event → Prop) (event original : Event) : Prop :=
  Valid R original ∧ (event = original ∨ Mirrored original ∧ event = storedForm original)

def Genuine (R : Runtime) (Mirrored : Event → Prop) (event : Event) : Prop :=
  ∃ original, Original R Mirrored event original

def Verifies (R : Runtime) (Mirrored : Event → Prop) (a : Traffic.Answer) : Prop :=
  ∀ event ∈ events a, Genuine R Mirrored event

/-- Every row holds such an event, deleted or not. -/
def Authentic (R : Runtime) (Mirrored : Event → Prop) (db : Database) : Prop :=
  ∀ row ∈ db.events, Genuine R Mirrored (toNostrEvent row)

/-- What is known of a message before its handler runs: the schema has let a
client's event pass, and the relay has made its notifications itself.  Of a
mirrored event nothing is. -/
inductive Sound (K : Secp256k1) (Mirrored : Event → Prop) (relayPrivkey : String)
    (nextMonth : ℤ → ℤ) : Message → Prop
  | event {event : Event} {remoteAddress : Option String} : eventSchema event = true →
      Sound K Mirrored relayPrivkey nextMonth (.event event remoteAddress)
  | req (filters : List SubscriptionFilter) :
      Sound K Mirrored relayPrivkey nextMonth (.req filters)
  | mirrored {event : Event} (filters : List SubscriptionFilter) : Mirrored event →
      Sound K Mirrored relayPrivkey nextMonth (.mirrored filters event)
  | notification {now : ℤ} {invoice : UpdatedInvoice} {event : ReceivedEvent} :
      K.isValidPrivateKey relayPrivkey = true →
      sendInvoiceUpdateNotification K relayPrivkey nextMonth now invoice = .ok event →
      Sound K Mirrored relayPrivkey nextMonth (.notification event)

section

variable {R : Runtime} {Mirrored : Event → Prop} {S : Schema} {db : Database} {event : Event}

theorem genuine_of_valid (h : Valid R event) : Genuine R Mirrored event := ⟨event, h, .inl rfl⟩

/-- What is read back of an event in lower case, or of a mirrored one. -/
theorem genuine_storedForm (hvalid : Valid R event)
    (h : storedForm event = event ∨ Mirrored event) : Genuine R Mirrored (storedForm event) := by
  rcases h with hform | hmirrored
  · rw [hform]
    exact genuine_of_valid hvalid
  · exact ⟨event, hvalid, .inr ⟨hmirrored, rfl⟩⟩

theorem verifies_nil {a : Traffic.Answer} (h : events a = []) : Verifies R Mirrored a := by
  intro event hmem
  rw [h] at hmem
  cases hmem

theorem verifies_of_events_eq {a : Traffic.Answer} (h : events a = [event])
    (hvalid : Valid R event) : Verifies R Mirrored a := by
  rw [Verifies, h]
  exact List.forall_mem_singleton.mpr (genuine_of_valid hvalid)

theorem verifies_commandResult (h : Valid R event) (count : ℕ) :
    Verifies R Mirrored (.emitted (commandResult event count)) := by
  rw [commandResult]
  split
  · exact verifies_nil rfl
  · exact verifies_of_events_eq rfl h

/-! ### What the statements leave in the table -/

/-- The identifiers of the event are in lower case. -/
theorem storedForm_eq (hid : hexSchema 64 event.id = true) (hpubkey : hexSchema 64 event.pubkey = true)
    (hsig : hexSchema 128 event.sig = true) : storedForm event = event := by
  rw [storedForm, toHex_toBuffer hid rfl, toHex_toBuffer hpubkey rfl, toHex_toBuffer hsig rfl]

section

variable {incoming : IncomingEvent} {fault : Option DbError} {now : ℕ}

theorem Authentic.create (h : Authentic R Mirrored db)
    (hgenuine : Genuine R Mirrored (storedForm incoming.toEvent)) :
    Authentic R Mirrored (create S fault now incoming db).2 := by
  rcases create_cases S fault now incoming db with hsame | ⟨hinsert, -⟩
  · rwa [hsame]
  · rw [hinsert]
    intro row hrow
    rcases List.mem_append.mp hrow with hold | hnew
    · exact h row hold
    · rwa [List.mem_singleton.mp hnew]

theorem Authentic.upsert (h : Authentic R Mirrored db)
    (hgenuine : Genuine R Mirrored (storedForm incoming.toEvent)) :
    Authentic R Mirrored (upsert S fault now incoming db).2 := by
  have hnew : Genuine R Mirrored (toNostrEvent (insertRow now incoming)) := hgenuine
  rcases upsert_results S fault now incoming db with
    ⟨e, he⟩ | hinsert | ⟨old, hold, hpubkey, hkind, hupdate⟩ | hsame
  · rwa [he]
  · rw [hinsert]
    intro row hrow
    rcases List.mem_append.mp hrow with hmem | hmem
    · exact h row hmem
    · rwa [List.mem_singleton.mp hmem]
  · rw [hupdate]
    intro row hrow
    rcases (mem_apply_update hold).mp hrow with rfl | ⟨hmem, -⟩
    · -- the columns that the merge keeps are those of the event
      have hrow : toNostrEvent (mergeRow (upsertRow now incoming) old) =
          toNostrEvent (insertRow now incoming) := by
        simp only [toNostrEvent, mergeRow, upsertRow, insertRow, hpubkey, hkind]
      rwa [hrow]
    · exact h row hmem
  · rwa [hsame]

theorem Authentic.deleteByPubkeyAndIds {pubkey : String} {ids : List String}
    (h : Authentic R Mirrored db) :
    Authentic R Mirrored (deleteByPubkeyAndIds fault now pubkey ids db).2 := by
  rcases deleteByPubkeyAndIds_cases fault now pubkey ids db with hsame | hmarked
  · rwa [hsame]
  · intro row hrow
    rw [hmarked] at hrow
    obtain ⟨old, hold, rfl⟩ := List.mem_map.mp hrow
    rcases markRow_cases now pubkey ids old with ⟨-, hmark⟩ | ⟨-, hmark⟩
    · rw [hmark]
      exact h old hold
    · rw [hmark]
      exact h old hold

/-- A stored answer has rows of the table. -/
theorem Authentic.verifies_sent (h : Authentic R Mirrored db) {filters : List SubscriptionFilter}
    {rows : List EventRow} {order : RowOrder} (hrows : findByFilters fault filters db order = .ok rows) :
    Verifies R Mirrored (.sent (sendable filters rows)) := by
  intro event hmem
  obtain ⟨⟨row, hrow, -, rfl⟩, -⟩ := mem_sendable.mp hmem
  rw [findByFilters_ok hrows] at hrow
  exact h row (mem_events_of_mem_runQuery hrow)

end

/-! ### Handlers -/

/-- The handler keeps the table authentic, whatever the others do within that,
and its answer verifies. -/
abbrev Honest (R : Runtime) (Mirrored : Event → Prop) (S : Schema) (p : Handler Traffic.Answer)
    (db : Database) : Prop :=
  Safe (eff S) (Authentic R Mirrored) (fun _ _ => True) (fun _ _ => True)
    (fun a _ => Verifies R Mirrored a) p db

theorem Honest.verifies {a : Traffic.Answer} (h : Honest R Mirrored S (.ret a) db)
    (hdb : Authentic R Mirrored db) : Verifies R Mirrored a := h db trivial hdb

theorem honest_ret {a : Traffic.Answer} (h : Verifies R Mirrored a) :
    Honest R Mirrored S (.ret a) db := fun _ _ _ => h

/-- The checks do not touch the table. -/
theorem honest_check {k : Checked → Handler Traffic.Answer}
    (h : ∀ r db, Honest R Mirrored S (k r) db) :
    Honest R Mirrored S (.op (.check event) k) db := by
  rintro db₁ - hdb r db' rfl
  exact ⟨hdb, trivial, h r db'⟩

theorem honest_create {incoming : IncomingEvent} {k : ℕ → Handler Traffic.Answer}
    (hgenuine : Genuine R Mirrored (storedForm incoming.toEvent))
    (h : ∀ count db, Honest R Mirrored S (k count) db) :
    Honest R Mirrored S (.op (.create incoming) k) db := by
  rintro db₁ - hdb r db' ⟨fault, now, heq⟩
  obtain rfl : db' = _ := congrArg Prod.snd heq
  exact ⟨hdb.create hgenuine, trivial, h r _⟩

/-- **The handler of a client's message.** -/
theorem honest_of_rest {message : Message} {p : Handler Traffic.Answer}
    (hschema : ∀ event remoteAddress, message = .event event remoteAddress →
      storedForm event = event) (h : Rest R message p) (db : Database) :
    Honest R Mirrored S p db := by
  induction h generalizing db with
  | refused message => exact honest_ret (verifies_nil rfl)
  | relayed hvalid hstrategy => exact honest_ret (verifies_of_events_eq rfl hvalid)
  | ended => exact honest_ret (verifies_nil rfl)
  | checking hk ih => exact honest_check fun r db => ih r hschema db
  | deleting hvalid hdelete hk ih =>
      rintro db₁ - hdb r db' ⟨fault, now, heq⟩
      obtain rfl : db' = _ := congrArg Prod.snd heq
      exact ⟨hdb.deleteByPubkeyAndIds, trivial, ih r hschema _⟩
  | creating hvalid haddr hstrategy hk =>
      refine honest_create (genuine_storedForm hvalid (.inl (hschema _ _ rfl))) fun count db => ?_
      rw [hk count]
      exact honest_ret (verifies_commandResult hvalid count)
  | upserting hvalid haddr hok herror =>
      rintro db₁ - hdb r db' ⟨fault, now, heq⟩
      obtain rfl : db' = _ := congrArg Prod.snd heq
      refine ⟨hdb.upsert (genuine_storedForm hvalid (.inl (hschema _ _ rfl))), trivial, ?_⟩
      rcases r with e | count
      · obtain ⟨message, hmessage⟩ := herror e
        rw [hmessage]
        exact honest_ret (verifies_nil rfl)
      · rw [hok count]
        exact honest_ret (verifies_commandResult hvalid count)
  | finding herror hok =>
      rintro db₁ - hdb r db' ⟨rfl, fault, order, hr⟩
      refine ⟨hdb, trivial, ?_⟩
      rcases r with e | rows
      · rw [herror e]
        exact honest_ret (verifies_nil rfl)
      · rw [hok rows]
        exact honest_ret (hdb.verifies_sent hr.symm)

end

/-! ### Messages of any kind -/

section

variable {K : Secp256k1} {safeInteger : String → Option ℤ} {Mirrored : Event → Prop}
  {relayPrivkey : String} {nextMonth : ℤ → ℤ} {S : Schema} (hK : K.Reliable)

include hK

/-- An id that is right is in lower case. -/
theorem hexSchema_id {event : Event} (h : isEventIdValid (runtime K safeInteger) event = true) :
    hexSchema 64 event.id = true := by
  have hid : event.id = Identity.getEventHash K event.pubkey event.template := of_decide_eq_true h
  rw [hid]
  exact Identity.hexSchema_getEventHash hK _ _

/-- The notification is an event that comes back as it was. -/
theorem notification_spec {now : ℤ} {invoice : UpdatedInvoice} {event : ReceivedEvent}
    (hkey : K.isValidPrivateKey relayPrivkey = true)
    (h : sendInvoiceUpdateNotification K relayPrivkey nextMonth now invoice = .ok event) :
    Valid (runtime K safeInteger) event.toEvent ∧ storedForm event.toEvent = event.toEvent := by
  rw [sendInvoiceUpdateNotification] at h
  split at h
  · cases h
  · obtain rfl := Except.ok.inj h
    have hvalid := Identity.valid_identifyAndSign hK safeInteger hkey
    refine ⟨hvalid _, storedForm_eq (hexSchema_id hK (hvalid _).1) ?_ ?_⟩
    · exact Identity.hexSchema_toHex (by rw [hK.length_getPublicKey hkey])
    · have hid := Identity.hexSchema_getEventHash hK
      exact Identity.hexSchema_toHex (by rw [hK.length_sign (hid _ _) hkey])

/-- **Every handler is honest.** -/
theorem honest_handle {message : Message} (h : Sound K Mirrored relayPrivkey nextMonth message)
    (db : Database) :
    Honest (runtime K safeInteger) Mirrored S (handle (runtime K safeInteger) message) db := by
  cases h with
  | @event event remoteAddress hschema =>
      have hclient : (Message.event event remoteAddress).IsClient := trivial
      refine honest_of_rest ?_ (rest_handle hclient) db
      rintro event' remoteAddress' heq
      obtain ⟨rfl, -⟩ := Message.event.inj heq
      obtain ⟨hid, hpubkey, -, -, -, hsig⟩ := eventSchema_eq_true_iff.mp hschema
      exact storedForm_eq hid hpubkey hsig
  | req filters =>
      have hclient : (Message.req filters).IsClient := trivial
      refine honest_of_rest ?_ (rest_handle hclient) db
      intro event remoteAddress heq
      cases heq
  | @mirrored event filters hmirrored =>
      simp only [handle, mirror]
      split
      · exact honest_ret (verifies_nil rfl)
      · split
        · exact honest_ret (verifies_nil rfl)
        · next hvalid =>
          simp only [Bool.or_eq_true, Bool.not_eq_true', not_or, Bool.not_eq_false] at hvalid
          have hgenuine := genuine_storedForm hvalid (.inr hmirrored)
          refine honest_check fun r db => ?_
          rcases r with - | reason | -
          · -- the mirror has verified the event, and has not looked at its letters
            refine honest_create hgenuine fun count db => honest_ret ?_
            by_cases hcount : count = 0
            · rw [if_pos hcount]
              exact verifies_nil rfl
            · rw [if_neg hcount]
              exact verifies_of_events_eq rfl hvalid
          · exact honest_ret (verifies_nil rfl)
          · exact honest_ret (verifies_nil rfl)
  | notification hkey hevent =>
      obtain ⟨hvalid, hform⟩ := notification_spec hK hkey hevent
      refine honest_create (genuine_storedForm hvalid (.inl hform)) fun count db => ?_
      exact honest_ret (verifies_of_events_eq rfl hvalid)

variable {ι : Type*} [DecidableEq ι] {messages : ι → Message} {db : Database}
  {c : Pool Op Res Database Traffic.Answer ι}

/-- The table stays authentic, and the handlers honest. -/
theorem honest_of_reaches (hmessages : ∀ i, Sound K Mirrored relayPrivkey nextMonth (messages i))
    (hdb : Authentic (runtime K safeInteger) Mirrored db)
    (hr : PoolReaches (fun _ => eff S) (begun (runtime K safeInteger) messages db) c) :
    Authentic (runtime K safeInteger) Mirrored c.1 ∧
      ∀ i, Honest (runtime K safeInteger) Mirrored S (c.2 i) c.1 :=
  pool_safe (R := fun _ _ _ => True) (G := fun _ _ _ => True)
    (Q := fun _ a _ => Verifies (runtime K safeInteger) Mirrored a)
    (fun _ _ => trivial) (fun _ _ _ _ _ _ => trivial) (fun _ _ _ _ _ _ => trivial) hr hdb
    fun i => honest_handle hK (hmessages i) db

/-- The id of the original is the hash of its canonical text, and is read back
as it was. -/
theorem Original.spec {event original : Event}
    (h : Original (runtime K safeInteger) Mirrored event original) :
    event.id = Identity.getEventHash K original.pubkey original.template ∧
      toBuffer event.pubkey = toBuffer original.pubkey ∧ event.template = original.template := by
  obtain ⟨hvalid, hevent⟩ := h
  have hid : original.id = Identity.getEventHash K original.pubkey original.template :=
    of_decide_eq_true hvalid.1
  rcases hevent with rfl | ⟨-, rfl⟩
  · exact ⟨hid, rfl, rfl⟩
  · have hform : (storedForm original).id = original.id :=
      toHex_toBuffer (hexSchema_id hK hvalid.1) rfl
    exact ⟨hform.trans hid, Bytes.ofHex_toHex _, rfl⟩

/-- What the mirror leaves unchecked matters: an event with a right id is read
back with a right id only if its public key is in lower case, or if SHA-256 has
a collision. -/
theorem isEventIdValid_storedForm_iff {event : Event}
    (hid : isEventIdValid (runtime K safeInteger) event = true)
    (hcollision : K.sha256 (canonicalBytes (storedForm event).pubkey event.template) =
      K.sha256 (canonicalBytes event.pubkey event.template) →
      canonicalBytes (storedForm event).pubkey event.template =
        canonicalBytes event.pubkey event.template) :
    isEventIdValid (runtime K safeInteger) (storedForm event) = true ↔
      (storedForm event).pubkey = event.pubkey := by
  have hform : (storedForm event).id = event.id := toHex_toBuffer (hexSchema_id hK hid) rfl
  rw [isEventIdValid, decide_eq_true_eq] at hid ⊢
  rw [hform, hid]
  constructor
  · intro heq
    have hsha := Identity.getEventHash_inj.mp (congrArg toBuffer heq.symm)
    exact (Identity.canonicalBytes_inj.mp (hcollision hsha)).1
  · intro hpubkey
    show _ = Identity.getEventHash K (storedForm event).pubkey event.template
    rw [hpubkey]
    rfl

end

/-! ### Notes that are published, mirrored and asked for -/

/-- A note of another relay, whose author writes the key in upper case. -/
def loudNote : Event where
  id := "b2223c1ad7fb755e7b1532cbc5947b66d8c1744f51dd83bfcfd24558a29590e7"
  pubkey := "F9308A019258C31049344F85F89D5229B531C845836F99B08601F113BCE036F9"
  createdAt := 1700000000
  kind := 1
  tags := []
  content := "HELLO"
  sig := "2ace3e58de8dd16db88b496ade64f3dcd5efb6c30f8c7ec6490839061fd3a34e" ++
    "ac3d481e635ec7af5a033fc390e2b08713b74ca2425d9f457c2ef5cf7e94fafb"

/-- SHA-256 and signatures, as far as the notes need them; all other hashes and
signatures are zeros. -/
def noteLibrary : Secp256k1 where
  sha256 b :=
    if b = canonicalBytes shortNote.pubkey shortNote.template then toBuffer shortNote.id
    else if b = canonicalBytes loudNote.pubkey loudNote.template then toBuffer loudNote.id
    else List.replicate 32 0
  verify signature hash pubkey :=
    (signature, hash, pubkey) = (shortNote.sig, shortNote.id, shortNote.pubkey) ||
      (signature, hash, pubkey) = (loudNote.sig, loudNote.id, loudNote.pubkey) ||
      (signature, pubkey) = (Bytes.toHex (List.replicate 64 0), shortNote.pubkey)
  sign _ _ := List.replicate 64 0
  getPublicKey _ := toBuffer shortNote.pubkey
  isValidPrivateKey privkey := privkey = "".pushn '0' 63 ++ "3"

theorem reliable_noteLibrary : noteLibrary.Reliable where
  length_sha256 b := by
    simp only [noteLibrary]
    split_ifs
    · decide +kernel
    · decide +kernel
    · rfl
  length_getPublicKey _ := by
    show (toBuffer shortNote.pubkey).length = 32
    decide +kernel
  length_sign _ _ := rfl
  verify_sign _ _ := by
    have hkey : Bytes.toHex (toBuffer shortNote.pubkey) = shortNote.pubkey := by decide +kernel
    simp [noteLibrary, hkey]

def noteRuntime : Runtime := runtime noteLibrary fun _ => none

inductive NoteClient
  | publisher
  | mirror
  | reader
  deriving DecidableEq

def noteFilters : List SubscriptionFilter := [⟨none, none, some [1], none, none, none, []⟩]

def noteTraffic : NoteClient → Message
  | .publisher => .event shortNote none
  | .mirror => .mirrored noteFilters loudNote
  | .reader => .req noteFilters

theorem sound_noteTraffic (i : NoteClient) :
    Sound noteLibrary (· = loudNote) "" id (noteTraffic i) := by
  cases i with
  | publisher => exact .event (by decide +kernel)
  | mirror => exact .mirrored _ rfl
  | reader => exact .req _

/-- The notes are stored, and then read. -/
def afterReading : Pool Op Res Database Traffic.Answer NoteClient :=
  runAlone .reader (runAlone .mirror (runAlone .publisher (begun noteRuntime noteTraffic ⟨[], []⟩)))

theorem reaches_afterReading : PoolReaches (fun _ => eff flatSchema)
    (begun noteRuntime noteTraffic ⟨[], []⟩) afterReading :=
  PoolReaches.mono (fun _ _ _ _ _ => eff_of_faultless)
    (((reaches_runAlone _ _).trans (reaches_runAlone _ _)).trans (reaches_runAlone _ _))

/-- Where the id and the signature are right, the handlers do not depend on how
they are checked. -/
theorem handle_congr {R R' : Runtime} (hsafe : R.safeInteger = R'.safeInteger) {event : Event}
    (h : Valid R event) (h' : Valid R' event) :
    (∀ remoteAddress, handle R (.event event remoteAddress) =
      handle R' (.event event remoteAddress)) ∧
      ∀ filters, handle R (.mirrored filters event) = handle R' (.mirrored filters event) := by
  have hexpiration : getEventExpiration R event = getEventExpiration R' event := by
    rw [getEventExpiration, getEventExpiration, hsafe]
  refine ⟨fun remoteAddress => ?_, fun filters => ?_⟩
  · simp only [handle, handleEventMessage, h.1, h.2, h'.1, h'.2, hexpiration]
  · simp only [handle, mirror, h.1, h.2, h'.1, h'.2]
    rw [hexpiration]

theorem begun_noteTraffic (db : Database) : begun noteRuntime noteTraffic db =
    begun (runtimeFor [shortNote, loudNote]) noteTraffic db := by
  have hshort : Valid noteRuntime shortNote := ⟨by decide +kernel, by decide +kernel⟩
  have hloud : Valid noteRuntime loudNote := ⟨by decide +kernel, by decide +kernel⟩
  have hshort' : Valid (runtimeFor [shortNote, loudNote]) shortNote := ⟨by decide +kernel, rfl⟩
  have hloud' : Valid (runtimeFor [shortNote, loudNote]) loudNote := ⟨by decide +kernel, rfl⟩
  have hsafe : noteRuntime.safeInteger = (runtimeFor [shortNote, loudNote]).safeInteger := rfl
  have hreq : ∀ R, handle R (.req noteFilters) = Traffic.fetchAndSend noteFilters :=
    fun _ => rfl
  refine congrArg (Prod.mk db) (funext fun i => ?_)
  cases i with
  | publisher => exact (handle_congr hsafe hshort hshort').1 none
  | mirror => exact (handle_congr hsafe hloud hloud').2 noteFilters
  | reader => exact (hreq _).trans (hreq _).symm

/-- The events that a handler has sent. -/
def sentBy : Handler Traffic.Answer → List Event
  | .ret a => events a
  | .op _ _ => []

theorem exists_of_sentBy {p : Handler Traffic.Answer} {P : Event → Prop}
    (h : ∃ event ∈ sentBy p, P event) : ∃ a, p = .ret a ∧ ∃ event ∈ events a, P event := by
  rcases p with a | ⟨o, k⟩
  · exact ⟨a, rfl, h⟩
  · obtain ⟨event, hevent, -⟩ := h
    cases hevent

/-- The mirrored note goes to the subscribers as it came. -/
theorem sent_mirror : ∃ a, afterReading.2 .mirror = .ret a ∧
    ∃ event ∈ events a, event.id = loudNote.id ∧ event.pubkey = loudNote.pubkey := by
  refine exists_of_sentBy ?_
  rw [afterReading, begun_noteTraffic]
  decide +kernel

/-- The reader gets it as it is read back. -/
theorem sent_reader : ∃ a, afterReading.2 .reader = .ret a ∧
    ∃ event ∈ events a, event.id = loudNote.id ∧ event.pubkey = shortNote.pubkey := by
  refine exists_of_sentBy ?_
  rw [afterReading, begun_noteTraffic]
  decide +kernel

theorem authentic_nil (R : Runtime) (Mirrored : Event → Prop) : Authentic R Mirrored ⟨[], []⟩ :=
  fun _ hrow => absurd hrow List.not_mem_nil

end NostrMesh.Relay.Authenticity
