/-
NostrMesh/Relay/Spreading.lean

An event that is published at one relay gets to all that are linked to it.

While something about the event is on its way the relays may differ.  What
carries the argument is that a link whose first relay has the event is never
forgotten (`Spread.linked`): its second relay has the event too, or the event is
coming there, or an announcement is due.  When nothing is on its way any more,
only the first is left (`spreads`).  A subscription links two relays only if it
never was from a later second than the event (`Linked`).

Events with one id differ in their signatures at most, as long as the hash has
no collision at the event, and relays that got it with different signatures
agree all the same.
-/
import NostrMesh.Relay.Flooding
import NostrMesh.Relay.LiveEvents

namespace NostrMesh.Relay.Traffic.Flooding

open Interleaving Tables
open StaticMirroringWorker (Known)

/-! ### Copies of an event -/

/-- The events with the id. -/
def Copies (e : Event) : Set Event := {event | toBuffer event.id = toBuffer e.id}

/-- No other contents have the hash of the event. -/
def Unforged (R : Runtime) (e : Event) : Prop :=
  ∀ pubkey template, toBuffer (R.eventHash pubkey template) = toBuffer e.id →
    pubkey = e.pubkey ∧ template = e.template

/-- The message is about a copy of the event that verifies. -/
def Carries (R : Runtime) (e : Event) (message : Message) : Prop :=
  ∃ event ∈ Copies e, Valid R event ∧ eventOf message = some event

/-- The filters of the mirror let the event pass; the subscription may have
asked for more. -/
def Wanted (message : Message) : Prop :=
  ∀ filters event, message = .mirrored filters event →
    (filters.any fun filter => isEventMatchingFilter filter event) = true

section

variable {R : Runtime} {e event : Event}

/-- A copy has the contents of the event. -/
theorem contents_of_copy (hunforged : Unforged R e) (hevent : event ∈ Copies e)
    (hvalid : Valid R event) : event.pubkey = e.pubkey ∧ event.template = e.template := by
  refine hunforged event.pubkey event.template ?_
  rw [← of_decide_eq_true hvalid.1]
  exact hevent

theorem addressOf_of_copy (hunforged : Unforged R e) (hevent : event ∈ Copies e)
    (hvalid : Valid R event) : addressOf event = addressOf e := by
  obtain ⟨hpubkey, htemplate⟩ := contents_of_copy hunforged hevent hvalid
  exact addressOf_congr hpubkey htemplate

theorem eventStrategyFactory_of_copy (hunforged : Unforged R e) (hevent : event ∈ Copies e)
    (hvalid : Valid R event) : eventStrategyFactory event = eventStrategyFactory e :=
  eventStrategyFactory_congr (contents_of_copy hunforged hevent hvalid).2

/-- The signature does not matter to a filter. -/
theorem isEventMatchingFilter_of_copy (hunforged : Unforged R e) (hself : Valid R e)
    (hevent : event ∈ Copies e) (hvalid : Valid R event) (filter : SubscriptionFilter) :
    isEventMatchingFilter filter event = isEventMatchingFilter filter e := by
  obtain ⟨hpubkey, htemplate⟩ := contents_of_copy hunforged hevent hvalid
  have hid : event.id = e.id := by
    rw [of_decide_eq_true hvalid.1, of_decide_eq_true hself.1, hpubkey, htemplate]
  rcases event with ⟨id, pubkey, createdAt, kind, tags, content, sig⟩
  rcases e with ⟨id', pubkey', createdAt', kind', tags', content', sig'⟩
  obtain rfl : id = id' := hid
  obtain rfl : pubkey = pubkey' := hpubkey
  obtain ⟨rfl, rfl, rfl, rfl⟩ := EventTemplate.mk.inj htemplate
  rfl

end

/-! ### One operation -/

/-- The rest of a handler that inserts a copy of the event, if nothing fails. -/
inductive Busy (e : Event) : Handler Answer → Prop
  | checking {event k} : Busy e (k .passed) → Busy e (.op (.check event) k)
  | deleting {pubkey ids k} :
      (∀ count, Busy e (k (.ok count))) → Busy e (.op (.deleteByPubkeyAndIds pubkey ids) k)
  | creating {incoming : IncomingEvent} {k} :
      incoming.toEvent ∈ Copies e → Busy e (.op (.create incoming) k)

section

variable {R : Runtime} {e : Event} {layout : Layout} {restarts : ℕ} {db db' : Database}

/-- A client's event goes on to its insert. -/
theorem busy_executeDefault {event : Event} {remoteAddress : Option String}
    (hevent : event ∈ Copies e) :
    Busy e ((executeDefault (received R event remoteAddress)).bind (reply event)) := by
  simp only [executeDefault, perform, Prog.bind_eq, Prog.perform_bind, Prog.op_bind]
  exact .creating hevent

/-- **A handler that gets a copy** is going to insert it. -/
theorem busy_handle {message : Message} {event : Event} (hevent : event ∈ Copies e)
    (hvalid : Valid R event) (hmessage : eventOf message = some event) (hwanted : Wanted message)
    (haddr : addressOf event = none) (hstrategy : eventStrategyFactory event ≠ .ephemeral) :
    Busy e (handle R message) := by
  -- the three ways to an insert: a client, a mirror, and the relay itself
  rcases message with ⟨event', remoteAddress⟩ | filters | ⟨filters, event'⟩ | event'
  · obtain rfl : event' = event := Option.some.inj hmessage
    obtain ⟨k, hk, hpassed⟩ := handle_of_valid remoteAddress hvalid
    rw [hk]
    refine .checking ?_
    rw [hpassed]
    have hreceived : (received R event' remoteAddress).toEvent = event' := rfl
    rcases hs : eventStrategyFactory event' with - | - | - | - | -
    · -- what is upserted has an address
      simp [addressOf, hs] at haddr
    · exact absurd hs hstrategy
    · simp only [execute, hreceived, hs, executeDelete]
      split
      · exact busy_executeDefault hevent
      · simp only [perform, Prog.bind_eq, Prog.perform_bind, Prog.op_bind]
        exact .deleting fun count => busy_executeDefault hevent
    · simp [addressOf, hs] at haddr
    · simp only [execute, hreceived, hs]
      exact busy_executeDefault hevent
  · cases hmessage
  · obtain rfl : event' = event := Option.some.inj hmessage
    simp only [handle, mirror, hwanted filters event' rfl, hvalid.1, hvalid.2, Bool.not_true,
      Bool.or_self, Bool.false_eq_true, if_false, perform, Prog.bind_eq, Prog.perform_bind]
    exact .checking (.creating hevent)
  · obtain rfl : event'.toEvent = event := Option.some.inj hmessage
    exact .creating hevent

/-- A busy handler stays busy, or the event is in the table. -/
theorem Busy.operate {o : Op} {k : Res o → Handler Answer} {r : Res o} (h : Busy e (.op o k))
    (he : Succeeds (deployed layout restarts) o db r db') : Busy e (k r) ∨ Known e db' := by
  cases h with
  | checking hk =>
      obtain rfl : r = Checked.passed := he
      exact Or.inl hk
  | deleting hk =>
      obtain ⟨count, rfl⟩ := he
      exact Or.inl (hk count)
  | @creating incoming k hcopy =>
      obtain ⟨fault, now, heq, hraises⟩ := he
      rcases create_spec layout restarts fault now incoming db with ⟨hraises', -⟩ | ⟨-, hmem⟩
      · exact absurd (hraises.symm.trans hraises') Bool.false_ne_true
      · refine Or.inr ?_
        obtain rfl : db' = _ := congrArg Prod.snd heq
        rw [Known, ← hcopy]
        exact hmem

theorem Inserted.known (h : Inserted e db) : Known e db := by
  obtain ⟨row, hrow, hid, -⟩ := h
  exact List.mem_map.mpr ⟨row, hrow, hid⟩

/-- What an operation does to the copies in the table, and what its handler
announces of them. -/
structure Grows (R : Runtime) (e : Event) (message : Message) (db : Database) (p : Handler Answer)
    (db' : Database) : Prop where
  inserted : Known e db' → Inserted e db'
  /-- A copy that was not there is announced. -/
  announced : Inserted e db' → Inserted e db ∨ ∃ a event, p = .ret a ∧ event ∈ a.announced ∧
    event ∈ Copies e
  /-- Only what is there is announced. -/
  genuine : ∀ a event, p = .ret a → event ∈ a.announced → event ∈ Copies e →
    Valid R event ∧ eventOf message = some event ∧ Inserted e db'

variable {message : Message}

/-- A handler that announces no copy. -/
def Silent (e : Event) (p : Handler Answer) : Prop :=
  ∀ a event, p = .ret a → event ∈ a.announced → event ∉ Copies e

/-- An operation that adds no copy. -/
theorem grows_silent {p : Handler Answer} (hsilent : Silent e p)
    (hadvances : Advances db.events db'.events) (hknown : Known e db → Inserted e db)
    (hsame : Known e db' → Known e db) : Grows R e message db p db' where
  inserted h := (hknown (hsame h)).advances hadvances
  announced h := Or.inl (hknown (hsame h.known))
  genuine a event hp hmem hcopy := absurd hcopy (hsilent a event hp hmem)

theorem silent_op {o : Op} {k : Res o → Handler Answer} : Silent e (.op o k) := by
  intro a event h
  cases h

theorem silent_ret {a : Answer} (h : ∀ event ∈ a.announced, event ∉ Copies e) : Silent e (.ret a) := by
  rintro _ event ⟨⟩ hmem
  exact h event hmem

/-- A client's handler that has not written anything. -/
theorem silent_rest {event : Event} {remoteAddress : Option String} {p : Handler Answer}
    (h : Rest R (.event event remoteAddress) p) (hunforged : Unforged R e)
    (hstrategy : eventStrategyFactory e ≠ .ephemeral) : Silent e p := by
  cases h with
  | refused text => exact silent_ret fun _ hmem => absurd hmem List.not_mem_nil
  | relayed hvalid hephemeral =>
      refine silent_ret fun event' hmem hcopy => hstrategy ?_
      obtain rfl : event' = event := List.mem_singleton.mp hmem
      rw [← eventStrategyFactory_of_copy hunforged hcopy hvalid, hephemeral]
  | ended => exact silent_ret fun _ hmem => absurd hmem List.not_mem_nil
  | checking hk => exact silent_op
  | deleting hvalid hdelete hk => exact silent_op
  | creating hvalid haddr hstrategy hk => exact silent_op
  | upserting hvalid haddr hok herror => exact silent_op

/-- An insert of any event. -/
theorem grows_create {incoming : IncomingEvent} {count : ℕ} {a : Answer}
    (heff : eff (deployed layout restarts) (.create incoming) db count db')
    (hunique : Unique (deployed layout restarts).enforced db.events)
    (hknown : Known e db → Inserted e db) (hvalid : Valid R incoming.toEvent)
    (hmessage : eventOf message = some incoming.toEvent)
    (hsucceeds : incoming.toEvent ∈ Copies e →
      Succeeds (deployed layout restarts) (.create incoming) db count db')
    (hsome : count ≠ 0 → incoming.toEvent ∈ a.announced)
    (hall : ∀ event ∈ a.announced, event = incoming.toEvent) : Grows R e message db (.ret a) db' := by
  obtain ⟨fault, now, heq⟩ := heff
  have hadvances := (create_result heq hunique).2.1
  have hcases := create_cases (deployed layout restarts) fault now incoming db
  rw [← heq] at hcases
  -- nothing is written, or a row with the id of the event
  have hrows : db' = db ∨ count ≠ 0 ∧ db'.events = db.events ++ [insertRow now incoming] := by
    rcases hcases with hsame | ⟨hinsert, -⟩
    · exact Or.inl (congrArg Prod.snd hsame)
    · refine Or.inr ⟨?_, congrArg (fun x => x.2.events) hinsert⟩
      rw [show count = 1 from congrArg Prod.fst hinsert]
      exact one_ne_zero
  have hinserted : Known e db' → Inserted e db' := by
    intro h
    rcases hrows with rfl | ⟨-, hevents⟩
    · exact hknown h
    · obtain ⟨row, hrow, hid⟩ := List.mem_map.mp h
      rw [hevents] at hrow
      rcases List.mem_append.mp hrow with hold | hnew
      · exact (hknown (List.mem_map.mpr ⟨row, hold, hid⟩)).advances hadvances
      · obtain rfl := List.mem_singleton.mp hnew
        exact ⟨_, hevents ▸ List.mem_append_right _ (List.mem_singleton_self _), hid, rfl⟩
  refine ⟨hinserted, fun h => ?_, fun a' event hp hmem hcopy => ?_⟩
  · rcases hrows with rfl | ⟨hcount, hevents⟩
    · exact Or.inl h
    · obtain ⟨row, hrow, hid, hnone⟩ := h
      rw [hevents] at hrow
      rcases List.mem_append.mp hrow with hold | hnew
      · exact Or.inl ⟨row, hold, hid, hnone⟩
      · obtain rfl := List.mem_singleton.mp hnew
        exact Or.inr ⟨a, incoming.toEvent, rfl, hsome hcount, hid⟩
  · cases hp
    obtain rfl := hall event hmem
    refine ⟨hvalid, hmessage, hinserted ?_⟩
    have hbusy : Busy e (.op (.create incoming) fun _ => .ret a) := .creating hcopy
    rcases hbusy.operate (hsucceeds hcopy) with hrest | h
    · cases hrest
    · exact h

theorem mem_announced_commandResult {event event' : Event} {count : ℕ} :
    event' ∈ (Answer.emitted (commandResult event count)).announced ↔ count ≠ 0 ∧ event' = event := by
  rw [commandResult]
  split_ifs with hcount
  · simp [hcount, Answer.announced, Emit.announced, List.filterMap_cons]
  · refine Iff.trans List.mem_singleton ?_
    exact (and_iff_right hcount).symm

theorem ids_markRow (now : ℕ) (pubkey : String) (ids : List String) (rows : List EventRow) :
    (rows.map (markRow now pubkey ids)).map EventRow.eventId = rows.map EventRow.eventId := by
  rw [List.map_map]
  refine List.map_congr_left fun row _ => ?_
  rcases markRow_cases now pubkey ids row with ⟨-, heq⟩ | ⟨-, heq⟩
  · rw [Function.comp_apply, heq]
  · rw [Function.comp_apply, heq]

/-- **One operation** of any handler. -/
theorem Shape.grows {o : Op} {k : Res o → Handler Answer} {r : Res o}
    (h : Shape R message (.op o k)) (hunique : Unique (deployed layout restarts).enforced db.events)
    (hunforged : Unforged R e) (haddr : addressOf e = none)
    (hstrategy : eventStrategyFactory e ≠ .ephemeral)
    (hnotified : ∀ event, message = .notification event → Valid R event.toEvent)
    (hknown : Known e db → Inserted e db) (heff : eff (deployed layout restarts) o db r db')
    (hsucceeds : ∀ event ∈ Copies e, eventOf message = some event →
      Succeeds (deployed layout restarts) o db r db') : Grows R e message db (k r) db' := by
  have hadvances := (h.operate hunique heff).advances
  cases h with
  | client hrest =>
      cases hrest with
      | checking hk =>
          obtain rfl : db' = db := heff
          exact grows_silent (silent_rest (hk r) hunforged hstrategy) hadvances hknown id
      | deleting hvalid hdelete hk =>
          obtain ⟨fault, now, heq⟩ := heff
          obtain rfl : db' = _ := congrArg Prod.snd heq
          refine grows_silent (silent_rest (hk r) hunforged hstrategy) hadvances hknown ?_
          rcases deleteByPubkeyAndIds_cases fault now _ _ db with hsame | hmarked
          · rw [hsame]
            exact id
          · rw [Known, Known, Database.ids, hmarked, ids_markRow]
            exact id
      | creating hvalid haddr' hstrategy' hk =>
          rw [hk r]
          refine grows_create heff hunique hknown hvalid rfl (fun hcopy => hsucceeds _ hcopy rfl) ?_ ?_
          · exact fun hcount => mem_announced_commandResult.mpr ⟨hcount, rfl⟩
          · exact fun event hmem => (mem_announced_commandResult.mp hmem).2
      | @upserting event remoteAddress k hvalid haddr' hok herror =>
          -- an event with an address is no copy
          have hnot : event ∉ Copies e := by
            intro hcopy
            rw [addressOf_of_copy hunforged hcopy hvalid, haddr] at haddr'
            cases haddr'
          have hsilent : Silent e (k r) := by
            rcases r with error | count
            · obtain ⟨text, htext⟩ := herror error
              rw [htext]
              exact silent_ret fun _ hmem => absurd hmem List.not_mem_nil
            · rw [hok count]
              refine silent_ret fun event' hmem => ?_
              rw [(mem_announced_commandResult.mp hmem).2]
              exact hnot
          refine grows_silent hsilent hadvances hknown fun hin => ?_
          obtain ⟨fault, now, heq⟩ := heff
          obtain rfl : db' = _ := congrArg Prod.snd heq
          obtain ⟨row, hrow, hid⟩ := List.mem_map.mp hin
          rcases LiveEvents.mem_upsert hrow with hold | ⟨hnew, -⟩
          · exact List.mem_map.mpr ⟨row, hold, hid⟩
          · have hrowId : row.eventId = toBuffer event.id :=
              Bytes.toHex_injective (congrArg Event.id hnew)
            exact absurd (hrowId.symm.trans hid) hnot
      | finding herror hok =>
          obtain ⟨rfl, -⟩ := heff
          refine grows_silent ?_ hadvances hknown id
          rcases r with error | rows
          · rw [herror error]
            exact silent_ret fun _ hmem => absurd hmem List.not_mem_nil
          · rw [hok rows]
            exact silent_ret fun _ hmem => absurd hmem List.not_mem_nil
  | checking hk howed =>
      obtain rfl : db' = db := heff
      refine grows_silent (fun a event hret hmem => ?_) hadvances hknown id
      have hzero := howed r event
      rw [hret] at hzero
      exact absurd hmem (List.count_eq_zero.mp hzero)
  | @inserting filters event k hvalid hk =>
      rw [hk r]
      refine grows_create heff hunique hknown hvalid rfl (fun hcopy => hsucceeds _ hcopy rfl) ?_ ?_
      · intro hcount
        rw [if_neg hcount]
        exact List.mem_singleton_self _
      · intro event' hmem
        split_ifs at hmem
        · cases hmem
        · exact List.mem_singleton.mp hmem
  | @notifying event k hk =>
      rw [hk r]
      refine grows_create heff hunique hknown (hnotified event rfl) rfl
        (fun hcopy => hsucceeds _ hcopy rfl) ?_ ?_
      · exact fun _ => List.mem_singleton_self _
      · exact fun event' hmem => List.mem_singleton.mp hmem

end

/-! ### The mesh -/

section

variable {ι : Type*} {M : Mesh ι} {R : Runtime} {e : Event} {s s' : State ι}

/-- What the first relay announces of the event gets to the second. -/
inductive Linked (M : Mesh ι) (e : Event) : ι → ι → Prop
  | subscription {m : ι} {mirror : Mirror} {filters : List SubscriptionFilter} :
      mirror ∈ M.mirrors m → Covers mirror filters (M.since m mirror) e →
      Wanted (.mirrored filters e) → Linked M e (M.relayAt mirror.address) m
  | onMessage {n : ι} {mirror : Mirror} :
      mirror ∈ M.mirrors n → mirror.secret.getD "" = "" → Linked M e n (M.relayAt mirror.address)

/-- A delivery as the mesh makes them: what comes from a relay is there. -/
structure Proper (M : Mesh ι) (R : Runtime) (e : Event) (databases : ι → Database) (d : Delivery ι) :
    Prop where
  notified : ∀ event, d.message = .notification event → Valid R event.toEvent
  source : Carries R e d.message → ∀ address, d.source = some address →
    Inserted e (databases (M.relayAt address))

/-- A copy is on its way to the relay, or in a handler there. -/
def Coming (R : Runtime) (e : Event) (y : ι) (s : State ι) : Prop :=
  (∃ d ∈ s.inFlight, d.relay = y ∧ Carries R e d.message ∧ Wanted d.message) ∨
    ∃ h ∈ s.handlers, h.delivery.relay = y ∧ Carries R e h.delivery.message ∧ Wanted h.delivery.message

/-- A handler of the relay has inserted a copy, and is going to announce it. -/
def Due (e : Event) (x : ι) (s : State ι) : Prop :=
  ∃ h ∈ s.handlers, h.delivery.relay = x ∧
    ∃ a event, h.rest = .ret a ∧ event ∈ a.announced ∧ event ∈ Copies e

structure Spread (M : Mesh ι) (R : Runtime) (e : Event) (s : State ι) : Prop where
  bounded : Bounded M R s
  inserted : ∀ n, Known e (s.databases n) → Inserted e (s.databases n)
  flights : ∀ d ∈ s.inFlight, Proper M R e s.databases d
  deliveries : ∀ h ∈ s.handlers, Proper M R e s.databases h.delivery
  busy : ∀ h ∈ s.handlers, Carries R e h.delivery.message → Wanted h.delivery.message →
    Busy e h.rest ∨ Inserted e (s.databases h.delivery.relay)
  announced : ∀ h ∈ s.handlers, ∀ a event, h.rest = .ret a → event ∈ a.announced →
    event ∈ Copies e → Valid R event ∧ eventOf h.delivery.message = some event ∧
      Inserted e (s.databases h.delivery.relay)
  linked : ∀ x y, Linked M e x y → Inserted e (s.databases x) →
    Inserted e (s.databases y) ∨ Coming R e y s ∨ Due e x s

theorem Proper.mono {databases databases' : ι → Database} {d : Delivery ι}
    (hmono : ∀ n, Inserted e (databases n) → Inserted e (databases' n))
    (h : Proper M R e databases d) : Proper M R e databases' d :=
  ⟨h.notified, fun hcarries address hsource => hmono _ (h.source hcarries address hsource)⟩

/-- A delivery more does no harm. -/
theorem Spread.post (h : Spread M R e s) {d : Delivery ι} (hd : Proper M R e s.databases d) :
    Spread M R e { s with inFlight := s.inFlight ++ [d] } where
  bounded := ⟨h.bounded.shape, h.bounded.unique⟩
  inserted := h.inserted
  flights d' hd' := by
    rcases List.mem_append.mp hd' with hold | hnew
    · exact h.flights d' hold
    · rwa [List.mem_singleton.mp hnew]
  deliveries := h.deliveries
  busy := h.busy
  announced := h.announced
  linked x y hxy hx := by
    refine (h.linked x y hxy hx).imp_right (Or.imp_left (Or.imp_left ?_))
    rintro ⟨d', hd', hrelay⟩
    exact ⟨d', List.mem_append_left _ hd', hrelay⟩

/-- A delivery about another event gets lost. -/
theorem Spread.lose (h : Spread M R e s) {before after : List (Delivery ι)} {d : Delivery ι}
    (hs : s.inFlight = before ++ d :: after) (hd : ¬ Carries R e d.message) :
    Spread M R e { s with inFlight := before ++ after } where
  bounded := ⟨h.bounded.shape, h.bounded.unique⟩
  inserted := h.inserted
  flights d' hd' := h.flights d' (hs ▸ mem_middle.mpr (Or.inr hd'))
  deliveries := h.deliveries
  busy := h.busy
  announced := h.announced
  linked x y hxy hx := by
    refine (h.linked x y hxy hx).imp_right (Or.imp_left (Or.imp_left ?_))
    rintro ⟨d', hd', hrelay, hcarries, hwanted⟩
    rcases mem_middle.mp (hs ▸ hd') with rfl | hmem
    · exact absurd hcarries hd
    · exact ⟨d', hmem, hrelay, hcarries, hwanted⟩

section

variable (hunforged : Unforged R e) (haddr : addressOf e = none)
  (hstrategy : eventStrategyFactory e ≠ .ephemeral)

include hunforged haddr hstrategy

/-- A handler begins. -/
theorem Spread.begin (h : Spread M R e s) {before after : List (Delivery ι)} {d : Delivery ι}
    (hs : s.inFlight = before ++ d :: after) :
    Spread M R e { s with
      inFlight := before ++ after
      handlers := s.handlers ++ [⟨d, handle R d.message⟩] } where
  bounded := by
    refine ⟨fun x hx => ?_, h.bounded.unique⟩
    rcases List.mem_append.mp hx with hold | hnew
    · exact h.bounded.shape x hold
    · rw [List.mem_singleton.mp hnew]
      exact shape_handle R d.message
  inserted := h.inserted
  flights d' hd' := h.flights d' (hs ▸ mem_middle.mpr (Or.inr hd'))
  deliveries x hx := by
    rcases List.mem_append.mp hx with hold | hnew
    · exact h.deliveries x hold
    · rw [List.mem_singleton.mp hnew]
      exact h.flights d (hs ▸ mem_middle.mpr (Or.inl rfl))
  busy x hx hcarries hwanted := by
    rcases List.mem_append.mp hx with hold | hnew
    · exact h.busy x hold hcarries hwanted
    · obtain rfl := List.mem_singleton.mp hnew
      obtain ⟨event, hcopy, hvalid, hmessage⟩ := hcarries
      refine Or.inl (busy_handle hcopy hvalid hmessage hwanted ?_ ?_)
      · rw [addressOf_of_copy hunforged hcopy hvalid, haddr]
      · rwa [eventStrategyFactory_of_copy hunforged hcopy hvalid]
  announced x hx a event hret hmem hcopy := by
    rcases List.mem_append.mp hx with hold | hnew
    · exact h.announced x hold a event hret hmem hcopy
    · obtain rfl := List.mem_singleton.mp hnew
      have howed := @owed_handle R event d.message
      dsimp only at hret
      rw [hret] at howed
      exact absurd hmem (List.count_eq_zero.mp howed)
  linked x y hxy hx := by
    refine (h.linked x y hxy hx).imp_right (Or.imp ?_ ?_)
    · -- what was on its way is in its handler now
      rintro (⟨d', hd', hrelay, hcoming⟩ | ⟨x', hx', hrelay⟩)
      · rcases mem_middle.mp (hs ▸ hd') with rfl | hmem
        · exact Or.inr ⟨_, List.mem_append_right _ (List.mem_singleton_self _), hrelay, hcoming⟩
        · exact Or.inl ⟨d', hmem, hrelay, hcoming⟩
      · exact Or.inr ⟨x', List.mem_append_left _ hx', hrelay⟩
    · rintro ⟨x', hx', hdue⟩
      exact ⟨x', List.mem_append_left _ hx', hdue⟩

variable [DecidableEq ι]

/-- A handler goes on by one operation. -/
theorem Spread.operate (h : Spread M R e s) {before after : List (Running ι)} {d : Delivery ι} {o : Op}
    {k : Res o → Handler Answer} {r : Res o} {db' : Database}
    (hs : s.handlers = before ++ ⟨d, .op o k⟩ :: after)
    (he : eff (M.schema d.relay) o (s.databases d.relay) r db')
    (hsucceeds : ∀ event ∈ Copies e, eventOf d.message = some event →
      Succeeds (M.schema d.relay) o (s.databases d.relay) r db') :
    Spread M R e { s with
      databases := Function.update s.databases d.relay db'
      handlers := before ++ ⟨d, k r⟩ :: after } := by
  have hmem : (⟨d, .op o k⟩ : Running ι) ∈ s.handlers := hs ▸ mem_middle.mpr (Or.inl rfl)
  have hold : ∀ x ∈ before ++ after, x ∈ s.handlers := fun x hx => hs ▸ mem_middle.mpr (Or.inr hx)
  have hshape := h.bounded.shape _ hmem
  have hunique := h.bounded.unique d.relay
  have hpaid := hshape.operate hunique he
  have hgrows := hshape.grows hunique hunforged haddr hstrategy (h.deliveries _ hmem).notified
    (h.inserted d.relay) he hsucceeds
  generalize hdatabases : Function.update s.databases d.relay db' = databases
  have hself : databases d.relay = db' := by rw [← hdatabases, Function.update_self]
  have hother : ∀ n, n ≠ d.relay → databases n = s.databases n := fun n hn => by
    rw [← hdatabases, Function.update_of_ne hn]
  have hmono : ∀ n, Inserted e (s.databases n) → Inserted e (databases n) := by
    intro n hn
    by_cases heq : n = d.relay
    · rw [heq] at hn ⊢
      rw [hself]
      exact hn.advances hpaid.advances
    · rwa [hother n heq]
  have hdelivery : Proper M R e databases d := (h.deliveries _ hmem).mono hmono
  refine ⟨⟨fun x hx => ?_, fun m => ?_⟩, fun n hn => ?_, fun x hx => (h.flights x hx).mono hmono,
    fun x hx => ?_, fun x hx hcarries hwanted => ?_, fun x hx a event hret hann hcopy => ?_,
    fun x y hxy hx => ?_⟩
  · rcases mem_middle.mp hx with rfl | hx
    · exact hpaid.shape
    · exact h.bounded.shape x (hold x hx)
  · by_cases heq : m = d.relay
    · rw [heq]
      show Unique _ (databases d.relay).events
      rw [hself]
      exact hpaid.unique
    · show Unique _ (databases m).events
      rw [hother m heq]
      exact h.bounded.unique m
  · change Known e (databases n) at hn
    show Inserted e (databases n)
    by_cases heq : n = d.relay
    · rw [heq, hself] at hn ⊢
      exact hgrows.inserted hn
    · rw [hother n heq] at hn ⊢
      exact h.inserted n hn
  · rcases mem_middle.mp hx with rfl | hx
    · exact hdelivery
    · exact (h.deliveries x (hold x hx)).mono hmono
  · rcases mem_middle.mp hx with rfl | hx
    · -- the insert of the handler comes, or is this operation
      rcases h.busy _ hmem hcarries hwanted with hbusy | hin
      · obtain ⟨event, hcopy, hvalid, hmessage⟩ := hcarries
        refine (hbusy.operate (hsucceeds event hcopy hmessage)).imp_right fun hknown => ?_
        show Inserted e (databases d.relay)
        rw [hself]
        exact hgrows.inserted hknown
      · exact Or.inr (hmono _ hin)
    · exact (h.busy x (hold x hx) hcarries hwanted).imp_right (hmono _)
  · rcases mem_middle.mp hx with rfl | hx
    · obtain ⟨hvalid, hmessage, hin⟩ := hgrows.genuine a event hret hann hcopy
      refine ⟨hvalid, hmessage, ?_⟩
      show Inserted e (databases d.relay)
      rwa [hself]
    · obtain ⟨hvalid, hmessage, hin⟩ := h.announced x (hold x hx) a event hret hann hcopy
      exact ⟨hvalid, hmessage, hmono _ hin⟩
  · -- the event was there, or this operation has inserted it
    have hcases : Inserted e (s.databases x) ∨ (d.relay = x ∧ ∃ a event, k r = .ret a ∧
        event ∈ a.announced ∧ event ∈ Copies e) := by
      change Inserted e (databases x) at hx
      by_cases heq : x = d.relay
      · rw [heq, hself] at hx
        rw [heq]
        exact (hgrows.announced hx).imp_right fun hnew => ⟨rfl, hnew⟩
      · rw [hother x heq] at hx
        exact Or.inl hx
    rcases hcases with hx | ⟨hrelay, hnew⟩
    · -- the relay had it, and its link is kept
      refine (h.linked x y hxy hx).imp (hmono y) (Or.imp ?_ ?_)
      · refine Or.imp_right ?_
        rintro ⟨x', hx', hy⟩
        rcases mem_middle.mp (hs ▸ hx') with rfl | hx'
        · exact ⟨_, mem_middle.mpr (Or.inl rfl), hy⟩
        · exact ⟨x', mem_middle.mpr (Or.inr hx'), hy⟩
      · rintro ⟨x', hx', hrelay, a, event, hret, hdue⟩
        rcases mem_middle.mp (hs ▸ hx') with rfl | hx'
        · cases hret
        · exact ⟨x', mem_middle.mpr (Or.inr hx'), hrelay, a, event, hret, hdue⟩
    · exact Or.inr (Or.inr ⟨_, mem_middle.mpr (Or.inl rfl), hrelay, hnew⟩)

omit haddr hstrategy [DecidableEq ι] in
/-- A handler answers, and what it announces of the event goes to all that are
linked to its relay. -/
theorem Spread.answer (hvalid : Valid R e) (h : Spread M R e s) {before after : List (Running ι)}
    {d : Delivery ι} {a : Answer} {since : ι → Mirror → ℤ} {sent : List (Delivery ι)}
    (hs : s.handlers = before ++ ⟨d, .ret a⟩ :: after)
    (hsince : ∀ m mirror, since m mirror ≤ M.since m mirror)
    (hsent : ∀ p ∈ sent, ∃ event ∈ a.announced, Target M since d.relay d.source event p)
    (hall : ∀ event ∈ Copies e, event ∈ a.announced →
      ∀ p, Target M since d.relay d.source event p → p ∈ sent) :
    Spread M R e { s with
      handlers := before ++ after
      inFlight := s.inFlight ++ sent
      announced := s.announced ++ a.announced.map fun event => ⟨d, event⟩ } := by
  have hmem : (⟨d, .ret a⟩ : Running ι) ∈ s.handlers := hs ▸ mem_middle.mpr (Or.inl rfl)
  have hold : ∀ x ∈ before ++ after, x ∈ s.handlers := fun x hx => hs ▸ mem_middle.mpr (Or.inr hx)
  have hannounced := h.announced _ hmem a
  refine ⟨⟨fun x hx => h.bounded.shape x (hold x hx), h.bounded.unique⟩, h.inserted, fun p hp => ?_,
    fun x hx => h.deliveries x (hold x hx), fun x hx => h.busy x (hold x hx),
    fun x hx => h.announced x (hold x hx), fun x y hxy hx => ?_⟩
  · rcases List.mem_append.mp hp with hp | hp
    · exact h.flights p hp
    · obtain ⟨event, hevent, htarget⟩ := hsent p hp
      cases htarget with
      | @subscription m mirror filters hmirror haddress hcovers =>
          refine ⟨fun _ hm => (by cases hm), fun hcarries address hsource => ?_⟩
          -- the relay sends only what it has
          cases hsource
          obtain ⟨event', hcopy, -, hmessage⟩ := hcarries
          obtain rfl : event = event' := Option.some.inj hmessage
          rw [haddress]
          exact (hannounced event rfl hevent hcopy).2.2
      | @onMessage mirror hmirror hsource hsecret =>
          refine ⟨fun _ hm => (by cases hm), fun _ address hnone => ?_⟩
          cases hnone
  · rcases h.linked x y hxy hx with hy | hcoming | hdue
    · exact Or.inl hy
    · rcases hcoming with ⟨p, hp, hcoming⟩ | ⟨x', hx', hrelay, hcarries, hwanted⟩
      · exact Or.inr (Or.inl (Or.inl ⟨p, List.mem_append_left _ hp, hcoming⟩))
      · rcases mem_middle.mp (hs ▸ hx') with rfl | hx''
        · -- a handler that has ended has inserted its copy
          rcases h.busy _ hx' hcarries hwanted with hbusy | hin
          · cases hbusy
          · exact Or.inl (hrelay ▸ hin)
        · exact Or.inr (Or.inl (Or.inr ⟨x', hx'', hrelay, hcarries, hwanted⟩))
    · obtain ⟨x', hx', hrelay, a', event, hret, hevent, hcopy⟩ := hdue
      rcases mem_middle.mp (hs ▸ hx') with rfl | hx''
      · obtain rfl : a = a' := Interleaving.Prog.ret.inj hret
        obtain ⟨hverifies, hmessage, -⟩ := hannounced event rfl hevent hcopy
        have hcoming : ∀ p, Target M since d.relay d.source event p → p.relay = y →
            eventOf p.message = some event → Wanted p.message → Coming R e y
              { s with
                handlers := before ++ after
                inFlight := s.inFlight ++ sent
                announced := s.announced ++ a.announced.map fun event => ⟨d, event⟩ } :=
          fun p hp hy hm hwanted => Or.inl ⟨p, List.mem_append_right _ (hall event hcopy hevent p hp), hy,
            ⟨event, hcopy, hverifies, hm⟩, hwanted⟩
        have hmatch := isEventMatchingFilter_of_copy hunforged hvalid hcopy hverifies
        cases hxy with
        | @subscription m mirror filters hmirror hcovers hwanted =>
            have hearlier := hcovers.of_le (hsince y mirror)
            refine Or.inr (Or.inl (hcoming ⟨y, some mirror.address, .mirrored filters event⟩ ?_ rfl rfl ?_))
            · exact .subscription hmirror hrelay.symm (by simpa only [Covers, hmatch] using hearlier)
            · rintro filters' event' ⟨⟩
              simpa only [hmatch] using hwanted filters e rfl
        | @onMessage _ mirror hmirror hsecret =>
            by_cases hsource : d.source = some mirror.address
            · -- what came from there is there
              exact Or.inl ((h.deliveries _ hmem).source ⟨event, hcopy, hverifies, hmessage⟩ _ hsource)
            · exact Or.inr (Or.inl (hcoming ⟨_, none, .event event _⟩
                (.onMessage (hrelay ▸ hmirror) hsource hsecret) rfl rfl fun _ _ hm => (by cases hm)))
      · exact Or.inr (Or.inr ⟨x', hx'', hrelay, a', event, hret, hevent, hcopy⟩)

/-- **One step** of the mesh. -/
theorem Spread.step (hvalid : Valid R e) (h : Spread M R e s) (hstep : Step M R (Copies e) s s') :
    Spread M R e s' := by
  cases hstep with
  | flow hflow =>
      cases hflow with
      | begin hs => exact h.begin hunforged haddr hstrategy hs
      | operate hs he hsucceeds => exact h.operate hunforged haddr hstrategy hs he hsucceeds
      | answer hs hsince hsent hall => exact h.answer hunforged hvalid hs hsince hsent hall
      | lose hs hno =>
          refine h.lose hs ?_
          rintro ⟨event, hcopy, -, hmessage⟩
          exact hno event hcopy hmessage
  | @arrive n message hclient =>
      refine h.post ⟨?_, fun _ _ hnone => (by cases hnone)⟩
      rintro event rfl
      exact hclient.elim
  | @notify n event hnotified =>
      refine h.post ⟨?_, fun _ _ hnone => (by cases hnone)⟩
      rintro event' hm
      cases hm
      exact hnotified
  | @stored m mirror filters since row hmirror hrow hkept hsince hcovers =>
      refine h.post ⟨fun _ hm => (by cases hm), ?_⟩
      rintro ⟨event, hcopy, -, hmessage⟩ address hsource
      cases hsource
      obtain rfl : toNostrEvent row = event := Option.some.inj hmessage
      refine h.inserted _ (List.mem_map.mpr ⟨row, hrow, ?_⟩)
      have hid : toBuffer (toNostrEvent row).id = row.eventId := Bytes.ofHex_toHex row.eventId
      exact hid.symm.trans hcopy

theorem Spread.of_reaches (hvalid : Valid R e) (h : Spread M R e s)
    (hr : Relation.ReflTransGen (Step M R (Copies e)) s s') : Spread M R e s' := by
  induction hr with
  | refl => exact h
  | tail _ hstep ih => exact ih.step hunforged haddr hstrategy hvalid hstep

end

/-- Nothing about the event is on its way. -/
def Quiet (e : Event) (s : State ι) : Prop :=
  (∀ d ∈ s.inFlight, ∀ event ∈ Copies e, eventOf d.message ≠ some event) ∧
    ∀ h ∈ s.handlers, ∀ event ∈ Copies e, eventOf h.delivery.message ≠ some event

/-- **An event without an address spreads** to all relays that are linked to
one that has it, whatever else the mesh is doing, as soon as nothing about it is
on its way any more. -/
theorem spreads [DecidableEq ι] (hidle : s.Idle)
    (hunique : ∀ n, Unique (M.schema n).enforced (s.databases n).events)
    (hnew : ∀ n, ¬ Known e (s.databases n)) (hvalid : Valid R e) (hunforged : Unforged R e)
    (haddr : addressOf e = none) (hstrategy : eventStrategyFactory e ≠ .ephemeral)
    (hr : Relation.ReflTransGen (Step M R (Copies e)) s s') (hquiet : Quiet e s') {x y : ι}
    (hxy : Relation.ReflTransGen (Linked M e) x y) (hx : Known e (s'.databases x)) :
    Known e (s'.databases y) := by
  obtain ⟨hflights, hhandlers, -⟩ := hidle
  have hstart : Spread M R e s :=
    { bounded := ⟨fun h hh => absurd (hhandlers ▸ hh) List.not_mem_nil, hunique⟩
      inserted := fun n hn => absurd hn (hnew n)
      flights := fun d hd => absurd (hflights ▸ hd) List.not_mem_nil
      deliveries := fun h hh => absurd (hhandlers ▸ hh) List.not_mem_nil
      busy := fun h hh => absurd (hhandlers ▸ hh) List.not_mem_nil
      announced := fun h hh => absurd (hhandlers ▸ hh) List.not_mem_nil
      linked := fun x y _ hx => absurd hx.known (hnew x) }
  have hspread := hstart.of_reaches hunforged haddr hstrategy hvalid hr
  have hlink : ∀ x y, Linked M e x y → Inserted e (s'.databases x) → Inserted e (s'.databases y) := by
    intro x y hxy hx
    -- nothing comes and nothing is due in a quiet state
    rcases hspread.linked x y hxy hx with hy | hcoming | hdue
    · exact hy
    · rcases hcoming with ⟨d, hd, -, ⟨event, hcopy, -, hmessage⟩, -⟩ |
        ⟨h, hh, -, ⟨event, hcopy, -, hmessage⟩, -⟩
      · exact absurd hmessage (hquiet.1 d hd event hcopy)
      · exact absurd hmessage (hquiet.2 h hh event hcopy)
    · obtain ⟨h, hh, -, a, event, hret, hmem, hcopy⟩ := hdue
      exact absurd (hspread.announced h hh a event hret hmem hcopy).2.1 (hquiet.2 h hh event hcopy)
  have hinserted : Inserted e (s'.databases y) := by
    induction hxy with
    | refl => exact hspread.inserted x hx
    | tail _ hstep ih => exact hlink _ _ hstep ih
  exact hinserted.known

end

/-! ### A note at two relays -/

/-- The only event that the runtime knows has no second preimage. -/
theorem unforged_shortNote : Unforged (runtimeFor [shortNote]) shortNote := by
  intro pubkey template hhash
  by_cases hsame : shortNote.pubkey = pubkey ∧ shortNote.template = template
  · exact ⟨hsame.1.symm, hsame.2.symm⟩
  · simp only [runtimeFor, List.find?_cons, List.find?_nil, hsame, decide_false, Option.map_none,
      Option.getD_none] at hhash
    exact absurd hhash (by decide +kernel)

/-- The second relay gets the note from the first. -/
theorem spreads_shortNote : Known shortNote (noteReturned.databases true) := by
  have hflights : noteReturned.inFlight = [] := List.eq_nil_of_length_eq_zero (by decide +kernel)
  refine spreads (M := pair) (s := fresh) ⟨rfl, rfl, rfl⟩ (fun _ => unique_nil)
    (fun _ => List.not_mem_nil) valid_shortNote unforged_shortNote (by decide) (by decide)
    (reaches_noteReturned _) ⟨fun d hd => ?_, fun h hh => ?_⟩ (x := false) ?_ (by decide +kernel)
  · exact absurd (hflights ▸ hd) List.not_mem_nil
  · exact absurd hh List.not_mem_nil
  · obtain ⟨mirror, hmirror, hsecret, haddress⟩ := passes_pair false
    have hlinked := Linked.onMessage (e := shortNote) hmirror hsecret
    rw [haddress] at hlinked
    exact .single hlinked

end NostrMesh.Relay.Traffic.Flooding
