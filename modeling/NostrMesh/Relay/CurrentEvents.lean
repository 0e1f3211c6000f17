/-
NostrMesh/Relay/CurrentEvents.lean

Does a subscription deliver only what it asks for at the moment?

Broadcasts do: they are matched with the filters that are registered.  The
pipeline of a stored query does not look at the map of the subscriptions, and
`abort` aborts nothing.  So a `CLOSE`, or a `REQ` that replaces the filters,
may come between a query and what it still has to send.

A step is `Undisturbed` if it does not leave a query like that behind.  Runs of
such steps send only what is asked for, by the invariant `Clean`; every other
step has a continuation that does not (`exists_not_onlyCurrent`).
-/
import NostrMesh.Relay.Connection
import NostrMesh.Relay.StoredAnswers

namespace NostrMesh.Relay.Connection

/-- What the step sends is asked for at that moment. -/
def OnlyCurrent (A : Adapter) (action : Action) : Prop :=
  ∀ subscriptionId event, Outgoing.event subscriptionId event ∈ (step action A).1 →
    AsksFor A subscriptionId event

/-- While the socket is open, no `CLOSE` takes a subscription away from a query
that may still send an event, and no `REQ` replaces its filters by some that
do not match the event. -/
def Undisturbed (A : Adapter) : Action → Prop
  | .req limits subscriptionId filters =>
      A.readyState = .opened → Accepted A limits subscriptionId filters →
        ∀ query ∈ A.queries, query.subscriptionId = subscriptionId → ∀ event, query.MaySend event →
          isClientSubscribedToEvent (uniqFilters filters) event = true
  | .close subscriptionId =>
      A.readyState = .opened → ∀ query ∈ A.queries, query.subscriptionId = subscriptionId →
        ∀ event, ¬ query.MaySend event
  | _ => True

/-! ### Runs without disturbance -/

/-- What the queries may still send is asked for. -/
structure Clean (A : Adapter) : Prop where
  nodup : (A.subscriptions.map Prod.fst).Nodup
  asked : A.readyState = .opened → ∀ query ∈ A.queries, ∀ event, query.MaySend event →
    AsksFor A query.subscriptionId event

theorem clean_connected : Clean connected :=
  ⟨List.nodup_nil, fun _ _ hquery => nomatch hquery⟩

theorem Clean.onlyCurrent {A : Adapter} (h : Clean A) (action : Action) : OnlyCurrent A action := by
  intro subscriptionId event hsent
  obtain ⟨hopen, ⟨filters, hentry, hmatch⟩ | ⟨query, hquery, rfl, hsend⟩⟩ := event_of_step hsent
  · exact ⟨filters, Adapter.registered_of_mem h.nodup hentry, hmatch⟩
  · exact h.asked hopen query hquery event hsend

theorem Clean.step {A : Adapter} {action : Action} (h : Clean A) (hgood : Undisturbed A action) :
    Clean (step action A).2 := by
  refine ⟨nodup_step h.nodup, fun hopen' query' hquery' event hsend => ?_⟩
  have hopen := opened_of_step hopen'
  rcases queries_step hquery' with ⟨limits, filters, rfl, haccepted, hfilters⟩ |
    ⟨query, hquery, hcontinues⟩
  · -- the query that this step starts asks for what it registers
    rcases registered_step hopen' query'.subscriptionId with
      ⟨limits', filters', haction, -, hregistered⟩ | ⟨haction, -⟩ | ⟨hnot, -⟩
    · obtain ⟨-, -, rfl⟩ := Action.req.inj haction
      exact ⟨_, hregistered, hfilters ▸ hsend.1⟩
    · cases haction
    · exact absurd haccepted (hnot limits filters rfl)
  · have hbefore := hcontinues.maySend hsend
    obtain ⟨registered, hold, hmatch⟩ := h.asked hopen query hquery event hbefore
    rw [← hcontinues.subscriptionId] at hold
    rcases registered_step hopen' query'.subscriptionId with
      ⟨limits, filters, rfl, haccepted, hregistered⟩ | ⟨rfl, -⟩ | ⟨-, -, hsame⟩
    · exact ⟨_, hregistered,
        hgood hopen haccepted query hquery hcontinues.subscriptionId.symm event hbefore⟩
    · exact absurd hbefore (hgood hopen query hquery hcontinues.subscriptionId.symm event)
    · exact ⟨registered, hsame.trans hold, hmatch⟩

/-! ### Disturbed queries -/

section

variable {A : Adapter} {i : ℕ} {query : StoredQuery} {event : Event}

/-- A query sends the rows that it holds, if nobody asks for them either. -/
theorem not_always_of_sending {rows : List EventRow} {row : EventRow}
    (hopen : A.readyState = .opened) (hquery : A.queries[i]? = some query)
    (hstate : query.state = .sending rows) (hrow : row ∈ rows) (hdeleted : row.deletedAt = none)
    (hmatch : isClientSubscribedToEvent query.filters (toNostrEvent row) = true)
    (hnot : ¬ AsksFor A query.subscriptionId (toNostrEvent row)) :
    ∃ n, ¬ Mealy.Always step OnlyCurrent (List.replicate n (.stream i)) A := by
  induction rows generalizing A query with
  | nil => cases hrow
  | cons head rows ih =>
      have hi : i < A.queries.length := (List.getElem?_eq_some_iff.mp hquery).1
      have hstep : step (.stream i) A =
          (A.sendMessages query.stream.1, A.setQuery i query.stream.2) := by
        simp only [step, Adapter.stream, hquery]
      rcases List.mem_cons.mp hrow with rfl | hrow
      · -- the next row is the one
        refine ⟨1, fun halways => hnot (halways.1 query.subscriptionId _ ?_)⟩
        rw [hstep]
        refine Adapter.mem_sendMessages.mpr ⟨hopen, ?_⟩
        simp [StoredQuery.stream, hstate, hdeleted, hmatch]
      · have hnext : query.stream.2 = { query with state := .sending rows } := by
          simp only [StoredQuery.stream, hstate]
        have hplace : (A.setQuery i query.stream.2).queries[i]? = some query.stream.2 :=
          List.getElem?_set_self hi
        rw [hnext] at hstep hplace
        have hopen' : (A.setQuery i { query with state := .sending rows }).readyState = .opened :=
          hopen
        obtain ⟨n, hn⟩ := ih hopen' hplace rfl hrow hmatch hnot
        refine ⟨n + 1, fun halways => hn ?_⟩
        have hlater := halways.2
        rwa [hstep] at hlater

/-- A query that may still send an event does so, once the database has
answered and the pipeline has gone on, if nobody asks for it either. -/
theorem exists_not_always_of_maySend (hopen : A.readyState = .opened) (hquery : query ∈ A.queries)
    (hsend : query.MaySend event) (hnot : ¬ AsksFor A query.subscriptionId event) :
    ∃ later, ¬ Mealy.Always step OnlyCurrent later A := by
  obtain ⟨i, hi⟩ := List.mem_iff_getElem?.mp hquery
  obtain ⟨hmatch, row, hdeleted, rfl, hhold⟩ := hsend
  rcases hstate : query.state with - | rows | - | -
  · -- the database answers with this row
    have hlt : i < A.queries.length := (List.getElem?_eq_some_iff.mp hi).1
    have hstep : (step (.answer i (.ok [row])) A).2 =
        A.setQuery i { query with state := .sending [row] } := by
      simp only [step, Adapter.answer, hi, StoredQuery.answer, hstate]
    have hplace : (A.setQuery i { query with state := .sending [row] }).queries[i]? =
        some { query with state := .sending [row] } := List.getElem?_set_self hlt
    obtain ⟨n, hn⟩ := not_always_of_sending (A := A.setQuery i { query with state := .sending [row] })
      hopen hplace rfl List.mem_cons_self hdeleted hmatch hnot
    refine ⟨.answer i (.ok [row]) :: List.replicate n (.stream i), fun halways => hn ?_⟩
    have hlater := halways.2
    rwa [hstep] at hlater
  · rw [hstate] at hhold
    obtain ⟨n, hn⟩ := not_always_of_sending hopen hi hstate hhold hdeleted hmatch hnot
    exact ⟨_, hn⟩
  · rw [hstate] at hhold
    exact hhold.elim
  · rw [hstate] at hhold
    exact hhold.elim

/-- **A step that disturbs a query** has a continuation in which something is
sent that is not asked for. -/
theorem exists_not_onlyCurrent {action : Action} (h : ¬ Undisturbed A action) :
    ∃ later, ¬ Mealy.Always step OnlyCurrent (action :: later) A := by
  suffices hleft : ∃ query ∈ (step action A).2.queries, ∃ event, query.MaySend event ∧
      (step action A).2.readyState = .opened ∧
        ¬ AsksFor (step action A).2 query.subscriptionId event by
    obtain ⟨query, hquery, event, hsend, hopen, hnot⟩ := hleft
    obtain ⟨later, hlater⟩ := exists_not_always_of_maySend hopen hquery hsend hnot
    exact ⟨later, fun halways => hlater halways.2⟩
  cases action with
  | req limits id filters =>
      simp only [Undisturbed, Classical.not_imp, not_forall] at h
      obtain ⟨hopen, haccepted, query, hquery, hid, event, hsend, hmatch⟩ := h
      have hstep : step (.req limits id filters) A =
          ([], (A.onSubscribed id (uniqFilters filters)).fetch id (uniqFilters filters)) := by
        rw [step, Adapter.subscribe_of_accepted haccepted, Adapter.heard_of_opened hopen]
      rw [hstep]
      refine ⟨query, List.mem_append_left _ hquery, event, hsend, hopen, ?_⟩
      rintro ⟨registered, hregistered, hasked⟩
      have hnew := A.registered_onSubscribed id query.subscriptionId (uniqFilters filters)
      rw [if_pos hid] at hnew
      obtain rfl := Option.some.inj (hnew.symm.trans hregistered)
      exact hmatch hasked
  | close id =>
      simp only [Undisturbed, Classical.not_imp, not_forall, not_not] at h
      obtain ⟨hopen, query, hquery, hid, event, hsend⟩ := h
      rw [step, Adapter.heard_of_opened hopen]
      refine ⟨query, hquery, event, hsend, hopen, ?_⟩
      rintro ⟨registered, hregistered, -⟩
      have hnew := A.registered_onUnsubscribed id query.subscriptionId
      rw [if_pos hid] at hnew
      exact absurd (hregistered.symm.trans hnew) (Option.some_ne_none _)
  | broadcast event => exact absurd trivial h
  | answer i result => exact absurd trivial h
  | stream i => exact absurd trivial h
  | leave => exact absurd trivial h
  | clientClose => exact absurd trivial h

end

/-! ### Only what is asked for -/

/-- **Runs without disturbance** send only what is asked for at the moment, and
they end where each step that disturbs a query leads to an event that nobody
asks for. -/
theorem onlyCurrent_of_undisturbed (actions : List Action)
    (h : Mealy.Always step Undisturbed actions connected) :
    Mealy.Always step OnlyCurrent actions connected ∧
      ∀ action, ¬ Undisturbed (Mealy.after step actions connected) action →
        ∃ later, ¬ Mealy.Always step OnlyCurrent (action :: later)
          (Mealy.after step actions connected) :=
  ⟨h.of_invariant (fun _ _ hclean => hclean.step)
    (fun _ action hclean _ => hclean.onlyCurrent action) clean_connected,
    fun _ => exists_not_onlyCurrent⟩

/-- The limits of the default settings. -/
def subscriptionLimits : SubscriptionLimits := ⟨some 10, some 10, some 256⟩

/-- A client reads the newest note, gets it, and closes the subscription. -/
def readNotes : List Action :=
  [.req (some subscriptionLimits) "notes" [notes (some 1)], .answer 0 (.ok [newerRow]), .stream 0,
    .stream 0, .close "notes"]

theorem onlyCurrent_of_undisturbed_readNotes :
    Mealy.Always step OnlyCurrent readNotes connected ∧
      ∀ action, ¬ Undisturbed (Mealy.after step readNotes connected) action →
        ∃ later, ¬ Mealy.Always step OnlyCurrent (action :: later)
          (Mealy.after step readNotes connected) := by
  refine onlyCurrent_of_undisturbed readNotes ⟨?_, trivial, trivial, trivial, ?_, trivial⟩
  · exact fun _ _ query hquery => nomatch hquery
  · -- the pipeline is through
    have hqueries : (Mealy.after step (readNotes.take 4) connected).queries =
        [⟨"notes", [notes (some 1)], .ended⟩] := by decide +kernel
    rintro - query hquery - event ⟨-, row, -, -, hhold⟩
    obtain rfl := List.mem_singleton.mp (hqueries ▸ hquery)
    exact hhold

/-- The same client closes the subscription before the note has come through
the pipeline. -/
def closeNotes : List Action :=
  [.req (some subscriptionLimits) "notes" [notes (some 1)], .answer 0 (.ok [newerRow]),
    .close "notes", .stream 0]

/-- **An event is sent after `CLOSE`.** -/
theorem not_onlyCurrent_closeNotes : ¬ Mealy.Always step OnlyCurrent closeNotes connected := by
  intro h
  have hsent := h.2.2.2.1 "notes" (toNostrEvent newerRow) (by decide +kernel)
  obtain ⟨filters, hregistered, -⟩ := hsent
  have hnone : (Mealy.after step (closeNotes.take 3) connected).registered "notes" = none := by
    decide +kernel
  exact absurd (hnone.symm.trans hregistered) nofun

end NostrMesh.Relay.Connection
