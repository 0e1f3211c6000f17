/-
NostrMesh/Relay/SubscriptionLimits.lean

The limits on the subscriptions of one connection.

`canSubscribe` looks at a copy of the map and at the filters of the message;
the registration happens in the adapter, where it may replace a subscription.
`Within` says that the map respects the limits, and every step of the
connection keeps it: a new id is registered only where the map has room, and
the filters that are registered are the ones that were checked.

Main result: `subscriptions_within`.
-/
import NostrMesh.Relay.Connection

namespace NostrMesh.Relay.Connection

/-! ### The limits -/

/-- Settings with all three limits. -/
structure PositiveLimits where
  maxSubscriptions : ℤ
  maxFilters : ℤ
  maxSubscriptionIdLength : ℤ
  maxSubscriptions_pos : 0 < maxSubscriptions
  maxFilters_pos : 0 < maxFilters
  maxSubscriptionIdLength_pos : 0 < maxSubscriptionIdLength

/-- `settings().limits?.client?.subscription`. -/
def PositiveLimits.setting (limits : PositiveLimits) : Option SubscriptionLimits :=
  some ⟨some limits.maxSubscriptions, some limits.maxFilters, some limits.maxSubscriptionIdLength⟩

/-- The settings are these whenever a `REQ` is handled. -/
def Action.Under (setting : Option SubscriptionLimits) : Action → Prop
  | .req limits _ _ => limits = setting
  | _ => True

/-- What is registered under an id respects the limits. -/
structure EntryWithin (limits : PositiveLimits) (entry : String × List SubscriptionFilter) : Prop where
  filters : (entry.2.length : ℤ) ≤ limits.maxFilters
  distinct : entry.2.Pairwise fun f g => equalFilters f g = false
  idLength : (Js.length entry.1 : ℤ) ≤ limits.maxSubscriptionIdLength

/-- The subscriptions respect the limits. -/
structure Within (limits : PositiveLimits) (A : Adapter) : Prop where
  nodup : (A.subscriptions.map Prod.fst).Nodup
  count : (A.subscriptions.length : ℤ) ≤ limits.maxSubscriptions
  entries : ∀ entry ∈ A.subscriptions, EntryWithin limits entry

/-! ### Different filters -/

theorem equalFilters_symm {f g : SubscriptionFilter} (h : equalFilters f g = true) :
    equalFilters g f = true := by
  simp only [equalFilters, Bool.and_eq_true, decide_eq_true_eq, List.isPerm_iff] at h ⊢
  obtain ⟨⟨⟨⟨⟨⟨h₁, h₂⟩, h₃⟩, h₄⟩, h₅⟩, h₆⟩, htags⟩ := h
  exact ⟨⟨⟨⟨⟨⟨h₁.symm, h₂.symm⟩, h₃.symm⟩, h₄.symm⟩, h₅.symm⟩, h₆.symm⟩, htags.symm⟩

theorem equalFilters_comm (f g : SubscriptionFilter) : equalFilters f g = equalFilters g f :=
  Bool.eq_iff_iff.mpr ⟨equalFilters_symm, equalFilters_symm⟩

/-- `uniqWith(equals)` leaves no two filters that are equal. -/
theorem uniqFilters_pairwise (filters : List SubscriptionFilter) :
    (uniqFilters filters).Pairwise fun f g => equalFilters f g = false := by
  have hkeep : ∀ kept : List SubscriptionFilter,
      kept.Pairwise (fun f g => equalFilters f g = false) →
      (filters.foldl (fun kept f => if kept.any (equalFilters f) then kept else kept ++ [f])
        kept).Pairwise fun f g => equalFilters f g = false := by
    induction filters with
    | nil => exact fun _ h => h
    | cons f filters ih =>
        intro kept hkept
        rw [List.foldl_cons]
        split
        · exact ih kept hkept
        · next hnew =>
          refine ih _ (List.pairwise_append.mpr ⟨hkept, List.pairwise_singleton _ f, ?_⟩)
          intro g hg f' hf'
          rw [List.mem_singleton.mp hf', equalFilters_comm]
          exact Bool.eq_false_iff.mpr fun heq => hnew (List.any_eq_true.mpr ⟨g, hg, heq⟩)
  exact hkeep [] List.Pairwise.nil

/-! ### One step -/

section

variable {limits : PositiveLimits} {A : Adapter} {subscriptionId : String}
variable {filters : List SubscriptionFilter}

/-- **What `canSubscribe` has checked**: there is room, or the id is there
already, and the entry respects the limits. -/
theorem within_of_accepted (h : Accepted A limits.setting subscriptionId filters) :
    (A.registered subscriptionId = none → (A.subscriptions.length : ℤ) + 1 ≤ limits.maxSubscriptions) ∧
      EntryWithin limits (subscriptionId, uniqFilters filters) := by
  have hsubscriptions := limits.maxSubscriptions_pos
  have hfilters := limits.maxFilters_pos
  dsimp only [Accepted, Adapter.canSubscribe, PositiveLimits.setting, Option.bind_some,
    Option.getD_some] at h
  split_ifs at h with _ hroom hcount
  · simp at h
  · simp at h
  · simp at h
  split at h
  · simp at h
  next hlength =>
  refine ⟨fun hnone => ?_, by simpa [hfilters] using hcount, uniqFilters_pairwise filters, ?_⟩
  · simpa [hsubscriptions, hnone] using hroom
  · simpa [Option.filter] using hlength

/-- The map after a registration. -/
theorem Within.onSubscribed (h : Within limits A)
    (hroom : A.registered subscriptionId = none →
      (A.subscriptions.length : ℤ) + 1 ≤ limits.maxSubscriptions)
    (hentry : EntryWithin limits (subscriptionId, filters)) :
    Within limits (A.onSubscribed subscriptionId filters) where
  nodup := Keyed.nodup_upsert _ (fun _ _ => rfl) h.nodup
  count := by
    rw [Adapter.onSubscribed, Keyed.length_upsert]
    split
    · next hnone =>
      have := hroom (by rw [Adapter.registered, hnone]; rfl)
      push_cast
      omega
    · exact h.count
  entries := by
    intro entry hmem
    rcases Keyed.mem_upsert_const hmem with rfl | hmem
    · exact hentry
    · exact h.entries entry hmem

/-- A map with less in it. -/
theorem Within.of_sublist {A' : Adapter} (h : Within limits A)
    (hsub : A'.subscriptions.Sublist A.subscriptions) : Within limits A' where
  nodup := h.nodup.sublist (hsub.map Prod.fst)
  count := by
    have := h.count
    have := hsub.length_le
    omega
  entries := fun entry hmem => h.entries entry (hsub.subset hmem)

theorem Within.heard {next : Adapter} (h : Within limits A) (hnext : Within limits next) :
    Within limits (A.heard next) := by
  rw [Adapter.heard]
  split
  · exact h
  · exact hnext

/-- **Every step keeps the limits.** -/
theorem Within.step {action : Action} (h : Within limits A) (hunder : action.Under limits.setting) :
    Within limits (step action A).2 := by
  cases action with
  | req setting id filters =>
      obtain rfl : setting = limits.setting := hunder
      by_cases haccepted : Accepted A limits.setting id filters
      · obtain ⟨hroom, hentry⟩ := within_of_accepted haccepted
        rw [Connection.step, Adapter.subscribe_of_accepted haccepted]
        exact (h.heard (h.onSubscribed hroom hentry)).of_sublist (List.Sublist.refl _)
      · rw [Connection.step, (Adapter.subscribe_of_not_accepted haccepted).1]
        exact h
  | close id => exact h.heard (h.of_sublist List.filter_sublist)
  | broadcast event => exact h
  | answer i result => exact h.of_sublist (by rw [Connection.step, Adapter.subscriptions_answer])
  | stream i => exact h.of_sublist (by rw [Connection.step, Adapter.subscriptions_stream])
  | leave => exact h.heard (h.of_sublist (List.Sublist.refl _))
  | clientClose => exact h.of_sublist (List.nil_sublist _)

/-! ### Runs -/

/-- The limits hold when the client connects. -/
theorem within_connected (limits : PositiveLimits) : Within limits connected where
  nodup := List.nodup_nil
  count := limits.maxSubscriptions_pos.le
  entries := fun _ h => absurd h List.not_mem_nil

theorem within_after {actions : List Action} (h : Within limits A)
    (hunder : ∀ action ∈ actions, action.Under limits.setting) :
    Within limits (Mealy.after Connection.step actions A) := by
  induction actions generalizing A with
  | nil => exact h
  | cons action actions ih =>
      obtain ⟨hfirst, hrest⟩ := List.forall_mem_cons.mp hunder
      exact ih (h.step hfirst) hrest

end

/-- **The limits hold throughout a connection**, and a `REQ` that is rejected
changes no subscription. -/
theorem subscriptions_within (limits : PositiveLimits) (actions : List Action)
    (hunder : ∀ action ∈ actions, action.Under limits.setting) :
    Within limits (Mealy.after step actions connected) ∧
      ∀ subscriptionId filters,
        ¬ Accepted (Mealy.after step actions connected) limits.setting subscriptionId filters →
        (step (.req limits.setting subscriptionId filters)
          (Mealy.after step actions connected)).2.subscriptions =
            (Mealy.after step actions connected).subscriptions := by
  refine ⟨within_after (within_connected limits) hunder, fun subscriptionId filters hrejected => ?_⟩
  rw [step, (Adapter.subscribe_of_not_accepted hrejected).1]

/-- One subscription with two filters. -/
def sampleLimits : PositiveLimits := ⟨1, 2, 64, by decide, by decide, by decide⟩

/-- A filter for one kind. -/
def kindFilter (kind : ℕ) : SubscriptionFilter := ⟨none, none, some [kind], none, none, none, []⟩

theorem subscriptions_within_twice :
    Within sampleLimits (Mealy.after step
      [.req sampleLimits.setting "notes" [kindFilter 1], .answer 0 (.ok []),
        .req sampleLimits.setting "notes" [kindFilter 1, kindFilter 6], .stream 0,
        .req sampleLimits.setting "more" [kindFilter 0], .close "notes"] connected) :=
  (subscriptions_within sampleLimits _ (by simp [Action.Under])).1

end NostrMesh.Relay.Connection
