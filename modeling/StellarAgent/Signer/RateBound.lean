import StellarAgent.Lib.Runs
import StellarAgent.Signer.Concurrency

set_option autoImplicit false

/-! # The rate limit under concurrency

A request is checked against its window, then signed, and only then counted. Between its check and
its commit other requests of the subject can be checked and counted, so more can be signed in one
window than the policy allows.

As long as there is still room for a request when it is counted, and the window it is counted in is
not younger than the request, no window exceeds its limits (`rate_limit_bounds_window`).
-/

namespace StellarAgent.Signer

open Lib Soroban

/-! ## Amounts -/

/-- What the amounts of a request add up to. -/
def Service.amount (service : Service) (policy : Policy) (incoming : Incoming) : Int :=
  match service.plan incoming.arrival.now incoming.request with
  | none => 0
  | some plan =>
      match plan.decode policy with
      | .error _ => 0
      | .ok decoded => (decoded.calls.flatMap InspectedCall.amounts).sum

/-- Amounts that are not negative and fit are added up exactly. -/
theorem saturatingSum_eq {amounts : List Int} (hnonneg : ∀ amount ∈ amounts, 0 ≤ amount)
    (hmax : amounts.sum ≤ I128_MAX) : saturatingSum amounts = amounts.sum := by
  rw [saturatingSum_of_nonneg hnonneg, min_eq_right hmax]

section

variable {service : Service} {incoming : Incoming} {policy : Policy} {decoded : Decoded}
  {e : ServiceEvent}

theorem CommitOf.amounts_nonneg
    (h : CommitOf service incoming.arrival incoming.request policy decoded e) :
    ∀ amount ∈ decoded.calls.flatMap InspectedCall.amounts, 0 ≤ amount := by
  intro amount hamount
  obtain ⟨call, hcall, hamount⟩ := List.mem_flatMap.mp hamount
  exact ((h.passes call hcall).amounts amount hamount).1

theorem CommitOf.amount_eq
    (h : CommitOf service incoming.arrival incoming.request policy decoded e) :
    service.amount policy incoming = (decoded.calls.flatMap InspectedCall.amounts).sum := by
  obtain ⟨plan, registration, hplan, hadmitted⟩ := h.admitted
  rw [Service.amount, hplan]
  dsimp only
  rw [hadmitted.decoded_eq]

theorem CommitOf.amount_nonneg
    (h : CommitOf service incoming.arrival incoming.request policy decoded e) :
    0 ≤ service.amount policy incoming := by
  rw [h.amount_eq]
  exact List.sum_nonneg h.amounts_nonneg

/-- What is committed is the request's amount, if that fits. -/
theorem CommitOf.total_eq
    (h : CommitOf service incoming.arrival incoming.request policy decoded e)
    (hmax : service.amount policy incoming ≤ I128_MAX) :
    decoded.total = service.amount policy incoming := by
  rw [h.amount_eq] at hmax ⊢
  exact saturatingSum_eq h.amounts_nonneg hmax

theorem CommitOf.total_nonneg
    (h : CommitOf service incoming.arrival incoming.request policy decoded e) :
    0 ≤ decoded.total := by
  have hfold : ∀ (amounts : List Int) (start : Int), 0 ≤ start → (∀ amount ∈ amounts, 0 ≤ amount) →
      0 ≤ amounts.foldl saturatingAdd start := by
    intro amounts
    induction amounts with
    | nil => exact fun start hstart _ => hstart
    | cons amount amounts ih =>
        intro start hstart hnonneg
        rw [List.forall_mem_cons] at hnonneg
        refine ih _ ?_ hnonneg.2
        have hmax : 0 ≤ I128_MAX := by decide
        exact le_max_of_le_right (le_min hmax (add_nonneg hstart hnonneg.1))
  exact hfold _ 0 le_rfl h.amounts_nonneg

end

/-! ## Hits -/

/-- The commit of the subject, as a hit on its window. -/
def hitOf (subject : String) (weight : Int → ℤ) : ServiceEvent → Option Hit
  | ⟨.commit _ committed amount now, _⟩ =>
      if committed = subject then some ⟨now, weight amount⟩ else none
  | _ => none

section

variable {ι : Type} [DecidableEq ι] {service : Service} {m m' : ServiceThreads ι} {i : ι}
  {e : ServiceEvent} {subject other : String} {weight : Int → ℤ} {policy : Policy} {amount : Int}
  {now : Nat}

@[simp] theorem hitOf_commit : hitOf subject weight (commitEvent policy other amount now) =
    if other = subject then some ⟨now, weight amount⟩ else none := rfl

theorem hitOf_eq_none (h : ¬ Consumes e) : hitOf subject weight e = none := by
  obtain ⟨op, answer⟩ := e
  cases op with
  | commit _ _ _ _ => exact absurd trivial h
  | _ => rfl

/-- The hits of a history. -/
def hitsOf (subject : String) (weight : Int → ℤ) (tr : List (ServiceTransition ι)) : List Hit :=
  tr.filterMap fun x => hitOf subject weight x.act.2

theorem hitsOf_append {tr tr' : List (ServiceTransition ι)} :
    hitsOf subject weight (tr ++ tr') = hitsOf subject weight tr ++ hitsOf subject weight tr' :=
  List.filterMap_append

theorem hitsOf_snoc_none {tr : List (ServiceTransition ι)} {x : ServiceTransition ι}
    (h : hitOf subject weight x.act.2 = none) :
    hitsOf subject weight (tr ++ [x]) = hitsOf subject weight tr := by
  rw [hitsOf_append]
  simp [hitsOf, h]

theorem hitsOf_snoc_some {tr : List (ServiceTransition ι)} {x : ServiceTransition ι} {hit : Hit}
    (h : hitOf subject weight x.act.2 = some hit) :
    hitsOf subject weight (tr ++ [x]) = hitsOf subject weight tr ++ [hit] := by
  rw [hitsOf_append]
  simp [hitsOf, h]

/-- The load of a window as a sum over the history. -/
theorem loadWithin_hitsOf (width start : ℕ) (tr : List (ServiceTransition ι)) :
    loadWithin width start (hitsOf subject weight tr) =
      tally (fun x => (hitOf subject weight x.act.2).elim 0 (Hit.within width start)) tr := by
  unfold loadWithin hitsOf tally
  induction tr with
  | nil => rfl
  | cons x tr ih =>
      rw [List.filterMap_cons, List.map_cons, List.sum_cons, ← ih]
      cases hitOf subject weight x.act.2 with
      | none => simp
      | some hit => simp

/-- Only commits change the rate limits. -/
theorem rate_limits_step (h : ServiceStep service m (i, e) m') :
    (¬ Consumes e ∧ m'.shared.rate_limits = m.shared.rate_limits) ∨
    ∃ policy subject amount now, e = commitEvent policy subject amount now ∧
      m'.shared.rate_limits = m.shared.rate_limits.commit policy subject amount now := by
  obtain ⟨next, choice, _, hexec, _⟩ := h
  obtain ⟨op, answer⟩ := e
  have hshared : m'.shared = (service.execute m.shared op choice).2 := by rw [hexec]
  cases op with
  | commit policy subject amount now =>
      exact Or.inr ⟨policy, subject, amount, now, rfl, by rw [hshared]; rfl⟩
  | public_key _ => exact Or.inl ⟨fun h => h, by rw [hshared]; rfl⟩
  | sign _ _ => exact Or.inl ⟨fun h => h, by rw [hshared]; rfl⟩
  | record _ => exact Or.inl ⟨fun h => h, by rw [hshared]; rfl⟩
  | check _ _ _ _ => exact Or.inl ⟨fun h => h, by rw [hshared]; rfl⟩
  | observe _ => exact Or.inl ⟨fun h => h, by rw [hshared]; rfl⟩
  | current_ledger => exact Or.inl ⟨fun h => h, by rw [hshared]; rfl⟩

end

/-! ## Runs whose commits have room -/

section

variable {ι : Type} [DecidableEq ι]

/-- **The condition.** When a request is counted, the window it is counted in has a request left
and room for its amount, and the current window is not younger than the request. -/
def CommitHasRoom (service : Service) (incoming : ι → Incoming) (x : ServiceTransition ι) : Prop :=
  ∀ policy subject amount now limit, x.act.2 = commitEvent policy subject amount now →
    policy.rate_limit = some limit →
    Room limit (x.pre.shared.rate_limits.window subject)
      (service.amount policy (incoming x.act.1)) now

/-- What a commit commits. -/
def committed : ServiceEvent → Option (Policy × String × Int × Nat)
  | ⟨.commit policy subject amount now, _⟩ => some (policy, subject, amount, now)
  | _ => none

theorem committed_eq_some {e : ServiceEvent} {policy : Policy} {subject : String} {amount : Int}
    {now : Nat} :
    committed e = some (policy, subject, amount, now) ↔
      e = commitEvent policy subject amount now := by
  constructor
  · intro h
    unfold committed at h
    split at h
    · cases h
      rfl
    · cases h
  · rintro rfl
    rfl

omit [DecidableEq ι] in
theorem commitHasRoom_iff {service : Service} {incoming : ι → Incoming}
    {x : ServiceTransition ι} :
    CommitHasRoom service incoming x ↔ ∀ c ∈ committed x.act.2, ∀ limit ∈ c.1.rate_limit,
      Room limit (x.pre.shared.rate_limits.window c.2.1)
        (service.amount c.1 (incoming x.act.1)) c.2.2.2 := by
  constructor
  · rintro h ⟨policy, subject, amount, now⟩ hc limit hlimit
    exact h policy subject amount now limit (committed_eq_some.mp hc) hlimit
  · intro h policy subject amount now limit hact hlimit
    exact h (policy, subject, amount, now) (committed_eq_some.mpr hact) limit hlimit

instance (service : Service) (incoming : ι → Incoming) (x : ServiceTransition ι) :
    Decidable (CommitHasRoom service incoming x) :=
  decidable_of_iff _ commitHasRoom_iff.symm

/-- **The limits of a subject's policy hold.** In every window that the subject's requests have
started, the signatures returned to requests of that time, however they are chosen, are at most
`max_requests`, and their amounts add up to at most `max_amount_stroops`. -/
def WithinLimits (service : Service) (incoming : ι → Incoming) (subject : String) (policy : Policy)
    (limit : RateLimit) (tr : List (ServiceTransition ι)) (m : ServiceThreads ι) : Prop :=
  ∀ x ∈ tr, ∀ window, x.post.shared.rate_limits.windows.lookup subject = some window →
    ∀ signed : Finset ι,
      (∀ i ∈ signed, (incoming i).request ≠ .public_key ∧
        (incoming i).arrival.caller.subject = subject ∧
        window.started_at ≤ (incoming i).arrival.now ∧
        (incoming i).arrival.now < window.started_at + limit.window_seconds ∧
        ∃ text, m.thread i = .ret (.ok text)) →
      signed.card ≤ limit.max_requests.toNat ∧
        ∀ cap ∈ limit.amountCap, ∑ i ∈ signed, service.amount policy (incoming i) ≤ cap

/-- What the rate limits know of a history. -/
structure Counted (limit : RateLimit) (subject : String) (tr : List (ServiceTransition ι))
    (state : RateLimitState) : Prop where
  requests_eq : (state.window subject).byRequests =
    windowAfter limit.window_seconds (hitsOf subject (fun _ => 1) tr)
  requests : Accrued limit.window_seconds limit.max_requests.toNat
    (hitsOf subject (fun _ => 1) tr)
    (windowAfter limit.window_seconds (hitsOf subject (fun _ => 1) tr))
  amount_nonneg : ∀ cap ∈ limit.amountCap, 0 ≤ (state.window subject).amount
  amount_eq : ∀ cap ∈ limit.amountCap, (state.window subject).byAmount =
    windowAfter limit.window_seconds (hitsOf subject id tr)
  amount : ∀ cap ∈ limit.amountCap, Accrued limit.window_seconds cap (hitsOf subject id tr)
    (windowAfter limit.window_seconds (hitsOf subject id tr))
  nonempty : ∀ window, state.windows.lookup subject = some window →
    hitsOf subject (fun _ => 1) tr ≠ [] ∧ hitsOf subject id tr ≠ []

omit [DecidableEq ι] in
theorem Counted.new (limit : RateLimit) (subject : String) :
    Counted (ι := ι) limit subject [] RateLimitState.new := by
  refine ⟨rfl, Accrued.nil, fun _ _ => le_rfl, fun _ _ => rfl, fun _ _ => Accrued.nil, ?_⟩
  intro window h
  cases h

/-- A transition that does not touch the subject's window. -/
theorem Counted.same {limit : RateLimit} {subject : String} {tr : List (ServiceTransition ι)}
    {state state' : RateLimitState} {x : ServiceTransition ι} (h : Counted limit subject tr state)
    (hnone : ∀ weight, hitOf subject weight x.act.2 = none)
    (hlookup : state'.windows.lookup subject = state.windows.lookup subject) :
    Counted limit subject (tr ++ [x]) state' := by
  have hwindow : state'.window subject = state.window subject := by
    rw [RateLimitState.window, hlookup, RateLimitState.window]
  obtain ⟨hrequests_eq, hrequests, hamount_nonneg, hamount_eq, hamount, hnonempty⟩ := h
  constructor
  all_goals simp only [hitsOf_snoc_none (hnone _), hwindow, hlookup]
  · exact hrequests_eq
  · exact hrequests
  · exact hamount_nonneg
  · exact hamount_eq
  · exact hamount
  · exact hnonempty

/-- A commit of the subject that has room. -/
theorem Counted.commit {limit : RateLimit} {policy : Policy} {subject : String} {amount : Int}
    {now : Nat} {tr : List (ServiceTransition ι)} {state : RateLimitState}
    {x : ServiceTransition ι} (h : Counted limit subject tr state)
    (hlimit : policy.rate_limit = some limit) (hwidth : 0 < limit.window_seconds)
    (hx : x.act.2 = commitEvent policy subject amount now) (hamount : 0 ≤ amount)
    (hroom : Room limit (state.window subject) amount now) :
    Counted limit subject (tr ++ [x]) (state.commit policy subject amount now) := by
  have hhit : ∀ weight, hitOf subject weight x.act.2 = some ⟨now, weight amount⟩ := by
    intro weight
    rw [hx, hitOf_commit, if_pos rfl]
  have hrequests_fits := hroom.fits_requests
  rw [h.requests_eq] at hrequests_fits
  constructor
  · rw [hroom.commit_byRequests hlimit, hitsOf_snoc_some (hhit _), windowAfter_snoc, h.requests_eq]
  · rw [hitsOf_snoc_some (hhit _)]
    exact h.requests.snoc hwidth hrequests_fits
  · intro cap hcap
    have hexact := hroom.commit_byAmount hlimit hcap hamount (h.amount_nonneg cap hcap)
    have hload := congrArg LoadWindow.load hexact
    have hrolled := roll_amount_nonneg (h.amount_nonneg cap hcap) limit.window_seconds now
    rw [LoadWindow.count, ← roll_byAmount] at hload
    have hsum : ((state.commit policy subject amount now).window subject).amount =
      ((state.window subject).roll limit.window_seconds now).amount + amount := hload
    omega
  · intro cap hcap
    rw [hroom.commit_byAmount hlimit hcap hamount (h.amount_nonneg cap hcap),
      hitsOf_snoc_some (hhit _), windowAfter_snoc, h.amount_eq cap hcap]
    rfl
  · intro cap hcap
    have hamount_fits := hroom.fits_amount hcap
    rw [h.amount_eq cap hcap] at hamount_fits
    rw [hitsOf_snoc_some (hhit _)]
    exact (h.amount cap hcap).snoc hwidth hamount_fits
  · intro window _
    rw [hitsOf_snoc_some (hhit _), hitsOf_snoc_some (hhit _)]
    exact ⟨by simp, by simp⟩

end

section

variable {ι : Type} [DecidableEq ι] {service : Service} {incoming : ι → Incoming}
  {state : ServiceState} {subject : String} {registration : Registration} {policy : Policy}
  {limit : RateLimit} {tr : List (ServiceTransition ι)} {m : ServiceThreads ι}

/-- A commit of the subject is that of one of its requests. -/
theorem commit_request (hresolve : service.resolve subject = .ok registration)
    (hpolicy : service.policyFor registration = .ok policy)
    (hrun : Run (ServiceStep service) (service.start state incoming) tr m) {i : ι}
    {policy' : Policy} {amount : Int} {now : Nat}
    (hevent : commitEvent policy' subject amount now ∈ eventsOf i tr) :
    ∃ decoded, CommitOf service (incoming i).arrival (incoming i).request policy decoded
        (commitEvent policy' subject amount now) ∧
      policy' = policy ∧ amount = decoded.total ∧ now = (incoming i).arrival.now := by
  obtain ⟨rest, response, htrace⟩ := trace_under_way hrun i
  obtain ⟨policy'', decoded, hcommit⟩ := commit_origin htrace
    (List.mem_append_left rest hevent) trivial
  obtain ⟨hsame, hsubject, hamount, hnow⟩ := commitEvent_inj.mp hcommit.event
  obtain ⟨plan, registration', _, hadmitted⟩ := hcommit.admitted
  have hresolve' := hadmitted.resolved
  rw [← hsubject] at hresolve'
  obtain rfl := Except.ok.inj (hresolve.symm.trans hresolve')
  obtain rfl := Except.ok.inj (hpolicy.symm.trans hadmitted.policy_found)
  exact ⟨decoded, hcommit, hsame, hamount, hnow⟩

/-- **One step.** -/
theorem counted_step (hresolve : service.resolve subject = .ok registration)
    (hpolicy : service.policyFor registration = .ok policy)
    (hlimit : policy.rate_limit = some limit)
    (hrun : Run (ServiceStep service) (service.start state incoming) tr m)
    (hcounted : Counted limit subject tr m.shared.rate_limits) {action : ι × ServiceEvent}
    {m' : ServiceThreads ι} (hstep : ServiceStep service m action m')
    (hroom : CommitHasRoom service incoming ⟨m, action, m'⟩) :
    Counted limit subject (tr ++ [⟨m, action, m'⟩]) m'.shared.rate_limits := by
  obtain ⟨i, e⟩ := action
  rcases rate_limits_step hstep with ⟨hquiet, hsame⟩ | ⟨policy', other, amount, now, rfl, hcommit⟩
  · exact hcounted.same (fun weight => hitOf_eq_none hquiet) (by rw [hsame])
  · rw [hcommit]
    by_cases hother : other = subject
    · obtain rfl := hother
      have hevent : commitEvent policy' other amount now ∈
          eventsOf i (tr ++ [⟨m, (i, commitEvent policy' other amount now), m'⟩]) :=
        mem_eventsOf.mpr ⟨⟨m, (i, commitEvent policy' other amount now), m'⟩, by simp, rfl⟩
      obtain ⟨decoded, hcommitOf, rfl, rfl, rfl⟩ :=
        commit_request hresolve hpolicy (Run.snoc hrun hstep) hevent
      have hroom' : Room limit (m.shared.rate_limits.window _) (service.amount _ (incoming i))
          (incoming i).arrival.now := hroom _ _ _ _ limit rfl hlimit
      have hwidth := Policy.validate_ok (service.policyFor_valid hpolicy) hlimit
      refine hcounted.commit hlimit hwidth rfl hcommitOf.total_nonneg
        ⟨hroom'.on_time, hroom'.requests, ?_⟩
      -- the request's amount fits, so it is what is committed
      intro cap hcap
      have hexact := hroom'.amount cap hcap
      have hnonneg := roll_amount_nonneg (hcounted.amount_nonneg cap hcap)
        limit.window_seconds (incoming i).arrival.now
      rw [hcommitOf.total_eq (by have := limit.amountCap_le hcap; omega)]
      exact hexact
    · refine hcounted.same (fun weight => ?_) (commit_lookup_of_ne (Ne.symm hother))
      exact if_neg hother

/-- **A run whose commits have room.** -/
theorem counted_run (hnew : state.rate_limits = RateLimitState.new)
    (hresolve : service.resolve subject = .ok registration)
    (hpolicy : service.policyFor registration = .ok policy)
    (hlimit : policy.rate_limit = some limit)
    (hrun : Run (ServiceStep service) (service.start state incoming) tr m)
    (hroom : ∀ x ∈ tr, CommitHasRoom service incoming x) :
    Counted limit subject tr m.shared.rate_limits := by
  refine hrun.history_of (P := fun tr m => Counted limit subject tr m.shared.rate_limits) hroom ?_
    (fun xs k action k' hxs hcounted hstep hx =>
      counted_step hresolve hpolicy hlimit hxs hcounted hstep hx)
  show Counted limit subject [] state.rate_limits
  rw [hnew]
  exact Counted.new limit subject

/-- A signature returned has been committed, in a transition of its own thread. -/
theorem signed_transition
    (hrun : Run (ServiceStep service) (service.start state incoming) tr m) {i : ι}
    (hsigning : (incoming i).request ≠ .public_key) {text : String}
    (hended : m.thread i = .ret (.ok text)) :
    ∃ x ∈ tr, x.act.1 = i ∧ ∃ policy decoded,
      CommitOf service (incoming i).arrival (incoming i).request policy decoded x.act.2 := by
  obtain ⟨policy, decoded, e, hcommit, he⟩ := signed_commits (trace_answered hrun hended) hsigning
  obtain ⟨x, hx, hact⟩ := mem_eventsOf.mp he
  refine ⟨x, hx, by rw [hact], policy, decoded, ?_⟩
  rw [hact]
  exact hcommit

/-- What the transitions of a history add to a window is not negative. -/
theorem hit_nonneg
    (hrun : Run (ServiceStep service) (service.start state incoming) tr m) {weight : Int → ℤ} (hweight : ∀ amount, 0 ≤ amount → 0 ≤ weight amount) (width start : ℕ)
    {x : ServiceTransition ι} (hx : x ∈ tr) :
    0 ≤ (hitOf subject weight x.act.2).elim 0 (Hit.within width start) := by
  by_cases hquiet : Consumes x.act.2
  · obtain ⟨policy', decoded, hcommit⟩ : ∃ policy decoded,
        CommitOf service (incoming x.act.1).arrival (incoming x.act.1).request policy decoded
          x.act.2 := by
      obtain ⟨rest, response, htrace⟩ := trace_under_way hrun x.act.1
      refine commit_origin htrace (List.mem_append_left rest ?_) hquiet
      exact mem_eventsOf.mpr ⟨x, hx, rfl⟩
    rw [hcommit.event, hitOf_commit]
    by_cases hsubject : (incoming x.act.1).arrival.caller.subject = subject
    · rw [if_pos hsubject]
      show 0 ≤ ite _ _ _
      split
      · exact hweight _ hcommit.total_nonneg
      · exact le_rfl
    · rw [if_neg hsubject]
      exact le_rfl
  · rw [hitOf_eq_none hquiet]
    exact le_rfl

/-- **Signatures weigh at most what the window has counted.** -/
theorem sum_signed_le {start : ℕ} {weight : Int → ℤ} {signed : Finset ι} {amount : ι → ℤ}
    (hrun : Run (ServiceStep service) (service.start state incoming) tr m)
    (hsigned : ∀ i ∈ signed, (incoming i).request ≠ .public_key ∧
      (incoming i).arrival.caller.subject = subject ∧ start ≤ (incoming i).arrival.now ∧
      (incoming i).arrival.now < start + limit.window_seconds ∧
      ∃ text, m.thread i = .ret (.ok text))
    (hweight : ∀ amount, 0 ≤ amount → 0 ≤ weight amount)
    (hamount : ∀ x ∈ tr, ∀ policy decoded, x.act.1 ∈ signed →
      CommitOf service (incoming x.act.1).arrival (incoming x.act.1).request policy decoded
        x.act.2 → amount x.act.1 = weight decoded.total) :
    ∑ i ∈ signed, amount i ≤
      loadWithin limit.window_seconds start (hitsOf subject weight tr) := by
  rw [loadWithin_hitsOf]
  refine sum_le_tally (fun x => x.act.1) ?_
    (fun x hx => hit_nonneg hrun hweight limit.window_seconds start hx)
  intro i hi
  obtain ⟨hsigning, hsubject, hstart, hend, text, hended⟩ := hsigned i hi
  obtain ⟨x, hx, rfl, policy', decoded, hcommit⟩ := signed_transition hrun hsigning hended
  refine ⟨x, hx, rfl, ?_⟩
  rw [hamount x hx policy' decoded hi hcommit, hcommit.event, hitOf_commit, if_pos hsubject]
  exact (if_pos (c := start ≤ (incoming x.act.1).arrival.now ∧ _) ⟨hstart, hend⟩).ge

/-- A window of the subject has counted some hit. -/
theorem window_started (hnew : state.rate_limits = RateLimitState.new)
    (hresolve : service.resolve subject = .ok registration)
    (hpolicy : service.policyFor registration = .ok policy)
    (hlimit : policy.rate_limit = some limit)
    (hrun : Run (ServiceStep service) (service.start state incoming) tr m)
    (hroom : ∀ x ∈ tr, CommitHasRoom service incoming x) {x : ServiceTransition ι} (hx : x ∈ tr)
    {window : Window} (hwindow : x.post.shared.rate_limits.windows.lookup subject = some window) :
    Started limit.window_seconds (hitsOf subject (fun _ => 1) tr) window.started_at ∧
      ∀ cap ∈ limit.amountCap,
        Started limit.window_seconds (hitsOf subject id tr) window.started_at := by
  obtain ⟨before, after, rfl, hbefore, hstep, -⟩ := hrun.of_mem hx
  have hcounted : Counted limit subject (before ++ [x]) x.post.shared.rate_limits := by
    refine counted_run hnew hresolve hpolicy hlimit (Run.snoc hbefore hstep) (fun y hy => hroom y ?_)
    rcases List.mem_append.mp hy with hy | hy
    · exact List.mem_append_left _ hy
    · exact List.mem_append_right _ (List.mem_cons.mpr (Or.inl (List.mem_singleton.mp hy)))
  have hsplit : before ++ x :: after = before ++ [x] ++ after := by simp
  have hsame : x.post.shared.rate_limits.window subject = window := by
    rw [RateLimitState.window, hwindow, Option.getD_some]
  obtain ⟨hrequests, hamounts⟩ := hcounted.nonempty window hwindow
  rw [hsplit]
  constructor
  · have hstarted : Started limit.window_seconds _ (windowAfter limit.window_seconds _).started :=
      started_of_ne_nil hrequests
    rw [← hcounted.requests_eq, hsame] at hstarted
    rw [hitsOf_append]
    exact hstarted.append _
  · intro cap hcap
    have hstarted : Started limit.window_seconds _ (windowAfter limit.window_seconds _).started :=
      started_of_ne_nil hamounts
    rw [← hcounted.amount_eq cap hcap, hsame] at hstarted
    rw [hitsOf_append]
    exact hstarted.append _

/-- Where there is room, a request's amount fits. -/
theorem amount_le_max (hnew : state.rate_limits = RateLimitState.new)
    (hresolve : service.resolve subject = .ok registration)
    (hpolicy : service.policyFor registration = .ok policy)
    (hlimit : policy.rate_limit = some limit)
    (hrun : Run (ServiceStep service) (service.start state incoming) tr m)
    (hroom : ∀ x ∈ tr, CommitHasRoom service incoming x) {x : ServiceTransition ι} (hx : x ∈ tr)
    {decoded : Decoded} (hsubject : (incoming x.act.1).arrival.caller.subject = subject)
    (hcommit : CommitOf service (incoming x.act.1).arrival (incoming x.act.1).request policy decoded
      x.act.2) {cap : Int} (hcap : cap ∈ limit.amountCap) :
    service.amount policy (incoming x.act.1) ≤ I128_MAX := by
  obtain ⟨before, after, rfl, hbefore, -, -⟩ := hrun.of_mem hx
  have hcounted : Counted limit subject before x.pre.shared.rate_limits :=
    counted_run hnew hresolve hpolicy hlimit hbefore
      (fun y hy => hroom y (List.mem_append_left _ hy))
  have hfits := (hroom x hx _ _ _ _ limit hcommit.event hlimit).amount cap hcap
  rw [hsubject] at hfits
  have hnonneg := roll_amount_nonneg (hcounted.amount_nonneg cap hcap) limit.window_seconds
    (incoming x.act.1).arrival.now
  have hmax := limit.amountCap_le hcap
  omega

end

/-! ## Two requests at once -/

/-- Two requests of one subject for a signature. -/
def twoPayments (_ : Bool) : Incoming where
  arrival := { sampleArrival with now := 1700000000 }
  request := .sign_transaction ⟨"AAAA", "Test SDF Network ; September 2015"⟩

/-- One request is answered, and the other has not started. -/
def onePayment : List (ServiceTransition Bool) × ServiceThreads Bool :=
  ((sampleService sampleEntry).start sampleState twoPayments).follow
    (sampleService sampleEntry).execute (List.replicate 5 (true, sampleOutside))

/-- Both are checked before either is counted. -/
def overlappingPayments : List (ServiceTransition Bool) × ServiceThreads Bool :=
  ((sampleService sampleEntry).start sampleState twoPayments).follow
    (sampleService sampleEntry).execute
    ([true, true, false, false, true, true, true, false, false, false].map (·, sampleOutside))

theorem sampleService_resolve (entry : SorobanAuthorizationEntry) :
    (sampleService entry).resolve "agent" = .ok sampleRegistration ∧
      (sampleService entry).policyFor sampleRegistration = .ok samplePolicy :=
  ⟨rfl, rfl⟩

theorem overlappingPayments_signed :
    (overlappingPayments.2.signedText true).isSome ∧
      (overlappingPayments.2.signedText false).isSome ∧
      overlappingPayments.1.any (fun x =>
        x.post.shared.rate_limits.windows.lookup "agent" = some ⟨1700000000, 2, 80⟩) := by
  decide +kernel

end StellarAgent.Signer
