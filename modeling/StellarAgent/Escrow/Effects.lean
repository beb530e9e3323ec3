import StellarAgent.Escrow.Contract

set_option autoImplicit false

/-! # What a successful escrow call has done

Seen from the jobs and the money, a call that returns leaves both alone, opens a job and takes its
payment in, moves a live job on, or settles a live job and pays it out (`Effect`).
-/

namespace StellarAgent.Escrow

open Lib Soroban

/-- The job holds money: it is not `Completed` or `Refunded`. -/
def Job.Live (job : Job) : Prop :=
  job.status = .Open ∨ job.status = .InProgress ∨ job.status = .PendingRelease ∨
    job.status = .Disputed

instance (job : Job) : Decidable job.Live := inferInstanceAs (Decidable (_ ∨ _))

theorem Job.live_iff {job : Job} :
    job.Live ↔ job.status ≠ .Completed ∧ job.status ≠ .Refunded := by
  unfold Job.Live
  cases job.status <;> simp

/-- Token, recipient and amount of a transfer out of `self`. -/
def transferOut (self : Address) : HostEvent Event → Option (Address × Address × Int)
  | .transfer token source dest amount =>
      if source = self then some (token, dest, amount) else none
  | .published _ => none

/-- The transfers out of `self` that the last call made. -/
def outgoing (self : Address) (w : State) : List (Address × Address × Int) :=
  w.events.filterMap (transferOut self)

/-- The status a job is settled with, and who is paid. -/
def PaidTo (job : Job) (status : JobStatus) (dest : Address) : Prop :=
  status = .Completed ∧ job.worker = some dest ∨ status = .Refunded ∧ dest = job.requester

inductive Effect (env : Env) (w w' : State) : Prop
  | kept (jobs_eq : jobs w' = jobs w) (count_eq : w'.storage.count = w.storage.count)
      (balance_eq : w'.balance = w.balance) (unpaid : outgoing env.self w' = [])
  | created {id : Nat} {job : Job} (next : id = w.storage.count.getD 0 + 1)
      (opened : job.status = .Open) (positive : 0 < job.amount) (unassigned : job.worker = none)
      (auth : env.authorized job.requester = true)
      (jobs_eq : jobs w' = (jobs w).insert id job) (count_eq : w'.storage.count = some id)
      (balance_eq : w'.balance = w.balance.move job.token job.requester env.self job.amount)
      (unpaid : outgoing env.self w' = [])
  | advanced {id : Nat} {job job' : Job} (before : (jobs w).lookup id = some job)
      (live : job.Live) (live' : job'.Live) (requester_eq : job'.requester = job.requester)
      (token_eq : job'.token = job.token) (amount_eq : job'.amount = job.amount)
      (worker_eq : job'.worker = job.worker ∨
        ∃ worker, job'.worker = some worker ∧ env.authorized worker = true)
      (jobs_eq : jobs w' = (jobs w).insert id job')
      (count_eq : w'.storage.count = w.storage.count) (balance_eq : w'.balance = w.balance)
      (unpaid : outgoing env.self w' = [])
  | settled {id : Nat} {job : Job} {status : JobStatus} {dest : Address}
      (before : (jobs w).lookup id = some job) (live : job.Live) (paid_to : PaidTo job status dest)
      (jobs_eq : jobs w' = (jobs w).insert id { job with status })
      (count_eq : w'.storage.count = w.storage.count)
      (balance_eq : w'.balance = w.balance.move job.token env.self dest job.amount)
      (paid : outgoing env.self w' = [(job.token, dest, job.amount)])

section

variable {env : Env} {w w' : State} {id : Nat}

@[simp] theorem jobs_saveJob (w : State) (id : Nat) (job : Job) :
    jobs (saveJob w id job) = (jobs w).insert id job := rfl

@[simp] theorem jobs_announce (w : State) (id : Nat) (job : Job) (event : Event) :
    jobs (announce w id job event) = jobs w := rfl

@[simp] theorem outgoing_announce (self : Address) (w : State) (id : Nat) (job : Job)
    (event : Event) : outgoing self (announce w id job event) = outgoing self w := by
  simp [outgoing, announce, transferOut]

@[simp] theorem outgoing_saveJob (self : Address) (w : State) (id : Nat) (job : Job) :
    outgoing self (saveJob w id job) = outgoing self w := rfl

@[simp] theorem outgoing_publish (self : Address) (w : State) (event : Event) :
    outgoing self (w.publish event) = outgoing self w := by
  simp [outgoing, transferOut]

@[simp] theorem outgoing_quiet (self : Address) (w : State) : outgoing self w.quiet = [] := rfl

theorem outgoing_moved (self : Address) (w : State) (token source dest : Address) (amount : Int) :
    outgoing self (w.moved token source dest amount)
      = outgoing self w ++ if source = self then [(token, dest, amount)] else [] := by
  by_cases hs : source = self <;> simp [outgoing, transferOut, hs]

/-! ## One lemma for each entry point -/

theorem createJob_ok {requester token : Address} {amount : Int} {task_description : Bytes}
    {deadline_ledger : Nat} {arbiter : Option Address}
    (h : createJob env w.quiet requester token amount task_description deadline_ledger arbiter
      = .ok (id, w')) : w'.sequence = w.sequence ∧ Effect env w w' := by
  simp only [createJob, nextId, Result.bind_eq_ok, requireAuth_eq_ok, panicIf_eq_ok,
    World.transfer_eq_ok, checkU64_eq_ok, Result.pure_eq_ok, Prod.exists, Prod.mk.injEq] at h
  obtain ⟨_, hauth, _, hamount, _, _, w1, ⟨_, _, rfl⟩, _, w2, ⟨n, ⟨_, hn⟩, rfl, rfl⟩, rfl, rfl⟩ := h
  have hself : requester ≠ env.self := ne_self_of_authorized hauth
  subst hn
  refine ⟨rfl, .created rfl rfl (not_le.mp hamount) rfl hauth rfl rfl rfl ?_⟩
  rw [outgoing_announce, outgoing_saveJob]
  show outgoing env.self (w.quiet.moved token requester env.self amount) = []
  rw [outgoing_moved, if_neg hself]
  rfl

/-- The end of every call that moves a job on. -/
theorem advance_effect {job job' : Job} {event : Event} (hjob : (jobs w).lookup id = some job)
    (hlive : job.Live) (hlive' : job'.Live) (hrequester : job'.requester = job.requester)
    (htoken : job'.token = job.token) (hamount : job'.amount = job.amount)
    (hworker : job'.worker = job.worker ∨
      ∃ worker, job'.worker = some worker ∧ env.authorized worker = true) :
    Effect env w (announce (saveJob w.quiet id job') id job' event) := by
  refine .advanced hjob hlive hlive' hrequester htoken hamount hworker rfl rfl rfl ?_
  rw [outgoing_announce, outgoing_saveJob]
  rfl

theorem acceptJob_ok {worker : Address} (h : acceptJob env w.quiet worker id = .ok w') :
    w'.sequence = w.sequence ∧ Effect env w w' := by
  simp only [acceptJob, Result.bind_eq_ok, requireAuth_eq_ok, loadJob_eq_ok, panicIf_eq_ok,
    Result.pure_eq_ok, not_not] at h
  obtain ⟨_, hauth, job, hjob, _, hopen, _, _, rfl⟩ := h
  exact ⟨rfl, advance_effect hjob (.inl hopen) (.inr (.inl rfl)) rfl rfl rfl
    (.inr ⟨worker, rfl, hauth⟩)⟩

theorem submitResult_ok {worker : Address} {result : Bytes}
    (h : submitResult env w.quiet worker id result = .ok w') :
    w'.sequence = w.sequence ∧ Effect env w w' := by
  simp only [submitResult, Result.bind_eq_ok, requireAuth_eq_ok, loadJob_eq_ok, panicIf_eq_ok,
    expect_eq_ok, Result.pure_eq_ok, not_not] at h
  obtain ⟨_, _, job, hjob, _, hstatus, _, _, _, _, rfl⟩ := h
  exact ⟨rfl, advance_effect hjob (.inr (.inl hstatus)) (.inr (.inr (.inl rfl))) rfl rfl rfl
    (.inl rfl)⟩

/-- The end of every payout: the job is paid, and stored with its last status. -/
theorem settle_effect {job : Job} {status : JobStatus} {dest : Address} {event : Event}
    (hjob : (jobs w).lookup id = some job) (hlive : job.Live) (hpaid : PaidTo job status dest) :
    Effect env w (announce (saveJob (w.quiet.moved job.token env.self dest job.amount) id
      { job with status }) id { job with status } event) := by
  refine .settled hjob hlive hpaid rfl rfl rfl ?_
  rw [outgoing_announce, outgoing_saveJob, outgoing_moved, if_pos rfl]
  rfl

theorem release_ok {releaser : Address} (h : release env w.quiet releaser id = .ok w') :
    w'.sequence = w.sequence ∧ Effect env w w' := by
  simp only [release, Result.bind_eq_ok, requireAuth_eq_ok, loadJob_eq_ok, panicIf_eq_ok,
    expect_eq_ok, World.transfer_eq_ok, Result.pure_eq_ok, not_not] at h
  obtain ⟨_, _, _, _, job, hjob, _, hstatus, _, _, worker, hworker, _, ⟨_, _, rfl⟩, rfl⟩ := h
  exact ⟨rfl, settle_effect hjob (.inr (.inr (.inl hstatus))) (.inl ⟨rfl, hworker⟩)⟩

theorem refundable_live {job : Job} (h : ¬ refundable job = false) : job.Live := by
  rw [Bool.not_eq_false] at h
  exact of_decide_eq_true h

theorem refund_ok {requester : Address} (h : refund env w.quiet requester id = .ok w') :
    w'.sequence = w.sequence ∧ Effect env w w' := by
  simp only [refund, Result.bind_eq_ok, requireAuth_eq_ok, loadJob_eq_ok, panicIf_eq_ok,
    World.transfer_eq_ok, Result.pure_eq_ok, not_not] at h
  obtain ⟨_, _, job, hjob, _, hrequester, _, hrefundable, _, _, _, ⟨_, _, rfl⟩, rfl⟩ := h
  exact ⟨rfl, settle_effect hjob (refundable_live hrefundable) (.inr ⟨rfl, hrequester.symm⟩)⟩

theorem dispute_ok {requester : Address} (h : dispute env w.quiet requester id = .ok w') :
    w'.sequence = w.sequence ∧ Effect env w w' := by
  simp only [dispute, Result.bind_eq_ok, requireAuth_eq_ok, loadJob_eq_ok, panicIf_eq_ok,
    checkU32_eq_ok, Result.pure_eq_ok, not_not] at h
  obtain ⟨_, _, job, hjob, _, _, _, _, _, hstatus, _, _, rfl⟩ := h
  exact ⟨rfl, advance_effect hjob (.inr (.inr (.inl hstatus))) (.inr (.inr (.inr rfl))) rfl rfl
    rfl (.inl rfl)⟩

theorem resolveDispute_ok {arbiter : Address} {favor_worker : Bool}
    (h : resolveDispute env w.quiet arbiter id favor_worker = .ok w') :
    w'.sequence = w.sequence ∧ Effect env w w' := by
  simp only [resolveDispute, Result.bind_eq_ok, requireAuth_eq_ok, loadJob_eq_ok, panicIf_eq_ok,
    expect_eq_ok, Result.pure_eq_ok, not_not, Prod.exists] at h
  obtain ⟨_, _, _, _, job, hjob, _, hstatus, _, _, _, _, job', w1, hpay, rfl⟩ := h
  have hlive : job.Live := .inr (.inr (.inr hstatus))
  cases favor_worker with
  | true =>
      simp only [if_true, Result.bind_eq_ok, expect_eq_ok, World.transfer_eq_ok,
        Result.pure_eq_ok, Prod.mk.injEq] at hpay
      obtain ⟨worker, hworker, _, ⟨_, _, rfl⟩, rfl, rfl⟩ := hpay
      exact ⟨rfl, settle_effect hjob hlive (.inl ⟨rfl, hworker⟩)⟩
  | false =>
      simp only [Bool.false_eq_true, if_false, Result.bind_eq_ok, World.transfer_eq_ok,
        Result.pure_eq_ok, Prod.mk.injEq] at hpay
      obtain ⟨_, ⟨_, _, rfl⟩, rfl, rfl⟩ := hpay
      exact ⟨rfl, settle_effect hjob hlive (.inr ⟨rfl, rfl⟩)⟩

/-! ## Admin calls -/

/-- Jobs, balances and events are untouched. -/
structure JobsKept (w w' : State) : Prop where
  jobs_eq : jobs w' = jobs w
  count_eq : w'.storage.count = w.storage.count
  balance_eq : w'.balance = w.balance
  sequence_eq : w'.sequence = w.sequence
  events_eq : w'.events = w.events

theorem JobsKept.effect {m : State} (h : JobsKept w.quiet m) (hjobs : jobs w' = jobs m)
    (hcount : w'.storage.count = m.storage.count) (hbalance : w'.balance = m.balance)
    (hsequence : w'.sequence = m.sequence) (hpaid : outgoing env.self w' = outgoing env.self m) :
    w'.sequence = w.sequence ∧ Effect env w w' := by
  have hnone : outgoing env.self m = [] := by
    unfold outgoing
    rw [h.events_eq]
    rfl
  exact ⟨hsequence.trans h.sequence_eq, .kept (hjobs.trans h.jobs_eq) (hcount.trans h.count_eq)
    (hbalance.trans h.balance_eq) (hpaid.trans hnone)⟩

theorem configGate_ok {m : State} {caller : Address} (h : configGate w caller = .ok m) :
    JobsKept w m := by
  unfold configGate at h
  split at h
  · simp only [requireQuorum, Result.bind_eq_ok, panicIf_eq_ok, Result.pure_eq_ok] at h
    obtain ⟨_, _, _, _, rfl⟩ := h
    exact ⟨rfl, rfl, rfl, rfl, rfl⟩
  · simp only [Result.bind_eq_ok, panicIf_eq_ok, Result.pure_eq_ok] at h
    obtain ⟨_, _, rfl⟩ := h
    exact ⟨rfl, rfl, rfl, rfl, rfl⟩

theorem breakerGate_ok {m : State} {admin circuit_breaker : Address}
    (h : breakerGate w admin circuit_breaker = .ok m) : JobsKept w m := by
  unfold breakerGate at h
  split at h
  · simp only [Result.bind_eq_ok, panicIf_eq_ok] at h
    obtain ⟨_, _, h⟩ := h
    split at h
    · simp only [requireQuorum, Result.bind_eq_ok, panicIf_eq_ok, Result.pure_eq_ok] at h
      obtain ⟨_, _, rfl⟩ := h
      exact ⟨rfl, rfl, rfl, rfl, rfl⟩
    · cases h
      exact ⟨rfl, rfl, rfl, rfl, rfl⟩
  · split at h
    · simp only [Result.bind_eq_ok, panicIf_eq_ok, Result.pure_eq_ok] at h
      obtain ⟨_, _, rfl⟩ := h
      exact ⟨rfl, rfl, rfl, rfl, rfl⟩
    · cases h
      exact ⟨rfl, rfl, rfl, rfl, rfl⟩

/-- **What a call that returns has done.** -/
theorem exec_effect {call : Call} (h : exec env w.quiet call = .ok w') :
    w'.sequence = w.sequence ∧ Effect env w w' := by
  cases call with
  | createJob requester token amount task_description deadline_ledger arbiter =>
      simp only [exec, Result.map_eq_ok] at h
      obtain ⟨⟨id, w1⟩, h, rfl⟩ := h
      exact createJob_ok h
  | acceptJob worker job_id => exact acceptJob_ok h
  | submitResult worker job_id result => exact submitResult_ok h
  | release releaser job_id => exact release_ok h
  | refund requester job_id => exact refund_ok h
  | dispute requester job_id => exact dispute_ok h
  | resolveDispute arbiter job_id favor_worker => exact resolveDispute_ok h
  | setMultisigConfig caller owners threshold window =>
      simp only [exec, setMultisigConfig, Result.bind_eq_ok, Result.pure_eq_ok] at h
      obtain ⟨_, _, _, _, _, _, _, _, m, hgate, rfl⟩ := h
      exact (configGate_ok hgate).effect rfl rfl rfl rfl (by rw [outgoing_publish]; rfl)
  | proposeCircuitBreaker owner circuit_breaker =>
      simp only [exec, proposeCircuitBreaker, Result.bind_eq_ok, Result.pure_eq_ok] at h
      obtain ⟨_, _, _, _, rfl⟩ := h
      exact JobsKept.effect (m := w.quiet) ⟨rfl, rfl, rfl, rfl, rfl⟩ rfl rfl rfl rfl
        (by rw [outgoing_publish]; rfl)
  | setCircuitBreaker admin circuit_breaker =>
      simp only [exec, setCircuitBreaker, Result.bind_eq_ok, Result.pure_eq_ok] at h
      obtain ⟨_, _, m, hgate, rfl⟩ := h
      exact (breakerGate_ok hgate).effect rfl rfl rfl rfl rfl

end

end StellarAgent.Escrow
