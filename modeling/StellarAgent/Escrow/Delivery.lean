import StellarAgent.Escrow.Conservation

set_option autoImplicit false

/-! # Delivered work

A worker who delivers before the deadline waits for the requester to release or to dispute. The
deadline of the job does not stop running for that: once it has passed, `refund` also accepts a
job that is `PendingRelease`, and the requester takes the payment back without an arbiter.
-/

namespace StellarAgent.Escrow

open Lib Soroban

/-! ## Transactions about one job -/

/-- The assigned worker submits the result of the job before its deadline. -/
def Tx.Delivers (x : Tx) (id : Nat) : Prop :=
  ∃ env worker result job, escrow.Calls x env (.submitResult worker id result) ∧
    (jobs x.pre).lookup id = some job ∧ x.pre.sequence < job.deadline_ledger

/-- A refund of a job that is still pending release. -/
def Tx.ClawsBack (x : Tx) (id : Nat) : Prop :=
  ∃ env requester job, escrow.Calls x env (.refund requester id) ∧
    (jobs x.pre).lookup id = some job ∧ job.status = .PendingRelease

/-- The job's arbiter decides for the requester, or the requester takes the refund of a dispute
that has expired. -/
inductive Tx.RefundsFairly (x : Tx) (id : Nat) : Prop
  | resolved {env : Env} {arbiter : Address} {job : Job}
      (calls : escrow.Calls x env (.resolveDispute arbiter id false))
      (before : (jobs x.pre).lookup id = some job) (disputed : job.status = .Disputed)
      (arbiter_eq : job.arbiter = some arbiter)
  | expired {env : Env} {requester : Address} {job : Job} {dispute_deadline : Nat}
      (calls : escrow.Calls x env (.refund requester id))
      (before : (jobs x.pre).lookup id = some job) (disputed : job.status = .Disputed)
      (deadline : job.dispute_deadline_ledger = some dispute_deadline)
      (passed : dispute_deadline < x.pre.sequence)

/-- The requester asks for the refund of a job that is pending release, at or after its
deadline. Whether the call returns is not part of this. -/
def Tx.ClaimsLate (x : Tx) (id : Nat) : Prop :=
  ∃ env requester job, x.act = .invoke env (.refund requester id) ∧
    env.authorized requester = true ∧ (jobs x.pre).lookup id = some job ∧
    job.requester = requester ∧ job.status = .PendingRelease ∧
    job.deadline_ledger ≤ x.pre.sequence

/-- If the job ends `Refunded`, a dispute has led there; and nothing has clawed it back. -/
def SettledFairly (tr : List Tx) (w : State) (id : Nat) : Prop :=
  (∀ job, (jobs w).lookup id = some job → job.status = .Refunded →
      ∃ x ∈ tr, x.RefundsFairly id) ∧
    ∀ x ∈ tr, ¬ x.ClawsBack id

/-- The worker has submitted a result: the job is neither `Open` nor `InProgress`. -/
def Job.Delivered (job : Job) : Prop := job.status ≠ .Open ∧ job.status ≠ .InProgress

section

variable {env : Env} {w w' : State} {id : Nat} {job : Job}

/-! ## What each entry point stores -/

theorem acceptJob_stores {worker : Address} (h : acceptJob env w.quiet worker id = .ok w') :
    ∃ job, (jobs w).lookup id = some job ∧ job.status = .Open ∧
      jobs w' = (jobs w).insert id { job with worker := some worker, status := .InProgress } := by
  simp only [acceptJob, Result.bind_eq_ok, loadJob_eq_ok, panicIf_eq_ok, Result.pure_eq_ok,
    not_not] at h
  obtain ⟨_, _, job, hjob, _, hopen, _, _, rfl⟩ := h
  exact ⟨job, hjob, hopen, rfl⟩

theorem submitResult_stores {worker : Address} {result : Bytes}
    (h : submitResult env w.quiet worker id result = .ok w') :
    ∃ job, (jobs w).lookup id = some job ∧ job.status = .InProgress ∧
      jobs w' = (jobs w).insert id
        { job with result := some result, status := .PendingRelease } := by
  simp only [submitResult, Result.bind_eq_ok, loadJob_eq_ok, panicIf_eq_ok, Result.pure_eq_ok,
    not_not] at h
  obtain ⟨_, _, job, hjob, _, hstatus, _, _, _, _, rfl⟩ := h
  exact ⟨job, hjob, hstatus, rfl⟩

theorem release_stores {releaser : Address} (h : release env w.quiet releaser id = .ok w') :
    ∃ job, (jobs w).lookup id = some job ∧
      jobs w' = (jobs w).insert id { job with status := .Completed } := by
  simp only [release, Result.bind_eq_ok, loadJob_eq_ok, panicIf_eq_ok, World.transfer_eq_ok,
    Result.pure_eq_ok] at h
  obtain ⟨_, _, _, _, job, hjob, _, _, _, _, _, _, _, ⟨_, _, rfl⟩, rfl⟩ := h
  exact ⟨job, hjob, rfl⟩

theorem refund_stores {requester : Address} (h : refund env w.quiet requester id = .ok w') :
    ∃ job, (jobs w).lookup id = some job ∧ env.authorized requester = true ∧
      job.requester = requester ∧ job.Live ∧ requireDeadline w job = .ok () ∧
      jobs w' = (jobs w).insert id { job with status := .Refunded } := by
  simp only [refund, Result.bind_eq_ok, requireAuth_eq_ok, loadJob_eq_ok, panicIf_eq_ok,
    World.transfer_eq_ok, Result.pure_eq_ok, not_not] at h
  obtain ⟨_, hauth, job, hjob, _, hrequester, _, hlive, _, hdeadline, _, ⟨_, _, rfl⟩, rfl⟩ := h
  exact ⟨job, hjob, hauth, hrequester, refundable_live hlive, hdeadline, rfl⟩

theorem dispute_stores {requester : Address} (h : dispute env w.quiet requester id = .ok w') :
    ∃ job deadline, (jobs w).lookup id = some job ∧ jobs w' = (jobs w).insert id
      { job with status := .Disputed, dispute_deadline_ledger := deadline } := by
  simp only [dispute, Result.bind_eq_ok, loadJob_eq_ok, panicIf_eq_ok, checkU32_eq_ok,
    Result.pure_eq_ok] at h
  obtain ⟨_, _, job, hjob, _, _, _, _, _, _, _, _, rfl⟩ := h
  exact ⟨job, _, hjob, rfl⟩

theorem resolveDispute_stores {arbiter : Address} {favor_worker : Bool}
    (h : resolveDispute env w.quiet arbiter id favor_worker = .ok w') :
    ∃ job, (jobs w).lookup id = some job ∧ job.status = .Disputed ∧
      job.arbiter = some arbiter ∧ jobs w' = (jobs w).insert id
        { job with status := if favor_worker then .Completed else .Refunded } := by
  simp only [resolveDispute, Result.bind_eq_ok, loadJob_eq_ok, panicIf_eq_ok, expect_eq_ok,
    Result.pure_eq_ok, not_not, Prod.exists] at h
  obtain ⟨_, _, _, _, job, hjob, _, hstatus, job_arbiter, harbiter, _, rfl, job', w1, hpay, rfl⟩ := h
  refine ⟨job, hjob, hstatus, harbiter, ?_⟩
  cases favor_worker with
  | true =>
      simp only [if_true, Result.bind_eq_ok, expect_eq_ok, World.transfer_eq_ok,
        Result.pure_eq_ok, Prod.mk.injEq] at hpay
      obtain ⟨worker, _, _, ⟨_, _, rfl⟩, rfl, rfl⟩ := hpay
      rfl
  | false =>
      simp only [Bool.false_eq_true, if_false, Result.bind_eq_ok, World.transfer_eq_ok,
        Result.pure_eq_ok, Prod.mk.injEq] at hpay
      obtain ⟨_, ⟨_, _, rfl⟩, rfl, rfl⟩ := hpay
      rfl

theorem createJob_stores {requester token : Address} {amount : Int} {task_description : Bytes}
    {deadline_ledger : Nat} {arbiter : Option Address}
    (h : createJob env w.quiet requester token amount task_description deadline_ledger arbiter
      = .ok (id, w')) :
    id = w.storage.count.getD 0 + 1 ∧ ∃ job, jobs w' = (jobs w).insert id job := by
  simp only [createJob, nextId, Result.bind_eq_ok, panicIf_eq_ok, World.transfer_eq_ok,
    checkU64_eq_ok, Result.pure_eq_ok, Prod.exists, Prod.mk.injEq] at h
  obtain ⟨_, _, _, _, _, _, w1, ⟨_, _, rfl⟩, _, w2, ⟨n, ⟨_, hn⟩, rfl, rfl⟩, rfl, rfl⟩ := h
  exact ⟨hn.symm, _, rfl⟩

end

/-! ## What a step does to a job -/

/-- A stored job stays, moves on without being refunded, is refunded to its requester, or is
decided for the requester by its arbiter. -/
inductive Progress (x : Tx) (id : Nat) (job : Job) : Prop
  | kept (record : (jobs x.post).lookup id = some job)
  | advanced {job' : Job} (record : (jobs x.post).lookup id = some job')
      (not_refunded : job'.status ≠ .Refunded) (delivered : job.Delivered → job'.Delivered)
  | refunded {env : Env} {requester : Address}
      (calls : escrow.Calls x env (.refund requester id))
      (auth : env.authorized requester = true) (requester_eq : job.requester = requester)
      (live : job.Live) (deadline : requireDeadline x.pre job = .ok ())
      (record : (jobs x.post).lookup id = some { job with status := .Refunded })
  | resolved {env : Env} {arbiter : Address}
      (calls : escrow.Calls x env (.resolveDispute arbiter id false))
      (disputed : job.status = .Disputed) (arbiter_eq : job.arbiter = some arbiter)
      (record : (jobs x.post).lookup id = some { job with status := .Refunded })

section

variable {P : Platform} {d : Deployment} {w0 w w' : State} {a : Action Call} {env : Env}
  {tr : List Tx} {id : Nat} {job : Job}

/-- A call about another job leaves this one alone; a call about this one has read it. -/
theorem Progress.of_insert {id' : Nat} {job0 job' : Job} (hjob : (jobs w).lookup id = some job)
    (hjob0 : (jobs w).lookup id' = some job0) (hjobs : jobs w' = (jobs w).insert id' job')
    (hself : id' = id → job0 = job → (jobs w').lookup id = some job' →
      Progress ⟨w, a, w'⟩ id job) : Progress ⟨w, a, w'⟩ id job := by
  by_cases hid : id' = id
  · subst hid
    have hsame : job0 = job := Option.some.inj (hjob0.symm.trans hjob)
    exact hself rfl hsame (by rw [hjobs, Finmap.lookup_insert])
  · refine .kept ?_
    show (jobs w').lookup id = some job
    rw [hjobs, Finmap.lookup_insert_of_ne _ (Ne.symm hid)]
    exact hjob

theorem exec_progress {call : Call} (h : Inv d w) (hjob : (jobs w).lookup id = some job)
    (hcalls : escrow.Calls ⟨w, a, w'⟩ env call) : Progress ⟨w, a, w'⟩ id job := by
  have hexec : exec env w.quiet call = .ok w' := hcalls.2
  have hkept : jobs w' = jobs w → Progress ⟨w, a, w'⟩ id job := by
    intro hjobs
    refine .kept ?_
    show (jobs w').lookup id = some job
    rw [hjobs]
    exact hjob
  cases call with
  | createJob requester token amount task_description deadline_ledger arbiter =>
      simp only [exec, Result.map_eq_ok] at hexec
      obtain ⟨⟨id', w1⟩, hcreate, rfl⟩ := hexec
      obtain ⟨hnext, job', hjobs⟩ := createJob_stores hcreate
      refine .kept ?_
      show (jobs w1).lookup id = some job
      -- the new id is free, and `id` is not
      have hne : id ≠ id' := by
        rintro rfl
        cases (h.fresh hnext).symm.trans hjob
      rw [hjobs, Finmap.lookup_insert_of_ne _ hne]
      exact hjob
  | acceptJob worker job_id =>
      obtain ⟨job0, hjob0, hopen, hjobs⟩ := acceptJob_stores hexec
      refine .of_insert hjob hjob0 hjobs (fun _ hsame hrecord => .advanced hrecord ?_ ?_)
      · intro hrefunded
        cases hrefunded
      · intro hdelivered
        rw [← hsame] at hdelivered
        exact absurd hopen hdelivered.1
  | submitResult worker job_id result =>
      obtain ⟨job0, hjob0, hstatus, hjobs⟩ := submitResult_stores hexec
      refine .of_insert hjob hjob0 hjobs (fun _ hsame hrecord => .advanced hrecord ?_ ?_)
      · intro hrefunded
        cases hrefunded
      · intro hdelivered
        rw [← hsame] at hdelivered
        exact absurd hstatus hdelivered.2
  | release releaser job_id =>
      obtain ⟨job0, hjob0, hjobs⟩ := release_stores hexec
      exact .of_insert hjob hjob0 hjobs
        (fun _ _ hrecord => .advanced hrecord (by simp) (fun _ => by simp [Job.Delivered]))
  | refund requester job_id =>
      obtain ⟨job0, hjob0, hauth, hrequester, hlive, hdeadline, hjobs⟩ := refund_stores hexec
      refine .of_insert hjob hjob0 hjobs (fun hid hsame hrecord => ?_)
      subst hid hsame
      exact .refunded hcalls hauth hrequester hlive hdeadline hrecord
  | dispute requester job_id =>
      obtain ⟨job0, deadline, hjob0, hjobs⟩ := dispute_stores hexec
      exact .of_insert hjob hjob0 hjobs
        (fun _ _ hrecord => .advanced hrecord (by simp) (fun _ => by simp [Job.Delivered]))
  | resolveDispute arbiter job_id favor_worker =>
      obtain ⟨job0, hjob0, hstatus, harbiter, hjobs⟩ := resolveDispute_stores hexec
      refine .of_insert hjob hjob0 hjobs (fun hid hsame hrecord => ?_)
      subst hid hsame
      cases favor_worker with
      | true => exact .advanced hrecord (by simp) (fun _ => by simp [Job.Delivered])
      | false => exact .resolved hcalls hstatus harbiter hrecord
  | setMultisigConfig caller owners threshold window =>
      simp only [exec, setMultisigConfig, Result.bind_eq_ok, Result.pure_eq_ok] at hexec
      obtain ⟨_, _, _, _, _, _, _, _, m, hgate, rfl⟩ := hexec
      exact hkept (configGate_ok hgate).jobs_eq
  | proposeCircuitBreaker owner circuit_breaker =>
      simp only [exec, proposeCircuitBreaker, Result.bind_eq_ok, Result.pure_eq_ok] at hexec
      obtain ⟨_, _, _, _, rfl⟩ := hexec
      exact hkept rfl
  | setCircuitBreaker admin circuit_breaker =>
      simp only [exec, setCircuitBreaker, Result.bind_eq_ok, Result.pure_eq_ok] at hexec
      obtain ⟨_, _, m, hgate, rfl⟩ := hexec
      exact hkept (breakerGate_ok hgate).jobs_eq

theorem step_progress (h : Inv d w) (hst : Step P d w a w')
    (hjob : (jobs w).lookup id = some job) : Progress ⟨w, a, w'⟩ id job := by
  rcases Contract.step_cases hst with ⟨hstorage, _⟩ | ⟨env, call, hact, _, _, hexec⟩
  · refine .kept ?_
    show (jobs w').lookup id = some job
    rw [jobs_congr hstorage]
    exact hjob
  · exact exec_progress h hjob ⟨hact, hexec⟩

/-! ## From the delivery on -/

/-- A refund that was let through waited for the deadline that its status has. -/
theorem requireDeadline_passed (h : requireDeadline w job = .ok ()) :
    (∃ deadline, job.status = .Disputed ∧ job.dispute_deadline_ledger = some deadline ∧
        deadline < w.sequence) ∨
      (job.status ≠ .Disputed ∧ (job.status ≠ .Open → job.deadline_ledger ≤ w.sequence)) := by
  unfold requireDeadline at h
  by_cases hdisputed : job.status = .Disputed
  · rw [if_pos hdisputed] at h
    simp only [Result.bind_eq_ok, expect_eq_ok, panicIf_eq_ok, not_le] at h
    obtain ⟨deadline, hdeadline, hpassed⟩ := h
    exact .inl ⟨deadline, hdisputed, hdeadline, hpassed⟩
  · rw [if_neg hdisputed, panicIf_eq_ok] at h
    refine .inr ⟨hdisputed, fun hopen => ?_⟩
    by_contra hearly
    exact h ⟨not_le.mp hearly, hopen⟩

/-- A delivered job stays delivered, and what makes it `Refunded` is a settled dispute or a
clawback. -/
def KeptSafe (tr : List Tx) (w : State) (id : Nat) : Prop :=
  ∃ job, (jobs w).lookup id = some job ∧ job.Delivered ∧
    (job.status = .Refunded → ∃ x ∈ tr, x.RefundsFairly id ∨ x.ClawsBack id)

theorem Tx.Delivers.keptSafe {x : Tx} (h : x.Delivers id) : KeptSafe [] x.post id := by
  obtain ⟨env, worker, result, job, hcalls, hjob, _⟩ := h
  obtain ⟨job0, _, _, hjobs⟩ := submitResult_stores (w := x.pre) hcalls.2
  refine ⟨_, by rw [hjobs, Finmap.lookup_insert], by simp [Job.Delivered], ?_⟩
  intro hrefunded
  cases hrefunded

/-- **One step** keeps a delivered job safe. -/
theorem KeptSafe.step (hinv : Inv d w) (h : KeptSafe tr w id) (hst : Step P d w a w') :
    KeptSafe (tr ++ [⟨w, a, w'⟩]) w' id := by
  obtain ⟨job, hjob, hdelivered, hrefunded⟩ := h
  have hlast : Tx.RefundsFairly ⟨w, a, w'⟩ id ∨ Tx.ClawsBack ⟨w, a, w'⟩ id →
      ∃ x ∈ tr ++ [⟨w, a, w'⟩], x.RefundsFairly id ∨ x.ClawsBack id :=
    fun hx => ⟨_, List.mem_append_right tr List.mem_cons_self, hx⟩
  cases step_progress hinv hst hjob with
  | kept record =>
      refine ⟨job, record, hdelivered, fun hstatus => ?_⟩
      obtain ⟨x, hx, hends⟩ := hrefunded hstatus
      exact ⟨x, List.mem_append_left _ hx, hends⟩
  | advanced record not_refunded delivered =>
      exact ⟨_, record, delivered hdelivered, fun hstatus => absurd hstatus not_refunded⟩
  | resolved calls disputed arbiter_eq record =>
      exact ⟨_, record, by simp [Job.Delivered],
        fun _ => hlast (.inl (.resolved calls hjob disputed arbiter_eq))⟩
  | @refunded env requester calls auth requester_eq live deadline record =>
      refine ⟨_, record, by simp [Job.Delivered], fun _ => hlast ?_⟩
      rcases requireDeadline_passed deadline with
        ⟨dispute_deadline, hdisputed, hdeadline, hpassed⟩ | ⟨hdisputed, _⟩
      · exact .inl (.expired calls hjob hdisputed hdeadline hpassed)
      · -- of the live statuses only `PendingRelease` is delivered and not disputed
        have hpending : job.status = .PendingRelease := by
          rcases live with h | h | h | h
          · exact absurd h hdelivered.1
          · exact absurd h hdelivered.2
          · exact h
          · exact absurd h hdisputed
        exact .inr ⟨env, requester, job, calls, hjob, hpending⟩

theorem KeptSafe.run (h0 : Genesis w0) {before after : List Tx} {m : State}
    (hbefore : Runs P d w0 before m) (h : KeptSafe [] m id) (hafter : Runs P d m after w) :
    KeptSafe after w id := by
  refine hafter.history (P := fun tr m' => KeptSafe tr m' id) h ?_
  intro tr m' a m'' hrun hsafe hst
  exact hsafe.step (Inv.run h0 (hbefore.append hrun)) hst

/-! ## The deadline of a job that is pending release -/

/-- The contract holds what a live job is about. -/
theorem Inv.covers (h : Inv d w) (hjob : (jobs w).lookup id = some job) (hlive : job.Live) :
    job.amount ≤ w.balance job.token d.address := by
  have hnonneg : ∀ id' job', (jobs w).lookup id' = some job' → 0 ≤ lockedBy job.token id' job' := by
    intro id' job' hjob'
    have hpositive := (h.job_inv id' job' hjob').positive
    unfold lockedBy
    split <;> omega
  calc job.amount = lockedBy job.token id job := by rw [lockedBy_live hlive, if_pos rfl]
    _ ≤ locked w job.token := Map.le_total _ hnonneg hjob
    _ ≤ w.balance job.token d.address := h.solvent job.token

/-- **A late claim is paid**: nothing refuses the requester's refund of a job that is pending
release once its deadline has passed. -/
theorem Tx.ClaimsLate.clawsBack {x : Tx} (hinv : Inv d x.pre) (hst : Step P d x.pre x.act x.post)
    (h : x.ClaimsLate id) : x.ClawsBack id := by
  obtain ⟨env, requester, job, hact, hauth, hjob, hrequester, hpending, hlate⟩ := h
  obtain ⟨hallowed, hpost⟩ := hst
  rw [hact] at hallowed hpost
  have hself : env.self = d.address := congrArg Deployment.address hallowed.2.1
  have hlive : job.Live := .inr (.inr (.inl hpending))
  have hdeadline : requireDeadline x.pre.quiet job = .ok () := by
    unfold requireDeadline
    rw [if_neg (by rw [hpending]; simp), panicIf_eq_ok]
    rintro ⟨hearly, _⟩
    exact absurd hlate (not_le.mpr hearly)
  have hreturns : ∃ w', refund env x.pre.quiet requester id = .ok w' := by
    simp only [refund, Result.bind_eq_ok, requireAuth_eq_ok, loadJob_eq_ok, panicIf_eq_ok,
      World.transfer_eq_ok, Result.pure_eq_ok, not_not]
    refine ⟨_, (), hauth, job, hjob, (), hrequester, (), ?_, (), hdeadline, _,
      ⟨(hinv.job_inv id job hjob).positive.le, ?_, rfl⟩, rfl⟩
    · simp [refundable, hpending]
    · rw [hself]
      exact hinv.covers hjob hlive
  obtain ⟨w', hexec⟩ := hreturns
  have hnext : x.post = w' := by
    rw [hpost]
    exact escrow.next_ok hexec
  refine ⟨env, requester, job, ⟨hact, ?_⟩, hjob, hpending⟩
  rw [hnext]
  exact hexec

theorem Tx.ClawsBack.claimsLate {x : Tx} (h : x.ClawsBack id) : x.ClaimsLate id := by
  obtain ⟨env, requester, job, hcalls, hjob, hpending⟩ := h
  obtain ⟨job0, hjob0, hauth, hrequester, _, hdeadline, _⟩ := refund_stores (w := x.pre) hcalls.2
  obtain rfl := Option.some.inj (hjob.symm.trans hjob0)
  refine ⟨env, requester, job, hcalls.1, hauth, hjob, hrequester, hpending, ?_⟩
  rcases requireDeadline_passed hdeadline with ⟨_, hdisputed, _⟩ | ⟨_, hpassed⟩
  · cases hpending.symm.trans hdisputed
  · exact hpassed (by rw [hpending]; simp)

/-- **Delivered work is safe until the deadline.** In every run the jobs that were delivered in
time end `Refunded` only by a settled dispute, and none of them is clawed back, if and only if no
requester claims such a job while it is pending release and its deadline has passed. -/
theorem delivery_protected (h0 : Genesis w0) (h : Runs P d w0 tr w) :
    (∀ id, (∃ x ∈ tr, x.Delivers id) → SettledFairly tr w id) ↔
      ∀ id, (∃ x ∈ tr, x.Delivers id) → ∀ x ∈ tr, ¬ x.ClaimsLate id := by
  constructor
  · intro hfair id hdelivered x hx hlate
    obtain ⟨before, after, rfl, hbefore, hst, _⟩ := Run.of_mem h hx
    exact (hfair id hdelivered).2 x hx (hlate.clawsBack (Inv.run h0 hbefore) hst)
  · intro hearly id hdelivered
    have hnone : ∀ x ∈ tr, ¬ x.ClawsBack id :=
      fun x hx hclaws => hearly id hdelivered x hx hclaws.claimsLate
    refine ⟨fun job hjob hrefunded => ?_, hnone⟩
    obtain ⟨x, hx, hdelivers⟩ := hdelivered
    obtain ⟨before, after, rfl, hbefore, hst, hafter⟩ := Run.of_mem h hx
    have hsafe : KeptSafe after w id :=
      KeptSafe.run h0 (hbefore.append (Run.single hst)) hdelivers.keptSafe hafter
    obtain ⟨job', hjob', _, hends⟩ := hsafe
    obtain rfl := Option.some.inj (hjob.symm.trans hjob')
    obtain ⟨y, hy, hfair | hclaws⟩ := hends hrefunded
    · exact ⟨y, List.mem_append_right before (List.mem_cons_of_mem x hy), hfair⟩
    · exact absurd hclaws
        (hnone y (List.mem_append_right before (List.mem_cons_of_mem x hy)))

end

/-! ## A delivered job on the local network -/

section

open LocalNet

/-- Account 2 delivers job `id`, in a script that goes on with `script`. -/
theorem delivers_of_line {before script : List Line} {id : Nat}
    (hreturns : (exec (callBy [account 2] false) (escrow.outcome deployment before).quiet
      (.submitResult (account 2) id [])).isOk = true)
    (hearly : ((jobs (escrow.outcome deployment before)).lookup id).any (fun job =>
      (escrow.outcome deployment before).sequence < job.deadline_ledger) = true) :
    ∃ x ∈ escrow.history deployment
      (before ++ signed [account 2] (.submitResult (account 2) id []) :: script),
      Tx.Delivers x id := by
  obtain ⟨job, hjob, hdeadline⟩ := (Option.any_eq_true _ _).mp hearly
  refine ⟨escrow.txAfter deployment before
    (signed [account 2] (.submitResult (account 2) id [])), ?_, callBy [account 2] false,
    account 2, [], job, Contract.txAfter_calls hreturns, hjob, of_decide_eq_true hdeadline⟩
  rw [Contract.history_split]
  exact List.mem_append_right _ List.mem_cons_self

def refundedId : Action Call → Option Nat
  | .invoke _ (.refund _ id) => some id
  | _ => none

/-- Both jobs are delivered at ledger 100, before their deadline; the second one is refunded, by
the decision of the arbiter. -/
theorem delivery_protected_decided :
    SettledFairly (escrow.history deployment twoJobs) (escrow.outcome deployment twoJobs) 2 := by
  have hscript : twoJobs = ([offers 30, offers 50] ++ does 1 ++
      [signed [account 2] (.acceptJob (account 2) 2)]) ++
      signed [account 2] (.submitResult (account 2) 2 []) :: twoJobs.drop 6 := rfl
  refine (delivery_protected deployment_genesis
    (Contract.script_runs twoJobs (by decide +kernel))).mpr ?_ 2 ?_
  · -- nobody calls `refund`
    have hnone : ∀ x ∈ escrow.history deployment twoJobs, refundedId x.act = none := by
      decide +kernel
    rintro id _ x hx ⟨env, requester, job, hact, _⟩
    have hcalled := hnone x hx
    rw [hact] at hcalled
    cases hcalled
  · rw [hscript]
    exact delivers_of_line (by decide +kernel) (by decide +kernel)

/-- Account 2 has delivered, and account 1 waits for the deadline. -/
def deliveredAndLate : List Line := [offers 30] ++ does 1 ++ [.wait 100]

def claims : Line := signed [account 1] (.refund (account 1) 1)

/-- Job 1, due at ledger 200, is delivered at ledger 100. At ledger 200 the requester takes the
payment back. -/
theorem delivered_job_clawed_back :
    ¬ ∀ (P : Platform) (d : Deployment) (w0 w : State) (tr : List Tx), Genesis w0 →
      Runs P d w0 tr w → ∀ id, (∃ x ∈ tr, x.Delivers id) → SettledFairly tr w id := by
  intro h
  have hscript : deliveredAndLate ++ [claims] =
      [offers 30, signed [account 2] (.acceptJob (account 2) 1)] ++
        signed [account 2] (.submitResult (account 2) 1 []) :: [.wait 100, claims] := rfl
  have hdelivered : ∃ x ∈ escrow.history deployment (deliveredAndLate ++ [claims]),
      Tx.Delivers x 1 := by
    rw [hscript]
    exact delivers_of_line (by decide +kernel) (by decide +kernel)
  have hfair := h platform deployed deployment _ _ deployment_genesis
    (Contract.script_runs (deliveredAndLate ++ [claims]) (by decide +kernel)) 1 hdelivered
  have hpending : ((jobs (escrow.outcome deployment deliveredAndLate)).lookup 1).any
      (fun job => job.status = .PendingRelease) = true := by decide +kernel
  obtain ⟨job, hjob, hstatus⟩ := (Option.any_eq_true _ _).mp hpending
  refine hfair.2 (escrow.txAfter deployment deliveredAndLate claims) ?_
    ⟨callBy [account 1] false, account 1, job,
      Contract.txAfter_calls (by decide +kernel), hjob,
      of_decide_eq_true hstatus⟩
  rw [Contract.history_split]
  exact List.mem_append_right _ List.mem_cons_self

end

end StellarAgent.Escrow
