import StellarAgent.Escrow.Effects

set_option autoImplicit false

/-! # The money of the jobs

In every reachable state the contract holds at least what its live jobs have locked. A job leaves
the live states in one way, together with one transfer of its amount, to its worker or to its
requester; after that its record never changes, so it is paid exactly once.
-/

namespace StellarAgent.Escrow

open Lib Soroban

/-! ## What is locked -/

/-- What a job has locked of a token. -/
def lockedBy (token : Address) (_ : Nat) (job : Job) : Int :=
  if job.token = token ∧ job.Live then job.amount else 0

/-- The sum of the amounts of the live jobs in `token`. -/
def locked (w : State) (token : Address) : Int := Map.total (lockedBy token) (jobs w)

/-- What holds of every job, when `count` ids have been handed out: it is about a positive amount,
and the contract is neither its requester nor its worker. -/
structure JobInv (d : Deployment) (count id : Nat) (job : Job) : Prop where
  numbered : id ≤ count
  positive : 0 < job.amount
  requester_ne : job.requester ≠ d.address
  worker_ne : job.worker ≠ some d.address

theorem JobInv.mono {d : Deployment} {count count' id : Nat} {job : Job}
    (h : JobInv d count id job) (hle : count ≤ count') : JobInv d count' id job :=
  { h with numbered := h.numbered.trans hle }

/-- What holds of every reachable state. -/
structure Inv (d : Deployment) (w : State) : Prop where
  job_inv : ∀ id job, (jobs w).lookup id = some job → JobInv d (w.storage.count.getD 0) id job
  solvent : ∀ token, locked w token ≤ w.balance token d.address

/-- The transaction pays the job: its record goes from live to `Completed` or `Refunded`, and the
only transfer out of the contract takes its amount to the worker or to the requester. -/
structure Tx.Pays (d : Deployment) (x : Tx) (id : Nat) (job : Job) (dest : Address) : Prop where
  live : ∃ job', (jobs x.pre).lookup id = some job' ∧ job'.Live ∧
    job = { job' with status := job.status }
  settled : (jobs x.post).lookup id = some job
  paid_to : PaidTo job job.status dest
  paid : outgoing d.address x.post = [(job.token, dest, job.amount)]
  positive : 0 < job.amount
  dest_ne : dest ≠ d.address

theorem PaidTo.not_live {job : Job} {dest : Address} (h : PaidTo job job.status dest) :
    ¬ job.Live := by
  rw [Job.live_iff]
  rintro ⟨hcompleted, hrefunded⟩
  rcases h with ⟨h, _⟩ | ⟨h, _⟩
  · exact hcompleted h
  · exact hrefunded h

section

variable {P : Platform} {d : Deployment} {w0 w w' : State} {a : Action Call} {x : Tx}
  {tr : List Tx} {id : Nat} {job : Job}

/-! ## Steps -/

theorem step_effect (h : Step P d w a w') :
    (w'.storage = w.storage ∧ outgoing d.address w' = [] ∧
        ∀ token, w.balance token d.address ≤ w'.balance token d.address) ∨
      ∃ env, env.self = d.address ∧ Effect env w w' := by
  rcases Contract.step_cases h with
    ⟨hstorage, _, hevents, hbalance, _⟩ | ⟨env, call, _, hd, _, hexec⟩
  · refine .inl ⟨hstorage, ?_, hbalance⟩
    unfold outgoing
    rw [hevents]
    rfl
  · exact .inr ⟨env, congrArg Deployment.address hd, (exec_effect hexec).2⟩

theorem jobs_congr (h : w'.storage = w.storage) : jobs w' = jobs w := by
  unfold jobs
  rw [h]

/-- The next id is free. -/
theorem Inv.fresh (h : Inv d w) (hid : id = w.storage.count.getD 0 + 1) :
    (jobs w).lookup id = none := by
  cases hjob : (jobs w).lookup id with
  | none => rfl
  | some job =>
      have hle := (h.job_inv id job hjob).numbered
      omega

theorem move_out {L : TokenLedger} {token self dest : Address} {amount : Int}
    (hne : dest ≠ self) (t : Address) :
    L.move token self dest amount t self = L t self - if t = token then amount else 0 := by
  unfold TokenLedger.move
  by_cases ht : t = token
  · rw [if_pos ht, if_pos rfl, if_neg (Ne.symm hne), if_pos ht, add_zero]
  · rw [if_neg ht, if_neg ht, sub_zero]

theorem move_in {L : TokenLedger} {token self source : Address} {amount : Int}
    (hne : source ≠ self) (t : Address) :
    L.move token source self amount t self = L t self + if t = token then amount else 0 := by
  unfold TokenLedger.move
  by_cases ht : t = token
  · rw [if_pos ht, if_neg (Ne.symm hne), if_pos rfl, if_pos ht, sub_zero]
  · rw [if_neg ht, if_neg ht, add_zero]

theorem lockedBy_live {token : Address} (h : job.Live) :
    lockedBy token id job = if token = job.token then job.amount else 0 := by
  unfold lockedBy
  by_cases ht : token = job.token
  · rw [if_pos ⟨ht.symm, h⟩, if_pos ht]
  · rw [if_neg (fun hand => ht hand.1.symm), if_neg ht]

theorem lockedBy_settled {token : Address} (h : ¬ job.Live) : lockedBy token id job = 0 := by
  unfold lockedBy
  rw [if_neg (fun hand => h hand.2)]

/-- A new job locks what it brings. -/
theorem locked_created {token : Address} (hjobs : jobs w' = (jobs w).insert id job)
    (hfresh : (jobs w).lookup id = none) (hlive : job.Live) :
    locked w' token = locked w token + if token = job.token then job.amount else 0 := by
  unfold locked
  rw [hjobs, Map.total_insert, Map.valueAt_none hfresh, lockedBy_live hlive]
  omega

/-- A job that moves on keeps its amount locked. -/
theorem locked_advanced {job' : Job} {token : Address} (hjobs : jobs w' = (jobs w).insert id job')
    (hbefore : (jobs w).lookup id = some job) (hlive : job.Live) (hlive' : job'.Live)
    (htoken : job'.token = job.token) (hamount : job'.amount = job.amount) :
    locked w' token = locked w token := by
  unfold locked
  rw [hjobs, Map.total_insert, Map.valueAt_some hbefore, lockedBy_live hlive,
    lockedBy_live hlive', htoken, hamount]
  omega

/-- A job that is settled unlocks its amount. -/
theorem locked_settled {job' : Job} {token : Address} (hjobs : jobs w' = (jobs w).insert id job')
    (hbefore : (jobs w).lookup id = some job) (hlive : job.Live) (hsettled : ¬ job'.Live) :
    locked w' token = locked w token - if token = job.token then job.amount else 0 := by
  unfold locked
  rw [hjobs, Map.total_insert, Map.valueAt_some hbefore, lockedBy_live hlive,
    lockedBy_settled hsettled]
  omega

/-- The one who is paid is not the contract. -/
theorem Inv.dest_ne {status : JobStatus} {dest : Address} (h : Inv d w)
    (hjob : (jobs w).lookup id = some job) (hpaid : PaidTo job status dest) :
    dest ≠ d.address := by
  rintro rfl
  rcases hpaid with ⟨_, hworker⟩ | ⟨_, hrequester⟩
  · exact (h.job_inv id job hjob).worker_ne hworker
  · exact (h.job_inv id job hjob).requester_ne hrequester.symm

theorem PaidTo.settled {status : JobStatus} {dest : Address} (h : PaidTo job status dest) :
    PaidTo { job with status } status dest := h

theorem Inv.step (h : Inv d w) (hst : Step P d w a w') : Inv d w' := by
  rcases step_effect hst with ⟨hstorage, _, hbalance⟩ | ⟨env, hself, heffect⟩
  · have hjobs := jobs_congr hstorage
    refine ⟨?_, fun token => ?_⟩
    · rw [hjobs, hstorage]
      exact h.job_inv
    · calc locked w' token = locked w token := by unfold locked; rw [hjobs]
        _ ≤ w.balance token d.address := h.solvent token
        _ ≤ w'.balance token d.address := hbalance token
  cases heffect with
  | kept jobs_eq count_eq balance_eq _ =>
      refine ⟨?_, fun token => ?_⟩
      · rw [jobs_eq, count_eq]
        exact h.job_inv
      · unfold locked
        rw [jobs_eq, balance_eq]
        exact h.solvent token
  | @created id job next opened positive unassigned auth jobs_eq count_eq balance_eq _ =>
      have hrequester : job.requester ≠ d.address := by
        rw [← hself]
        exact ne_self_of_authorized auth
      have hworker : job.worker ≠ some d.address := by
        rw [unassigned]
        intro hsome
        cases hsome
      refine ⟨?_, fun token => ?_⟩
      · rw [jobs_eq, count_eq, Option.getD_some]
        refine Map.forall_insert (fun id' job' _ hjob' => ?_)
          ⟨le_rfl, positive, hrequester, hworker⟩
        exact (h.job_inv id' job' hjob').mono (by omega)
      · have hsolvent := h.solvent token
        rw [locked_created jobs_eq (h.fresh next) (.inl opened), balance_eq, hself,
          move_in hrequester]
        omega
  | @advanced id job job' before live live' requester_eq token_eq amount_eq worker_eq jobs_eq
      count_eq balance_eq _ =>
      have hjob := h.job_inv id job before
      have hworker : job'.worker ≠ some d.address := by
        rcases worker_eq with hsame | ⟨worker, hworker, hauth⟩
        · rw [hsame]
          exact hjob.worker_ne
        · rw [hworker, ← hself]
          intro hsome
          exact ne_self_of_authorized hauth (Option.some.inj hsome)
      refine ⟨?_, fun token => ?_⟩
      · rw [jobs_eq, count_eq]
        refine Map.forall_insert (fun id' job' _ => h.job_inv id' job')
          ⟨hjob.numbered, ?_, ?_, hworker⟩
        · rw [amount_eq]
          exact hjob.positive
        · rw [requester_eq]
          exact hjob.requester_ne
      · rw [locked_advanced jobs_eq before live live' token_eq amount_eq, balance_eq]
        exact h.solvent token
  | @settled id job status dest before live paid_to jobs_eq count_eq balance_eq _ =>
      have hjob := h.job_inv id job before
      have hdest := h.dest_ne before paid_to
      refine ⟨?_, fun token => ?_⟩
      · rw [jobs_eq, count_eq]
        exact Map.forall_insert (fun id' job' _ => h.job_inv id' job')
          ⟨hjob.numbered, hjob.positive, hjob.requester_ne, hjob.worker_ne⟩
      · have hsolvent := h.solvent token
        rw [locked_settled jobs_eq before live (PaidTo.not_live paid_to.settled), balance_eq,
          hself, move_out hdest]
        omega

theorem Inv.run (h0 : Genesis w0) (h : Runs P d w0 tr w) : Inv d w := by
  have hnone : jobs w0 = ∅ := by
    unfold jobs
    rw [h0.storage]
    rfl
  refine h.invariant (I := Inv d) ⟨?_, fun token => ?_⟩ (fun m a m' hI hst => hI.step hst)
  · rw [hnone]
    intro id job hjob
    cases hjob
  · unfold locked
    rw [hnone]
    exact h0.balance token d.address

/-! ## Payments -/

/-- The job is stored, and no longer live. -/
def Terminal (w : State) (id : Nat) (job : Job) : Prop :=
  (jobs w).lookup id = some job ∧ ¬ job.Live

theorem terminal_insert {id0 : Nat} {job0 : Job} (hjobs : jobs w' = (jobs w).insert id0 job0) :
    Terminal w' id job ↔
      (id = id0 ∧ job = job0 ∧ ¬ job0.Live) ∨ (id ≠ id0 ∧ Terminal w id job) := by
  unfold Terminal
  rw [hjobs, Map.lookup_insert_eq_ite]
  by_cases hid : id = id0
  · rw [if_pos hid]
    constructor
    · rintro ⟨hsome, hterminal⟩
      obtain rfl := Option.some.inj hsome
      exact .inl ⟨hid, rfl, hterminal⟩
    · rintro (⟨_, rfl, hterminal⟩ | ⟨hne, _⟩)
      · exact ⟨rfl, hterminal⟩
      · exact absurd hid hne
  · rw [if_neg hid]
    constructor
    · intro h
      exact .inr ⟨hid, h⟩
    · rintro (⟨heq, _⟩ | ⟨_, h⟩)
      · exact absurd heq hid
      · exact h

/-- A job that is free or live before a step that stores it is not a terminal one. -/
theorem Terminal.ne {id0 : Nat} (h : Terminal w id job)
    (hbefore : ∀ job0, (jobs w).lookup id0 = some job0 → job0.Live) : id ≠ id0 := by
  rintro rfl
  exact h.2 (hbefore job h.1)

/-- **One step** leaves a terminal job as it is, and pays a job that becomes terminal. -/
theorem step_terminal (h : Inv d w) (hst : Step P d w a w') :
    (Terminal w id job → Terminal w' id job) ∧
      (Terminal w' id job → Terminal w id job ∨ ∃ dest, Tx.Pays d ⟨w, a, w'⟩ id job dest) := by
  have hsame : jobs w' = jobs w → (Terminal w id job → Terminal w' id job) ∧
      (Terminal w' id job → Terminal w id job ∨ ∃ dest, Tx.Pays d ⟨w, a, w'⟩ id job dest) := by
    intro hjobs
    unfold Terminal
    rw [hjobs]
    exact ⟨fun h => h, .inl⟩
  rcases step_effect hst with ⟨hstorage, _, _⟩ | ⟨env, hself, heffect⟩
  · exact hsame (jobs_congr hstorage)
  cases heffect with
  | kept jobs_eq _ _ _ => exact hsame jobs_eq
  | @created id0 job0 next opened _ _ _ jobs_eq _ _ _ =>
      rw [terminal_insert jobs_eq]
      refine ⟨fun ht => .inr ⟨ht.ne fun job' hjob' => ?_, ht⟩, ?_⟩
      · cases (h.fresh next).symm.trans hjob'
      · rintro (⟨_, _, hterminal⟩ | ⟨_, ht⟩)
        · exact absurd (.inl opened) hterminal
        · exact .inl ht
  | @advanced id0 job0 job1 before live live' _ _ _ _ jobs_eq _ _ _ =>
      rw [terminal_insert jobs_eq]
      refine ⟨fun ht => .inr ⟨ht.ne fun job' hjob' => ?_, ht⟩, ?_⟩
      · obtain rfl := Option.some.inj (before.symm.trans hjob')
        exact live
      · rintro (⟨_, _, hterminal⟩ | ⟨_, ht⟩)
        · exact absurd live' hterminal
        · exact .inl ht
  | @settled id0 job0 status dest before live paid_to jobs_eq _ _ paid =>
      have hdest := h.dest_ne before paid_to
      have hpositive := (h.job_inv id0 job0 before).positive
      rw [terminal_insert jobs_eq]
      refine ⟨fun ht => .inr ⟨ht.ne fun job' hjob' => ?_, ht⟩, ?_⟩
      · obtain rfl := Option.some.inj (before.symm.trans hjob')
        exact live
      · rintro (⟨rfl, rfl, _⟩ | ⟨_, ht⟩)
        · refine .inr ⟨dest, ⟨job0, before, live, rfl⟩, ?_, paid_to, ?_, hpositive, hdest⟩
          · show (jobs w').lookup id = _
            rw [jobs_eq, Finmap.lookup_insert]
          · show outgoing d.address w' = _
            rw [← hself]
            exact paid
        · exact .inl ht

/-- Whatever leaves the contract in a step is the payment of a job. -/
theorem step_pays (h : Inv d w) (hst : Step P d w a w') :
    outgoing d.address w' = [] ∨ ∃ id job dest, Tx.Pays d ⟨w, a, w'⟩ id job dest := by
  rcases step_effect hst with ⟨_, hnone, _⟩ | ⟨env, hself, heffect⟩
  · exact .inl hnone
  rw [← hself]
  cases heffect with
  | kept _ _ _ unpaid => exact .inl unpaid
  | created _ _ _ _ _ _ _ _ unpaid => exact .inl unpaid
  | advanced _ _ _ _ _ _ _ _ _ _ unpaid => exact .inl unpaid
  | @settled id0 job0 status dest before live paid_to jobs_eq _ _ paid =>
      refine .inr ⟨id0, { job0 with status }, dest, ⟨job0, before, live, rfl⟩, ?_, paid_to, ?_,
        (h.job_inv id0 job0 before).positive, h.dest_ne before paid_to⟩
      · show (jobs w').lookup id0 = _
        rw [jobs_eq, Finmap.lookup_insert]
      · show outgoing d.address w' = _
        rw [← hself]
        exact paid

theorem Tx.Pays.terminal {dest : Address} (h : x.Pays d id job dest) : Terminal x.post id job :=
  ⟨h.settled, h.paid_to.not_live⟩

/-- Exactly one transaction of the history has paid the job, and that one has paid it so. -/
def PaidOnce (d : Deployment) (tr : List Tx) (id : Nat) (job : Job) : Prop :=
  ∃ before x after dest, tr = before ++ x :: after ∧ x.Pays d id job dest ∧
    ∀ y ∈ before ++ after, ∀ job' dest', ¬ y.Pays d id job' dest'

/-- **Every job is paid when it becomes terminal, and only then.** -/
theorem paid_once (h0 : Genesis w0) (h : Runs P d w0 tr w) :
    (∀ job, Terminal w id job → PaidOnce d tr id job) ∧
      ((∀ job, ¬ Terminal w id job) → ∀ x ∈ tr, ∀ job dest, ¬ x.Pays d id job dest) := by
  refine h.history (P := fun (tr : List Tx) m => (∀ job, Terminal m id job → PaidOnce d tr id job) ∧
    ((∀ job, ¬ Terminal m id job) → ∀ x ∈ tr, ∀ job dest, ¬ x.Pays d id job dest)) ?_ ?_
  · refine ⟨fun job hjob => ?_, by simp⟩
    have hnone := hjob.1
    unfold jobs at hnone
    rw [h0.storage] at hnone
    cases hnone
  · rintro tr m a m' hrun ⟨hpaid, hunpaid⟩ hst
    have hinv : Inv d m := Inv.run h0 hrun
    constructor
    · intro job hjob
      rcases (step_terminal hinv hst).2 hjob with hold | ⟨dest, hpays⟩
      · -- paid before; this step finds the job terminal, so it does not pay it
        obtain ⟨before, x, after, dest, rfl, hx, hothers⟩ := hpaid job hold
        refine ⟨before, x, after ++ [⟨m, a, m'⟩], dest, by simp, hx, ?_⟩
        rw [← List.append_assoc, List.forall_mem_append, List.forall_mem_singleton]
        refine ⟨hothers, fun job' dest' hpays => ?_⟩
        obtain ⟨job0, hjob0, hlive, _⟩ := hpays.live
        obtain rfl := Option.some.inj (hjob0.symm.trans hold.1)
        exact hold.2 hlive
      · -- paid by this step; the job was live, so nothing has paid it before
        have hnot : ∀ job', ¬ Terminal m id job' := by
          intro job' hjob'
          obtain ⟨job0, hjob0, hlive, _⟩ := hpays.live
          obtain rfl := Option.some.inj (hjob0.symm.trans hjob'.1)
          exact hjob'.2 hlive
        refine ⟨tr, ⟨m, a, m'⟩, [], dest, rfl, hpays, ?_⟩
        rw [List.append_nil]
        exact hunpaid hnot
    · intro hnot
      have hnot' : ∀ job, ¬ Terminal m id job :=
        fun job hjob => hnot job ((step_terminal hinv hst).1 hjob)
      rw [List.forall_mem_append, List.forall_mem_singleton]
      exact ⟨hunpaid hnot', fun job dest hpays => hnot job hpays.terminal⟩

/-- A terminal job never changes again. -/
theorem terminal_final (h0 : Genesis w0) (h : Runs P d w0 tr w) :
    ∀ x ∈ tr, ∀ id job, Terminal x.pre id job → Terminal w id job := by
  refine h.history (P := fun (tr : List Tx) m =>
    ∀ x ∈ tr, ∀ id job, Terminal x.pre id job → Terminal m id job) (by simp) ?_
  intro tr m a m' hrun hI hst
  have hstep : ∀ id job, Terminal m id job → Terminal m' id job :=
    fun id job => (step_terminal (Inv.run h0 hrun) hst).1
  rw [List.forall_mem_append, List.forall_mem_singleton]
  exact ⟨fun x hx id job hjob => hstep id job (hI x hx id job hjob), hstep⟩

theorem outgoing_paid (h0 : Genesis w0) (h : Runs P d w0 tr w) :
    ∀ x ∈ tr, outgoing d.address x.post = [] ∨ ∃ id job dest, x.Pays d id job dest := by
  refine h.history (P := fun (tr : List Tx) _ =>
    ∀ x ∈ tr, outgoing d.address x.post = [] ∨ ∃ id job dest, x.Pays d id job dest) (by simp) ?_
  intro tr m a m' hrun hI hst
  rw [List.forall_mem_append, List.forall_mem_singleton]
  exact ⟨hI, step_pays (Inv.run h0 hrun) hst⟩

/-- **Escrow conservation.** In every reachable state the balance of the contract covers, for every
token, the amounts of the live jobs. A live job has not been paid. A `Completed` or `Refunded` one
was paid by exactly one transaction, to its recorded worker or to its requester, and is as it was
then; and nothing leaves the contract but such payments. -/
theorem escrow_conservation (h0 : Genesis w0) (h : Runs P d w0 tr w) :
    (∀ token, locked w token ≤ w.balance token d.address) ∧
      (∀ id job, (jobs w).lookup id = some job →
        (job.Live → ∀ x ∈ tr, ∀ job' dest, ¬ x.Pays d id job' dest) ∧
          (¬ job.Live → PaidOnce d tr id job)) ∧
      (∀ x ∈ tr, outgoing d.address x.post = [] ∨ ∃ id job dest, x.Pays d id job dest) ∧
      ∀ x ∈ tr, ∀ id job, (jobs x.pre).lookup id = some job → ¬ job.Live →
        (jobs w).lookup id = some job := by
  refine ⟨(Inv.run h0 h).solvent, fun id job hjob => ⟨fun hlive => ?_, fun hterminal => ?_⟩,
    outgoing_paid h0 h, fun x hx id job hjob hterminal => ?_⟩
  · refine (paid_once h0 h).2 (fun job' hjob' => ?_)
    obtain rfl := Option.some.inj (hjob.symm.trans hjob'.1)
    exact hjob'.2 hlive
  · exact (paid_once h0 h).1 job ⟨hjob, hterminal⟩
  · exact (terminal_final h0 h x hx id job ⟨hjob, hterminal⟩).1

end

/-! ## Two jobs on the local network -/

section

open LocalNet

/-- A fresh escrow on the local network. -/
def deployment : State := start Event Storage.fresh

theorem deployment_genesis : Genesis deployment := by
  refine ⟨rfl, fun token holder => ?_⟩
  show 0 ≤ (if holder = contract then (0 : Int) else 1000)
  split <;> omega

abbrev Line := Move platform deployed Call

/-- Account 1 offers a job for `amount`, until ledger 200, with account 3 as arbiter. -/
def offers (amount : Int) : Line :=
  signed [account 1] (.createJob (account 1) token amount [] 200 (some (account 3)))

/-- Account 2 does job `id`. -/
def does (id : Nat) : List Line := [
  signed [account 2] (.acceptJob (account 2) id),
  signed [account 2] (.submitResult (account 2) id [])]

/-- The first job is released; the second is disputed, and decided for the requester. -/
def twoJobs : List Line :=
  [offers 30, offers 50] ++ does 1 ++ does 2 ++ [
    signed [account 1] (.release (account 1) 1),
    signed [account 1] (.dispute (account 1) 2),
    signed [account 3] (.resolveDispute (account 3) 2 false)]

theorem escrow_conservation_two_jobs :
    (∀ token, locked (escrow.outcome deployment twoJobs) token
        ≤ (escrow.outcome deployment twoJobs).balance token deployed.address) ∧
      (∀ id job, (jobs (escrow.outcome deployment twoJobs)).lookup id = some job →
        (job.Live → ∀ x ∈ escrow.history deployment twoJobs, ∀ job' dest,
          ¬ Tx.Pays deployed x id job' dest) ∧
        (¬ job.Live → PaidOnce deployed (escrow.history deployment twoJobs) id job)) ∧
      (∀ x ∈ escrow.history deployment twoJobs, outgoing deployed.address x.post = [] ∨
        ∃ id job dest, Tx.Pays deployed x id job dest) ∧
      ∀ x ∈ escrow.history deployment twoJobs, ∀ id job, (jobs x.pre).lookup id = some job →
        ¬ job.Live → (jobs (escrow.outcome deployment twoJobs)).lookup id = some job :=
  escrow_conservation deployment_genesis (Contract.script_runs twoJobs (by decide +kernel))

/-- Worker and requester have their money, and the contract has none left. -/
example : (escrow.outcome deployment twoJobs).balance token (account 2) = 1030 ∧
    (escrow.outcome deployment twoJobs).balance token (account 1) = 970 ∧
    (escrow.outcome deployment twoJobs).balance token contract = 0 := by decide +kernel

end

end StellarAgent.Escrow
