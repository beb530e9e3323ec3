import StellarAgent.Soroban.Proposals
import StellarAgent.Soroban.Transactions

set_option autoImplicit false

/-! # The escrow contract

`contracts/escrow/src/lib.rs`: a requester locks the payment for a job, a worker accepts it and
submits a result, and the payment goes to the worker (`release`), back to the requester
(`refund`), or to either of them as an arbiter decides (`resolve_dispute`).

Left out: the read-only queries, and entry lifetimes.
-/

namespace StellarAgent.Escrow

open Lib Soroban

def DISPUTE_TIMEOUT_LEDGERS : Nat := 14400

/-- The default of `get_multisig_propose_window`. -/
def DEFAULT_PROPOSE_WINDOW : Nat := 17280

/-! ## Records and storage -/

inductive JobStatus where
  | Open
  | InProgress
  | PendingRelease
  | Completed
  | Refunded
  | Disputed
  deriving DecidableEq, Repr

structure Job where
  requester : Address
  worker : Option Address
  arbiter : Option Address
  token : Address
  amount : Int
  task_description : Bytes
  result : Option Bytes
  deadline_ledger : Nat
  dispute_deadline_ledger : Option Nat
  status : JobStatus
  created_at : Nat
  deriving DecidableEq

/-- One field for each key; `cb_proposals` are the entries under `("cb", address)`. -/
structure Storage where
  jobs : Option (Map Nat Job)
  count : Option Nat
  cb : Option Address
  cb_admin : Option Address
  ms_own : Option (List Address)
  ms_thresh : Option Nat
  ms_win : Option Nat
  prop_ms : Option (Map Address Nat)
  cb_proposals : Address → Option (Map Address Nat)

/-- The storage of a freshly deployed contract. -/
def Storage.fresh : Storage where
  jobs := none
  count := none
  cb := none
  cb_admin := none
  ms_own := none
  ms_thresh := none
  ms_win := none
  prop_ms := none
  cb_proposals := fun _ => none

inductive Event where
  | created (job_id : Nat) (requester : Address) (amount : Int)
  | stateJob (job_id : Nat) (job : Job)
  | accepted (job_id : Nat) (worker : Address)
  | result (job_id : Nat) (worker : Address)
  | released (job_id : Nat) (worker : Address) (amount : Int)
  | refunded (job_id : Nat) (requester : Address) (amount : Int)
  | disputed (job_id : Nat) (requester : Address)
  | resolved (job_id : Nat) (arbiter : Address) (favor_worker : Bool)
  | ms_cfg (owners : List Address) (threshold : Nat)
  | prop_cb (owner circuit_breaker : Address)

/-- The world an escrow runs in. -/
abbrev State := World Storage Event

/-! ## Reading and writing storage -/

def jobs (w : State) : Map Nat Job := w.storage.jobs.getD ∅

/-- `load_job` -/
def loadJob (w : State) (job_id : Nat) : Result Job :=
  expect ((jobs w).lookup job_id) "job not found"

@[simp] theorem loadJob_eq_ok {w : State} {job_id : Nat} {job : Job} :
    loadJob w job_id = .ok job ↔ (jobs w).lookup job_id = some job := by
  simp [loadJob]

/-- `save_job` -/
def saveJob (w : State) (job_id : Nat) (job : Job) : State :=
  { w with storage := { w.storage with jobs := some ((jobs w).insert job_id job) } }

/-- `next_id` -/
def nextId (w : State) : Result (Nat × State) := do
  let next ← checkU64 (w.storage.count.getD 0 + 1)
  return (next, { w with storage := { w.storage with count := some next } })

/-- Publish `event`, and the job as it is now. -/
def announce (w : State) (job_id : Nat) (job : Job) (event : Event) : State :=
  (w.publish event).publish (.stateJob job_id job)

/-- `require_not_paused` -/
def requireNotPaused (env : Env) (w : State) : Result Unit :=
  match w.storage.cb with
  | some circuit_breaker => do
      let is_paused ← invokeContract env circuit_breaker (env.is_paused circuit_breaker)
      panicIf (is_paused = true) "system paused"
  | none => .ok ()

/-! ## Jobs -/

def createJob (env : Env) (w : State) (requester token : Address) (amount : Int)
    (task_description : Bytes) (deadline_ledger : Nat) (arbiter : Option Address) :
    Result (Nat × State) := do
  requireAuth env requester
  panicIf (amount ≤ 0) "amount must be positive"
  panicIf (deadline_ledger ≤ w.sequence) "deadline must be in the future"
  let w ← w.transfer token requester env.self amount
  let (job_id, w) ← nextId w
  let job : Job := {
    requester, worker := none, arbiter, token, amount, task_description, result := none
    deadline_ledger, dispute_deadline_ledger := none, status := .Open, created_at := w.sequence }
  return (job_id, announce (saveJob w job_id job) job_id job (.created job_id requester amount))

def acceptJob (env : Env) (w : State) (worker : Address) (job_id : Nat) : Result State := do
  requireAuth env worker
  let job ← loadJob w job_id
  panicIf (job.status ≠ .Open) "job is not open"
  panicIf (w.sequence ≥ job.deadline_ledger) "job has expired"
  let job := { job with worker := some worker, status := .InProgress }
  return announce (saveJob w job_id job) job_id job (.accepted job_id worker)

def submitResult (env : Env) (w : State) (worker : Address) (job_id : Nat) (result : Bytes) :
    Result State := do
  requireAuth env worker
  let job ← loadJob w job_id
  panicIf (job.status ≠ .InProgress) "job not in progress"
  let assigned_worker ← expect job.worker "no worker assigned"
  panicIf (assigned_worker ≠ worker) "not the assigned worker"
  let job := { job with result := some result, status := .PendingRelease }
  return announce (saveJob w job_id job) job_id job (.result job_id worker)

def release (env : Env) (w : State) (releaser : Address) (job_id : Nat) : Result State := do
  requireNotPaused env w
  requireAuth env releaser
  let job ← loadJob w job_id
  panicIf (job.status ≠ .PendingRelease) "job not pending release"
  panicIf (job.requester ≠ releaser) "not authorized to release"
  let worker ← expect job.worker "no worker"
  let w ← w.transfer job.token env.self worker job.amount
  let job := { job with status := .Completed }
  return announce (saveJob w job_id job) job_id job (.released job_id worker job.amount)

def refundable (job : Job) : Bool :=
  job.status = .Open ∨ job.status = .InProgress ∨ job.status = .PendingRelease ∨
    job.status = .Disputed

/-- The deadline that a refund has to wait for; an open job has none. -/
def requireDeadline (w : State) (job : Job) : Result Unit :=
  if job.status = .Disputed then do
    let dispute_deadline ← expect job.dispute_deadline_ledger "missing dispute deadline"
    panicIf (w.sequence ≤ dispute_deadline) "dispute deadline not reached yet"
  else panicIf (w.sequence < job.deadline_ledger ∧ job.status ≠ .Open) "deadline not reached yet"

/-- Unlike `release` and `resolve_dispute`, a refund does not ask the circuit breaker. -/
def refund (env : Env) (w : State) (requester : Address) (job_id : Nat) : Result State := do
  requireAuth env requester
  let job ← loadJob w job_id
  panicIf (job.requester ≠ requester) "not the job requester"
  panicIf (refundable job = false) "job cannot be refunded"
  requireDeadline w job
  let w ← w.transfer job.token env.self requester job.amount
  let job := { job with status := .Refunded }
  return announce (saveJob w job_id job) job_id job (.refunded job_id requester job.amount)

def dispute (env : Env) (w : State) (requester : Address) (job_id : Nat) : Result State := do
  requireAuth env requester
  let job ← loadJob w job_id
  panicIf (job.requester ≠ requester) "not requester"
  panicIf (job.arbiter = none) "no arbiter"
  panicIf (job.status ≠ .PendingRelease) "can only dispute pending"
  let dispute_deadline ← checkU32 (w.sequence + DISPUTE_TIMEOUT_LEDGERS)
  let job := { job with
    status := .Disputed, dispute_deadline_ledger := some dispute_deadline }
  return announce (saveJob w job_id job) job_id job (.disputed job_id requester)

def resolveDispute (env : Env) (w : State) (arbiter : Address) (job_id : Nat)
    (favor_worker : Bool) : Result State := do
  requireNotPaused env w
  requireAuth env arbiter
  let job ← loadJob w job_id
  panicIf (job.status ≠ .Disputed) "job not disputed"
  let job_arbiter ← expect job.arbiter "no arbiter set"
  panicIf (job_arbiter ≠ arbiter) "not the arbiter"
  let (job, w) ←
    (if favor_worker then do
      let worker ← expect job.worker "no worker"
      let w ← w.transfer job.token env.self worker job.amount
      return ({ job with status := .Completed }, w)
    else do
      let w ← w.transfer job.token env.self job.requester job.amount
      return ({ job with status := .Refunded }, w) : Result (Job × State))
  return announce (saveJob w job_id job) job_id job (.resolved job_id arbiter favor_worker)

/-! ## The multi-sig admin quorum -/

def getMultisigOwners (w : State) : List Address := w.storage.ms_own.getD []

def getMultisigThreshold (w : State) : Nat := w.storage.ms_thresh.getD 1

def getMultisigProposeWindow (w : State) : Nat := w.storage.ms_win.getD DEFAULT_PROPOSE_WINDOW

/-- The count of the owners' valid approvals, against the threshold. -/
def requireQuorum (w : State) (proposals : Option (Map Address Nat)) : Result Unit :=
  panicIf (countValidProposals w.sequence (proposals.getD ∅) (getMultisigOwners w)
    (getMultisigProposeWindow w) < getMultisigThreshold w) "quorum not reached"

/-- The guard of `set_multisig_config`. No entry point writes `prop_ms`. -/
def configGate (w : State) (caller : Address) : Result State :=
  if getMultisigThreshold w > 1 ∧ getMultisigOwners w ≠ [] then do
    panicIf (caller ∉ getMultisigOwners w) "not an admin owner"
    requireQuorum w w.storage.prop_ms
    return { w with storage := { w.storage with prop_ms := none } }
  else do
    panicIf (getMultisigOwners w ≠ [] ∧ caller ∉ getMultisigOwners w) "not an admin owner"
    return w

def setMultisigConfig (env : Env) (w : State) (caller : Address) (owners : List Address)
    (threshold propose_window_ledgers : Nat) : Result State := do
  requireAuth env caller
  panicIf (threshold = 0) "threshold must be positive"
  panicIf (threshold > owners.length) "threshold cannot exceed owner count"
  panicIf (propose_window_ledgers = 0) "propose window must be positive"
  let w ← configGate w caller
  let w := { w with storage := { w.storage with
    ms_own := some owners, ms_thresh := some threshold, ms_win := some propose_window_ledgers } }
  return w.publish (.ms_cfg owners threshold)

def setCbProposals (w : State) (circuit_breaker : Address)
    (proposals : Option (Map Address Nat)) : State :=
  { w with storage := { w.storage with
      cb_proposals := Function.update w.storage.cb_proposals circuit_breaker proposals } }

def proposeCircuitBreaker (env : Env) (w : State) (owner circuit_breaker : Address) :
    Result State := do
  requireAuth env owner
  panicIf (owner ∉ getMultisigOwners w) "not an admin owner"
  let proposals := (w.storage.cb_proposals circuit_breaker).getD ∅
  let w := setCbProposals w circuit_breaker (some (proposals.insert owner w.sequence))
  return w.publish (.prop_cb owner circuit_breaker)

/-- The guard of `set_circuit_breaker`. -/
def breakerGate (w : State) (admin circuit_breaker : Address) : Result State :=
  if getMultisigOwners w ≠ [] then do
    panicIf (admin ∉ getMultisigOwners w) "not an admin owner"
    if getMultisigThreshold w > 1 then do
      requireQuorum w (w.storage.cb_proposals circuit_breaker)
      return setCbProposals w circuit_breaker none
    else return w
  else
    match w.storage.cb_admin with
    | some stored_admin => do
        panicIf (stored_admin ≠ admin) "not the circuit breaker admin"
        return w
    | none => return { w with storage := { w.storage with cb_admin := some admin } }

def setCircuitBreaker (env : Env) (w : State) (admin circuit_breaker : Address) :
    Result State := do
  requireAuth env admin
  let w ← breakerGate w admin circuit_breaker
  return { w with storage := { w.storage with cb := some circuit_breaker } }

/-! ## The contract as a transition system -/

inductive Call where
  | createJob (requester token : Address) (amount : Int) (task_description : Bytes)
      (deadline_ledger : Nat) (arbiter : Option Address)
  | acceptJob (worker : Address) (job_id : Nat)
  | submitResult (worker : Address) (job_id : Nat) (result : Bytes)
  | release (releaser : Address) (job_id : Nat)
  | refund (requester : Address) (job_id : Nat)
  | dispute (requester : Address) (job_id : Nat)
  | resolveDispute (arbiter : Address) (job_id : Nat) (favor_worker : Bool)
  | setMultisigConfig (caller : Address) (owners : List Address)
      (threshold propose_window_ledgers : Nat)
  | proposeCircuitBreaker (owner circuit_breaker : Address)
  | setCircuitBreaker (admin circuit_breaker : Address)

def exec (env : Env) (w : State) : Call → Result State
  | .createJob requester token amount task_description deadline_ledger arbiter =>
      Prod.snd <$> createJob env w requester token amount task_description deadline_ledger arbiter
  | .acceptJob worker job_id => acceptJob env w worker job_id
  | .submitResult worker job_id result => submitResult env w worker job_id result
  | .release releaser job_id => release env w releaser job_id
  | .refund requester job_id => refund env w requester job_id
  | .dispute requester job_id => dispute env w requester job_id
  | .resolveDispute arbiter job_id favor_worker => resolveDispute env w arbiter job_id favor_worker
  | .setMultisigConfig caller owners threshold propose_window_ledgers =>
      setMultisigConfig env w caller owners threshold propose_window_ledgers
  | .proposeCircuitBreaker owner circuit_breaker =>
      proposeCircuitBreaker env w owner circuit_breaker
  | .setCircuitBreaker admin circuit_breaker => setCircuitBreaker env w admin circuit_breaker

/-- The arguments are values of their declared types. -/
def Call.WellTyped : Call → Prop
  | .createJob _ _ amount _ deadline_ledger _ => IsI128 amount ∧ deadline_ledger ≤ U32_MAX
  | .acceptJob _ job_id => job_id ≤ U64_MAX
  | .submitResult _ job_id _ => job_id ≤ U64_MAX
  | .release _ job_id => job_id ≤ U64_MAX
  | .refund _ job_id => job_id ≤ U64_MAX
  | .dispute _ job_id => job_id ≤ U64_MAX
  | .resolveDispute _ job_id _ => job_id ≤ U64_MAX
  | .setMultisigConfig _ owners threshold propose_window_ledgers =>
      owners.length ≤ U32_MAX ∧ threshold ≤ U32_MAX ∧ propose_window_ledgers ≤ U32_MAX
  | .proposeCircuitBreaker _ _ => True
  | .setCircuitBreaker _ _ => True

instance : DecidablePred Call.WellTyped
  | .createJob .. => inferInstanceAs (Decidable (_ ∧ _))
  | .acceptJob .. => inferInstanceAs (Decidable (_ ≤ _))
  | .submitResult .. => inferInstanceAs (Decidable (_ ≤ _))
  | .release .. => inferInstanceAs (Decidable (_ ≤ _))
  | .refund .. => inferInstanceAs (Decidable (_ ≤ _))
  | .dispute .. => inferInstanceAs (Decidable (_ ≤ _))
  | .resolveDispute .. => inferInstanceAs (Decidable (_ ≤ _))
  | .setMultisigConfig .. => inferInstanceAs (Decidable (_ ∧ _))
  | .proposeCircuitBreaker .. => inferInstanceAs (Decidable True)
  | .setCircuitBreaker .. => inferInstanceAs (Decidable True)

/-- The escrow contract. -/
def escrow : Contract Storage Event Call where
  exec := exec
  wellTyped := Call.WellTyped

instance : DecidablePred escrow.wellTyped := inferInstanceAs (DecidablePred Call.WellTyped)

/-- The worlds a deployment starts in. -/
structure Genesis (w : State) : Prop where
  storage : w.storage = Storage.fresh
  balance : ∀ token holder, 0 ≤ w.balance token holder

abbrev Step (P : Platform) (d : Deployment) : State → Action Call → State → Prop :=
  escrow.Step P d

abbrev Tx := escrow.Tx

abbrev Runs (P : Platform) (d : Deployment) : State → List Tx → State → Prop :=
  escrow.Runs P d

end StellarAgent.Escrow
