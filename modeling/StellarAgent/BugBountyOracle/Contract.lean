import StellarAgent.Lib.FinMap
import StellarAgent.Soroban.Transactions

set_option autoImplicit false

/-! # The bug bounty oracle

`contracts/bug_bounty_oracle/src/lib.rs`: a sponsor funds a bounty, hunters submit the hashes of
payloads, and the bounty is paid to a hunter when its verifier accepts the submission
(`accept_submission`), or goes back to the sponsor when it has expired or is cancelled.

Left out: the read-only queries.
-/

namespace StellarAgent.BugBountyOracle

open Lib Soroban

/-! ## Records and storage -/

inductive BountyStatus where
  | Open
  | Paid
  | Expired
  | Cancelled
  deriving DecidableEq, Repr

inductive SubmissionStatus where
  | Pending
  | Accepted
  | Rejected
  deriving DecidableEq, Repr

structure Bounty where
  sponsor : Address
  token : Address
  amount : Int
  shadow_contract : Address
  assertion_id : BytesN 32
  verifier : Address
  deadline_ledger : Nat
  status : BountyStatus
  winning_submission : Option Nat
  submission_count : Nat
  created_at : Nat
  deriving DecidableEq

structure Submission where
  bounty_id : Nat
  hunter : Address
  payload_hash : BytesN 32
  failure_hash : BytesN 32
  metadata_hash : BytesN 32
  status : SubmissionStatus
  submitted_at : Nat
  verified_at : Option Nat
  verifier_note_hash : Option (BytesN 32)
  deriving DecidableEq

structure PayloadKey where
  bounty_id : Nat
  payload_hash : BytesN 32
  deriving DecidableEq

/-- One field for each key. -/
structure Storage where
  bounties : Option (Map Nat Bounty)
  bcount : Option Nat
  subs : Option (Map Nat Submission)
  scount : Option Nat
  payhash : Option (Map PayloadKey Nat)

/-- The storage of a freshly deployed contract. -/
def Storage.fresh : Storage where
  bounties := none
  bcount := none
  subs := none
  scount := none
  payhash := none

inductive Event where
  | created (bounty_id : Nat) (sponsor : Address) (amount : Int)
  | submit (bounty_id submission_id : Nat) (hunter : Address)
  | paid (bounty_id submission_id : Nat) (hunter : Address)
  | reject (bounty_id submission_id : Nat)
  | expired (bounty_id : Nat) (sponsor : Address)
  | cancel (bounty_id : Nat) (sponsor : Address)

/-- The world a bounty oracle runs in. -/
abbrev State := World Storage Event

/-! ## Reading and writing storage -/

/-- `load_bounties` -/
def loadBounties (w : State) : Map Nat Bounty := w.storage.bounties.getD ∅

/-- `load_submissions` -/
def loadSubmissions (w : State) : Map Nat Submission := w.storage.subs.getD ∅

/-- `payload_index` -/
def payloadIndex (w : State) : Map PayloadKey Nat := w.storage.payhash.getD ∅

/-- `load_bounty` -/
def loadBounty (w : State) (bounty_id : Nat) : Result Bounty :=
  expect ((loadBounties w).lookup bounty_id) "bounty not found"

/-- `load_submission` -/
def loadSubmission (w : State) (submission_id : Nat) : Result Submission :=
  expect ((loadSubmissions w).lookup submission_id) "submission not found"

@[simp] theorem loadBounty_eq_ok {w : State} {bounty_id : Nat} {bounty : Bounty} :
    loadBounty w bounty_id = .ok bounty ↔ (loadBounties w).lookup bounty_id = some bounty := by
  simp [loadBounty]

@[simp] theorem loadSubmission_eq_ok {w : State} {submission_id : Nat} {submission : Submission} :
    loadSubmission w submission_id = .ok submission ↔
      (loadSubmissions w).lookup submission_id = some submission := by
  simp [loadSubmission]

/-- `save_bounty` -/
def saveBounty (w : State) (bounty_id : Nat) (bounty : Bounty) : State :=
  { w with storage := { w.storage with
      bounties := some ((loadBounties w).insert bounty_id bounty) } }

/-- `save_submission` -/
def saveSubmission (w : State) (submission_id : Nat) (submission : Submission) : State :=
  { w with storage := { w.storage with
      subs := some ((loadSubmissions w).insert submission_id submission) } }

/-- `next_bounty_id` -/
def nextBountyId (w : State) : Result (Nat × State) := do
  let next ← checkU64 (w.storage.bcount.getD 0 + 1)
  return (next, { w with storage := { w.storage with bcount := some next } })

/-- `next_submission_id` -/
def nextSubmissionId (w : State) : Result (Nat × State) := do
  let next ← checkU64 (w.storage.scount.getD 0 + 1)
  return (next, { w with storage := { w.storage with scount := some next } })

/-! ## Entry points -/

def createBounty (env : Env) (w : State) (sponsor token : Address) (amount : Int)
    (shadow_contract : Address) (assertion_id : BytesN 32) (verifier : Address)
    (deadline_ledger : Nat) : Result (Nat × State) := do
  requireAuth env sponsor
  panicIf (amount ≤ 0) "amount must be positive"
  panicIf (deadline_ledger ≤ w.sequence) "deadline must be in the future"
  let w ← w.transfer token sponsor env.self amount
  let (bounty_id, w) ← nextBountyId w
  let bounty : Bounty := {
    sponsor, token, amount, shadow_contract, assertion_id, verifier, deadline_ledger
    status := .Open, winning_submission := none, submission_count := 0, created_at := w.sequence }
  return (bounty_id, (saveBounty w bounty_id bounty).publish (.created bounty_id sponsor amount))

def submitPayload (env : Env) (w : State) (hunter : Address) (bounty_id : Nat)
    (payload_hash failure_hash metadata_hash : BytesN 32) : Result (Nat × State) := do
  requireAuth env hunter
  let bounty ← loadBounty w bounty_id
  panicIf (bounty.status ≠ .Open) "bounty is not open"
  panicIf (w.sequence > bounty.deadline_ledger) "bounty deadline passed"
  let payload_key : PayloadKey := { bounty_id, payload_hash }
  panicIf ((payloadIndex w).lookup payload_key ≠ none) "duplicate payload"
  let (submission_id, w) ← nextSubmissionId w
  let submission : Submission := {
    bounty_id, hunter, payload_hash, failure_hash, metadata_hash, status := .Pending
    submitted_at := w.sequence, verified_at := none, verifier_note_hash := none }
  let w := saveSubmission w submission_id submission
  let submission_count ← checkU64 (bounty.submission_count + 1)
  let w := saveBounty w bounty_id { bounty with submission_count }
  let w := { w with storage := { w.storage with
    payhash := some ((payloadIndex w).insert payload_key submission_id) } }
  return (submission_id, w.publish (.submit bounty_id submission_id hunter))

def acceptSubmission (env : Env) (w : State) (verifier : Address) (bounty_id submission_id : Nat)
    (verifier_note_hash : BytesN 32) : Result State := do
  requireAuth env verifier
  let bounty ← loadBounty w bounty_id
  panicIf (bounty.status ≠ .Open) "bounty is not open"
  panicIf (bounty.verifier ≠ verifier) "not the bounty verifier"
  let submission ← loadSubmission w submission_id
  panicIf (submission.bounty_id ≠ bounty_id) "submission does not match bounty"
  panicIf (submission.status ≠ .Pending) "submission is not pending"
  let w ← w.transfer bounty.token env.self submission.hunter bounty.amount
  let w := saveSubmission w submission_id { submission with
    status := .Accepted, verified_at := some w.sequence
    verifier_note_hash := some verifier_note_hash }
  let w := saveBounty w bounty_id { bounty with
    status := .Paid, winning_submission := some submission_id }
  return w.publish (.paid bounty_id submission_id submission.hunter)

/-- Unlike the other decisions, a rejection does not ask whether the bounty is open. -/
def rejectSubmission (env : Env) (w : State) (verifier : Address)
    (bounty_id submission_id : Nat) : Result State := do
  requireAuth env verifier
  let bounty ← loadBounty w bounty_id
  panicIf (bounty.verifier ≠ verifier) "not the bounty verifier"
  let submission ← loadSubmission w submission_id
  panicIf (submission.bounty_id ≠ bounty_id) "submission does not match bounty"
  panicIf (submission.status ≠ .Pending) "submission is not pending"
  let w := saveSubmission w submission_id { submission with
    status := .Rejected, verified_at := some w.sequence }
  return w.publish (.reject bounty_id submission_id)

/-- Anybody may close an expired bounty. -/
def closeExpired (env : Env) (w : State) (bounty_id : Nat) : Result State := do
  let bounty ← loadBounty w bounty_id
  panicIf (bounty.status ≠ .Open) "bounty is not open"
  panicIf (w.sequence ≤ bounty.deadline_ledger) "deadline not reached yet"
  let w ← w.transfer bounty.token env.self bounty.sponsor bounty.amount
  let w := saveBounty w bounty_id { bounty with status := .Expired }
  return w.publish (.expired bounty_id bounty.sponsor)

def cancelBounty (env : Env) (w : State) (sponsor : Address) (bounty_id : Nat) :
    Result State := do
  requireAuth env sponsor
  let bounty ← loadBounty w bounty_id
  panicIf (bounty.sponsor ≠ sponsor) "not the bounty sponsor"
  panicIf (bounty.status ≠ .Open) "bounty is not open"
  panicIf (bounty.submission_count > 0) "bounty already has submissions"
  let w ← w.transfer bounty.token env.self bounty.sponsor bounty.amount
  let w := saveBounty w bounty_id { bounty with status := .Cancelled }
  return w.publish (.cancel bounty_id bounty.sponsor)

/-! ## The contract as a transition system -/

inductive Call where
  | createBounty (sponsor token : Address) (amount : Int) (shadow_contract : Address)
      (assertion_id : BytesN 32) (verifier : Address) (deadline_ledger : Nat)
  | submitPayload (hunter : Address) (bounty_id : Nat)
      (payload_hash failure_hash metadata_hash : BytesN 32)
  | acceptSubmission (verifier : Address) (bounty_id submission_id : Nat)
      (verifier_note_hash : BytesN 32)
  | rejectSubmission (verifier : Address) (bounty_id submission_id : Nat)
  | closeExpired (bounty_id : Nat)
  | cancelBounty (sponsor : Address) (bounty_id : Nat)

def exec (env : Env) (w : State) : Call → Result State
  | .createBounty sponsor token amount shadow_contract assertion_id verifier deadline_ledger =>
      Prod.snd <$> createBounty env w sponsor token amount shadow_contract assertion_id verifier
        deadline_ledger
  | .submitPayload hunter bounty_id payload_hash failure_hash metadata_hash =>
      Prod.snd <$> submitPayload env w hunter bounty_id payload_hash failure_hash metadata_hash
  | .acceptSubmission verifier bounty_id submission_id verifier_note_hash =>
      acceptSubmission env w verifier bounty_id submission_id verifier_note_hash
  | .rejectSubmission verifier bounty_id submission_id =>
      rejectSubmission env w verifier bounty_id submission_id
  | .closeExpired bounty_id => closeExpired env w bounty_id
  | .cancelBounty sponsor bounty_id => cancelBounty env w sponsor bounty_id

/-- The arguments are values of their declared types. -/
def Call.WellTyped : Call → Prop
  | .createBounty _ _ amount _ _ _ deadline_ledger => IsI128 amount ∧ deadline_ledger ≤ U32_MAX
  | .submitPayload _ bounty_id _ _ _ => bounty_id ≤ U64_MAX
  | .acceptSubmission _ bounty_id submission_id _ =>
      bounty_id ≤ U64_MAX ∧ submission_id ≤ U64_MAX
  | .rejectSubmission _ bounty_id submission_id => bounty_id ≤ U64_MAX ∧ submission_id ≤ U64_MAX
  | .closeExpired bounty_id => bounty_id ≤ U64_MAX
  | .cancelBounty _ bounty_id => bounty_id ≤ U64_MAX

instance : DecidablePred Call.WellTyped
  | .createBounty .. => inferInstanceAs (Decidable (_ ∧ _))
  | .submitPayload .. => inferInstanceAs (Decidable (_ ≤ _))
  | .acceptSubmission .. => inferInstanceAs (Decidable (_ ∧ _))
  | .rejectSubmission .. => inferInstanceAs (Decidable (_ ∧ _))
  | .closeExpired .. => inferInstanceAs (Decidable (_ ≤ _))
  | .cancelBounty .. => inferInstanceAs (Decidable (_ ≤ _))

/-- The bug bounty oracle. -/
def oracle : Contract Storage Event Call where
  exec := exec
  wellTyped := Call.WellTyped

instance : DecidablePred oracle.wellTyped := inferInstanceAs (DecidablePred Call.WellTyped)

/-- The worlds a deployment starts in. -/
structure Genesis (w : State) : Prop where
  storage : w.storage = Storage.fresh
  balance : ∀ token holder, 0 ≤ w.balance token holder

abbrev Step (P : Platform) (d : Deployment) : State → Action Call → State → Prop :=
  oracle.Step P d

abbrev Tx := oracle.Tx

abbrev Runs (P : Platform) (d : Deployment) : State → List Tx → State → Prop :=
  oracle.Runs P d

end StellarAgent.BugBountyOracle
