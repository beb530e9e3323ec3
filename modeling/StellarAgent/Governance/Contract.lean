import StellarAgent.Lib.FinMap
import StellarAgent.Soroban.Transactions

set_option autoImplicit false

/-! # The governance contract

`contracts/governance/src/lib.rs`: proposals that the owners approve, and that anybody may
execute once a quorum has approved and the timelock has run. The owner set, the timelock and the
time to live of proposals are themselves changed by executed proposals only.

The entry points return `Result<_, Error>`. A call that returns `Err` fails on the host, so what
it wrote is rolled back with it; in particular the status `Expired`, which `approve` and
`execute` write just before they return `Err(ProposalExpired)`, never reaches storage.
-/

namespace StellarAgent.Governance

open Lib Soroban

/-! ## Errors -/

inductive Error where
  | AlreadyInitialized
  | NotInitialized
  | InvalidThreshold
  | EmptyOwners
  | DuplicateOwner
  | NotAnOwner
  | ProposalNotFound
  | ProposalNotPending
  | AlreadyApproved
  | ProposalExpired
  | TimelockNotElapsed
  | ProposalAlreadyExecuted
  | ThresholdNotMet
  | Unauthorized
  | SelfCallOnly
  | InvalidTtl
  | InvalidTimelock
  deriving DecidableEq, Repr

/-- `#[repr(u32)]` -/
def Error.code : Error → Nat
  | .AlreadyInitialized => 1
  | .NotInitialized => 2
  | .InvalidThreshold => 3
  | .EmptyOwners => 4
  | .DuplicateOwner => 5
  | .NotAnOwner => 6
  | .ProposalNotFound => 7
  | .ProposalNotPending => 8
  | .AlreadyApproved => 9
  | .ProposalExpired => 10
  | .TimelockNotElapsed => 11
  | .ProposalAlreadyExecuted => 12
  | .ThresholdNotMet => 13
  | .Unauthorized => 14
  | .SelfCallOnly => 15
  | .InvalidTtl => 16
  | .InvalidTimelock => 17

/-- The failure of the host when an entry point returns `Err(e)`. -/
def Error.panic (e : Error) : Panic := .host ("Error(Contract, #" ++ toString e.code ++ ")")

/-- `if c { return Err(e); }` -/
def errIf (c : Prop) [Decidable c] (e : Error) : Result Unit :=
  if c then .error e.panic else .ok ()

@[simp] theorem errIf_eq_ok {c : Prop} [Decidable c] {e : Error} {u : Unit} :
    errIf c e = .ok u ↔ ¬ c := by
  unfold errIf; split <;> simp [*]

/-- `o.ok_or(e)?` -/
def okOr {α : Type} (o : Option α) (e : Error) : Result α :=
  match o with
  | some a => .ok a
  | none => .error e.panic

@[simp] theorem okOr_eq_ok {α : Type} {o : Option α} {e : Error} {a : α} :
    okOr o e = .ok a ↔ o = some a := by
  cases o <;> simp [okOr]

/-! ## Records and storage -/

inductive ProposalStatus where
  | Pending
  | Approved
  | Executed
  | Cancelled
  | Expired
  deriving DecidableEq, Repr

/-- A `Val`, as far as this contract looks into it: a vector of addresses, a `u32`, or anything
else, which only other contracts interpret. -/
inductive Val where
  | addresses (value : List Address)
  | u32 (value : Nat)
  | other (xdr : Bytes)
  deriving DecidableEq

structure Proposal where
  id : Nat
  proposer : Address
  target : Address
  action : String
  args : List Val
  title : String
  description : String
  status : ProposalStatus
  created_at_ledger : Nat
  approved_at_ledger : Option Nat
  executed_at_ledger : Option Nat
  eta_ledger : Option Nat
  deriving DecidableEq

/-- One field for each `DataKey`. -/
structure Storage where
  initialized : Option Bool
  owners : Option (List Address)
  threshold : Option Nat
  timelock_delay : Option Nat
  proposal_ttl : Option Nat
  next_proposal_id : Option Nat
  proposals : Map Nat Proposal
  approvals : Map Nat (List Address)
  has_approved : Map (Nat × Address) Bool

/-- The storage of a freshly deployed contract. -/
def Storage.fresh : Storage where
  initialized := none
  owners := none
  threshold := none
  timelock_delay := none
  proposal_ttl := none
  next_proposal_id := none
  proposals := ∅
  approvals := ∅
  has_approved := ∅

inductive Event where
  | init (threshold timelock_delay_ledgers proposal_ttl_ledgers : Nat)
  | propose (id : Nat) (proposer target : Address)
  | approved (id ledger eta : Nat)
  | vote (proposal_id : Nat) (owner : Address)
  | executed (proposal_id : Nat) (executor target : Address)
  | cancelled (proposal_id : Nat) (caller : Address)
  | rotated (new_threshold : Nat) (new_owners : List Address)
  | timelock (new_timelock : Nat)
  | ttl (new_ttl : Nat)

/-- The world a governance contract runs in. -/
abbrev State := World Storage Event

/-! ## Reading and writing storage -/

def getOwners (w : State) : List Address := w.storage.owners.getD []

def getThreshold (w : State) : Nat := w.storage.threshold.getD 0

def getTimelock (w : State) : Nat := w.storage.timelock_delay.getD 0

def getProposalTtl (w : State) : Nat := w.storage.proposal_ttl.getD 0

def getApprovals (w : State) (proposal_id : Nat) : List Address :=
  (w.storage.approvals.lookup proposal_id).getD []

def hasApproved (w : State) (proposal_id : Nat) (owner : Address) : Bool :=
  (w.storage.has_approved.lookup (proposal_id, owner)).getD false

/-- `get_proposal`: the stored record, with status `Expired` in place of `Pending` or `Approved`
once the time to live in force has passed. -/
def getProposal (w : State) (proposal_id : Nat) : Result (Option Proposal) :=
  match w.storage.proposals.lookup proposal_id with
  | none => .ok none
  | some proposal =>
      if proposal.status = .Pending ∨ proposal.status = .Approved then do
        let expiry ← checkU32 (proposal.created_at_ledger + getProposalTtl w)
        if w.sequence > expiry then return some { proposal with status := .Expired }
        else return some proposal
      else .ok (some proposal)

def setProposal (w : State) (proposal_id : Nat) (proposal : Proposal) : State :=
  { w with storage := { w.storage with
      proposals := w.storage.proposals.insert proposal_id proposal } }

/-- Append `owner` to the approvals and set the flag `HasApproved`. -/
def addApproval (w : State) (proposal_id : Nat) (owner : Address) (approvals : List Address) :
    State :=
  { w with storage := { w.storage with
      approvals := w.storage.approvals.insert proposal_id approvals
      has_approved := w.storage.has_approved.insert (proposal_id, owner) true } }

def requireInitialized (w : State) : Result Unit :=
  errIf (w.storage.initialized = none) .NotInitialized

/-- The two nested loops over the owners: some address occurs twice. -/
def hasDuplicate : List Address → Bool
  | [] => false
  | owner :: owners => owners.contains owner || hasDuplicate owners

def validateOwnersAndThreshold (owners : List Address) (threshold : Nat) : Result Unit := do
  errIf (owners = []) .EmptyOwners
  errIf (threshold = 0 ∨ threshold > owners.length) .InvalidThreshold
  errIf (hasDuplicate owners) .DuplicateOwner

/-! ## Entry points -/

/-- `initialize` -/
def initializeGovernance (w : State) (owners : List Address)
    (threshold timelock_delay_ledgers proposal_ttl_ledgers : Nat) : Result State := do
  errIf (w.storage.initialized ≠ none) .AlreadyInitialized
  validateOwnersAndThreshold owners threshold
  errIf (proposal_ttl_ledgers = 0) .InvalidTtl
  errIf (timelock_delay_ledgers ≥ proposal_ttl_ledgers) .InvalidTimelock
  let w := { w with storage := { w.storage with
    initialized := some true
    owners := some owners
    threshold := some threshold
    timelock_delay := some timelock_delay_ledgers
    proposal_ttl := some proposal_ttl_ledgers
    next_proposal_id := some 1 } }
  return w.publish (.init threshold timelock_delay_ledgers proposal_ttl_ledgers)

def propose (env : Env) (w : State) (proposer target : Address) (action : String)
    (args : List Val) (title description : String) : Result (Nat × State) := do
  requireInitialized w
  requireAuth env proposer
  errIf (proposer ∉ getOwners w) .NotAnOwner
  let id ← unwrap w.storage.next_proposal_id
  let next ← checkU32 (id + 1)
  let w := { w with storage := { w.storage with next_proposal_id := some next } }
  let current_ledger := w.sequence
  let approvals := [proposer]
  let w := addApproval w id proposer approvals
  -- with a threshold of one the proposer is the quorum
  let (status, approved_at, eta) ←
    (if approvals.length ≥ getThreshold w then do
      let eta ← checkU32 (current_ledger + getTimelock w)
      return (ProposalStatus.Approved, some current_ledger, some eta)
    else return (ProposalStatus.Pending, none, none) :
      Result (ProposalStatus × Option Nat × Option Nat))
  let proposal : Proposal := {
    id, proposer, target, action, args, title, description, status
    created_at_ledger := current_ledger
    approved_at_ledger := approved_at
    executed_at_ledger := none
    eta_ledger := eta }
  let w := (setProposal w id proposal).publish (.propose id proposer target)
  if status = .Approved then do
    let eta ← unwrap eta
    return (id, w.publish (.approved id current_ledger eta))
  else return (id, w)

/-- The check of `approve` and `execute` on the stored creation ledger, whatever the status. -/
def requireAlive (w : State) (proposal : Proposal) : Result Unit := do
  let expiry ← checkU32 (proposal.created_at_ledger + getProposalTtl w)
  errIf (w.sequence > expiry) .ProposalExpired

def approve (env : Env) (w : State) (owner : Address) (proposal_id : Nat) : Result State := do
  requireInitialized w
  requireAuth env owner
  errIf (owner ∉ getOwners w) .NotAnOwner
  let found ← getProposal w proposal_id
  let proposal ← okOr found .ProposalNotFound
  requireAlive w proposal
  errIf (proposal.status ≠ .Pending ∧ proposal.status ≠ .Approved) .ProposalNotPending
  errIf (hasApproved w proposal_id owner) .AlreadyApproved
  let approvals := getApprovals w proposal_id ++ [owner]
  let w := addApproval w proposal_id owner approvals
  let (proposal, w) ←
    -- the quorum is looked for only until it has been found once
    (if approvals.length ≥ getThreshold w ∧ proposal.approved_at_ledger = none then do
      let eta ← checkU32 (w.sequence + getTimelock w)
      let proposal := { proposal with
        status := .Approved, approved_at_ledger := some w.sequence, eta_ledger := some eta }
      return (proposal, w.publish (.approved proposal_id w.sequence eta))
    else return (proposal, w) : Result (Proposal × State))
  return (setProposal w proposal_id proposal).publish (.vote proposal_id owner)

/-! ## Execution -/

def doRotateOwners (w : State) (new_owners : List Address) (new_threshold : Nat) :
    Result State := do
  validateOwnersAndThreshold new_owners new_threshold
  let w := { w with storage := { w.storage with
    owners := some new_owners, threshold := some new_threshold } }
  return w.publish (.rotated new_threshold new_owners)

def doSetTimelock (w : State) (new_timelock : Nat) : Result State := do
  errIf (new_timelock ≥ getProposalTtl w) .InvalidTimelock
  let w := { w with storage := { w.storage with timelock_delay := some new_timelock } }
  return w.publish (.timelock new_timelock)

def doSetProposalTtl (w : State) (new_ttl : Nat) : Result State := do
  errIf (new_ttl ≤ getTimelock w) .InvalidTtl
  let w := { w with storage := { w.storage with proposal_ttl := some new_ttl } }
  return w.publish (.ttl new_ttl)

/-- `Vec::<Address>::from_val(env, &args.get(i).unwrap())`; a value of another type traps. -/
def addressesArg (args : List Val) (i : Nat) : Result (List Address) :=
  match args[i]? with
  | some (.addresses value) => .ok value
  | some _ => .error (.host "Error(Value, UnexpectedType)")
  | none => .error .unwrapNone

/-- `u32::from_val(env, &args.get(i).unwrap())` -/
def u32Arg (args : List Val) (i : Nat) : Result Nat :=
  match args[i]? with
  | some (.u32 value) => .ok value
  | some _ => .error (.host "Error(Value, UnexpectedType)")
  | none => .error .unwrapNone

def executeInternalAction (w : State) (action : String) (args : List Val) : Result State :=
  if action = "rotate_owners" then do
    let new_owners ← addressesArg args 0
    let new_threshold ← u32Arg args 1
    doRotateOwners w new_owners new_threshold
  else if action = "set_timelock" then do
    let new_timelock ← u32Arg args 0
    doSetTimelock w new_timelock
  else if action = "set_proposal_ttl" then do
    let new_ttl ← u32Arg args 0
    doSetProposalTtl w new_ttl
  else .error Error.SelfCallOnly.panic

/-- `answer` is what the target contract does when it is invoked with the proposal's action and
arguments: `none` when it panics. -/
def execute (env : Env) (w : State) (executor : Address) (proposal_id : Nat)
    (answer : Option Unit) : Result State := do
  requireInitialized w
  requireAuth env executor
  let found ← getProposal w proposal_id
  let proposal ← okOr found .ProposalNotFound
  -- of all statuses only `Executed` is looked at
  errIf (proposal.status = .Executed) .ProposalAlreadyExecuted
  requireAlive w proposal
  errIf ((getApprovals w proposal_id).length < getThreshold w) .ThresholdNotMet
  let eta ← okOr proposal.eta_ledger .ThresholdNotMet
  errIf (w.sequence < eta) .TimelockNotElapsed
  let w := setProposal w proposal_id
    { proposal with status := .Executed, executed_at_ledger := some w.sequence }
  let w ←
    (if proposal.target = env.self then executeInternalAction w proposal.action proposal.args
    else do
      invokeContract env proposal.target answer
      return w)
  return w.publish (.executed proposal_id executor proposal.target)

def cancel (env : Env) (w : State) (caller : Address) (proposal_id : Nat) : Result State := do
  requireInitialized w
  requireAuth env caller
  let found ← getProposal w proposal_id
  let proposal ← okOr found .ProposalNotFound
  errIf (proposal.proposer ≠ caller ∧ caller ∉ getOwners w) .Unauthorized
  errIf (proposal.status = .Executed) .ProposalAlreadyExecuted
  -- approvals and eta stay as they are
  let w := setProposal w proposal_id { proposal with status := .Cancelled }
  return w.publish (.cancelled proposal_id caller)

/-- The entry points that only an executed proposal may reach refuse every direct call. -/
def rotateOwners (_new_owners : List Address) (_new_threshold : Nat) : Result State :=
  .error Error.SelfCallOnly.panic

def setTimelock (_new_timelock : Nat) : Result State := .error Error.SelfCallOnly.panic

def setProposalTtl (_new_ttl : Nat) : Result State := .error Error.SelfCallOnly.panic

/-! ## The contract as a transition system -/

inductive Call where
  | initializeGovernance (owners : List Address)
      (threshold timelock_delay_ledgers proposal_ttl_ledgers : Nat)
  | propose (proposer target : Address) (action : String) (args : List Val)
      (title description : String)
  | approve (owner : Address) (proposal_id : Nat)
  | execute (executor : Address) (proposal_id : Nat) (answer : Option Unit)
  | cancel (caller : Address) (proposal_id : Nat)
  | rotateOwners (new_owners : List Address) (new_threshold : Nat)
  | setTimelock (new_timelock : Nat)
  | setProposalTtl (new_ttl : Nat)

def exec (env : Env) (w : State) : Call → Result State
  | .initializeGovernance owners threshold timelock_delay_ledgers proposal_ttl_ledgers =>
      initializeGovernance w owners threshold timelock_delay_ledgers proposal_ttl_ledgers
  | .propose proposer target action args title description =>
      Prod.snd <$> propose env w proposer target action args title description
  | .approve owner proposal_id => approve env w owner proposal_id
  | .execute executor proposal_id answer => execute env w executor proposal_id answer
  | .cancel caller proposal_id => cancel env w caller proposal_id
  | .rotateOwners new_owners new_threshold => rotateOwners new_owners new_threshold
  | .setTimelock new_timelock => setTimelock new_timelock
  | .setProposalTtl new_ttl => setProposalTtl new_ttl

def Val.WellTyped : Val → Prop
  | .addresses value => value.length ≤ U32_MAX
  | .u32 value => value ≤ U32_MAX
  | .other _ => True

/-- The arguments are values of their declared types. -/
def Call.WellTyped : Call → Prop
  | .initializeGovernance owners threshold timelock_delay_ledgers proposal_ttl_ledgers =>
      owners.length ≤ U32_MAX ∧ threshold ≤ U32_MAX ∧ timelock_delay_ledgers ≤ U32_MAX ∧
        proposal_ttl_ledgers ≤ U32_MAX
  | .propose _ _ _ args _ _ => ∀ arg ∈ args, arg.WellTyped
  | .approve _ proposal_id => proposal_id ≤ U32_MAX
  | .execute _ proposal_id _ => proposal_id ≤ U32_MAX
  | .cancel _ proposal_id => proposal_id ≤ U32_MAX
  | .rotateOwners new_owners new_threshold =>
      new_owners.length ≤ U32_MAX ∧ new_threshold ≤ U32_MAX
  | .setTimelock new_timelock => new_timelock ≤ U32_MAX
  | .setProposalTtl new_ttl => new_ttl ≤ U32_MAX

instance : DecidablePred Val.WellTyped
  | .addresses _ => inferInstanceAs (Decidable (_ ≤ _))
  | .u32 _ => inferInstanceAs (Decidable (_ ≤ _))
  | .other _ => inferInstanceAs (Decidable True)

instance : DecidablePred Call.WellTyped
  | .initializeGovernance .. => inferInstanceAs (Decidable (_ ∧ _))
  | .propose _ _ _ args _ _ => inferInstanceAs (Decidable (∀ arg ∈ args, arg.WellTyped))
  | .approve .. => inferInstanceAs (Decidable (_ ≤ _))
  | .execute .. => inferInstanceAs (Decidable (_ ≤ _))
  | .cancel .. => inferInstanceAs (Decidable (_ ≤ _))
  | .rotateOwners .. => inferInstanceAs (Decidable (_ ∧ _))
  | .setTimelock .. => inferInstanceAs (Decidable (_ ≤ _))
  | .setProposalTtl .. => inferInstanceAs (Decidable (_ ≤ _))

/-- The governance contract. -/
def governance : Contract Storage Event Call where
  exec := exec
  wellTyped := Call.WellTyped

instance : DecidablePred governance.wellTyped :=
  inferInstanceAs (DecidablePred Call.WellTyped)

/-- The worlds a deployment starts in. -/
def Genesis (w : State) : Prop := w.storage = Storage.fresh

abbrev Step (P : Platform) (d : Deployment) : State → Action Call → State → Prop :=
  governance.Step P d

abbrev Tx := governance.Tx

abbrev Runs (P : Platform) (d : Deployment) : State → List Tx → State → Prop :=
  governance.Runs P d

end StellarAgent.Governance
