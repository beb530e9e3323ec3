import StellarAgent.Soroban.Proposals
import StellarAgent.Soroban.Transactions

set_option autoImplicit false

/-! # The circuit breaker

`contracts/circuit_breaker/src/lib.rs`: trusted nodes propose to pause and to unpause, and
anybody may flip the switch once `QUORUM` of them have proposed within the window. The two sides
have the same code with their own proposals, except that only `propose_pause` has a cooldown; they
share definitions here, with the side as a parameter.
-/

namespace StellarAgent.CircuitBreaker

open Lib Soroban

def QUORUM : Nat := 5

/-- The two switches, each with proposals of its own. -/
inductive Switch where
  | pause
  | unpause
  deriving DecidableEq, Repr

/-- What `Paused` is set to. -/
def Switch.flag : Switch → Bool
  | .pause => true
  | .unpause => false

/-- One field for each `DataKey`; `proposals` are `PauseProposals` and `UnpauseProposals`. -/
structure Storage where
  admin : Option Address
  trusted_nodes : Option (List Address)
  propose_window : Option Nat
  proposals : Switch → Option (Map Address Nat)
  paused : Option Bool

/-- The storage of a freshly deployed contract. -/
def Storage.fresh : Storage where
  admin := none
  trusted_nodes := none
  propose_window := none
  proposals := fun _ => none
  paused := none

inductive Event where
  | nodes (trusted_nodes : List Address)
  | propose (node : Address)
  | paused (value : Bool)
  | unpropos (node : Address)
  | unpause (value : Bool)

/-- The world a circuit breaker runs in. -/
abbrev State := World Storage Event

/-! ## Reading storage -/

def isPaused (w : State) : Bool := w.storage.paused.getD false

def getTrustedNodes (w : State) : List Address := w.storage.trusted_nodes.getD []

def getProposeWindow (w : State) : Nat := w.storage.propose_window.getD 0

/-- `pause_proposals` and `unpause_proposals` -/
def proposals (w : State) (switch : Switch) : Map Address Nat :=
  (w.storage.proposals switch).getD ∅

/-- `count_valid` -/
def countValid (w : State) (proposals : Map Address Nat) : Nat :=
  countValidProposals w.sequence proposals (getTrustedNodes w) (getProposeWindow w)

def setProposals (w : State) (switch : Switch) (proposals : Map Address Nat) : State :=
  { w with storage := { w.storage with
      proposals := Function.update w.storage.proposals switch (some proposals) } }

def setPaused (w : State) (value : Bool) : State :=
  { w with storage := { w.storage with paused := some value } }

def requireAdmin (env : Env) (w : State) (admin : Address) : Result Unit := do
  requireAuth env admin
  let stored_admin ← expect w.storage.admin "not initialized"
  panicIf (stored_admin ≠ admin) "not the admin"

def requireTrusted (w : State) (node : Address) : Result Unit :=
  panicIf (node ∉ getTrustedNodes w) "not a trusted node"

/-! ## Entry points -/

/-- `initialize`. The vector of nodes is taken as it comes. -/
def initializeBreaker (env : Env) (w : State) (admin : Address) (trusted_nodes : List Address)
    (propose_window_ledgers : Nat) : Result State := do
  panicIf (w.storage.admin ≠ none) "already initialized"
  requireAuth env admin
  panicIf (propose_window_ledgers = 0) "propose window must be positive"
  return { w with storage := {
    admin := some admin
    trusted_nodes := some trusted_nodes
    propose_window := some propose_window_ledgers
    proposals := fun _ => some ∅
    paused := some false } }

def setTrustedNodes (env : Env) (w : State) (admin : Address) (trusted_nodes : List Address) :
    Result State := do
  requireAdmin env w admin
  let w := { w with storage := { w.storage with
    trusted_nodes := some trusted_nodes, proposals := fun _ => some ∅ } }
  return w.publish (.nodes trusted_nodes)

def setProposeWindow (env : Env) (w : State) (admin : Address) (propose_window_ledgers : Nat) :
    Result State := do
  requireAdmin env w admin
  panicIf (propose_window_ledgers = 0) "propose window must be positive"
  return { w with storage := { w.storage with propose_window := some propose_window_ledgers } }

/-- Record the proposal of `node` at the current ledger. -/
def recordProposal (w : State) (switch : Switch) (node : Address) : State :=
  setProposals w switch ((proposals w switch).insert node w.sequence)

/-- Whether the last proposal of `node` is less than a window old; `saturating_add`. -/
def coolingDown (w : State) (node : Address) : Bool :=
  match (proposals w .pause).lookup node with
  | some last_proposed_at =>
      w.sequence < min (last_proposed_at + getProposeWindow w) U32_MAX
  | none => false

def proposePause (env : Env) (w : State) (node : Address) : Result State := do
  requireAuth env node
  requireTrusted w node
  panicIf (coolingDown w node) "proposal cooldown active"
  return (recordProposal w .pause node).publish (.propose node)

def proposeUnpause (env : Env) (w : State) (node : Address) : Result State := do
  requireAuth env node
  requireTrusted w node
  return (recordProposal w .unpause node).publish (.unpropos node)

/-- The body of `execute_pause` and `unpause`: the proposals of the other switch stay. -/
def flip (w : State) (switch : Switch) (event : Event) : Result State := do
  panicIf (countValid w (proposals w switch) < QUORUM) "quorum not reached"
  return (setProposals (setPaused w switch.flag) switch ∅).publish event

def executePause (w : State) : Result State := flip w .pause (.paused true)

def unpause (w : State) : Result State := flip w .unpause (.unpause true)

/-! ## The contract as a transition system -/

inductive Call where
  | initializeBreaker (admin : Address) (trusted_nodes : List Address)
      (propose_window_ledgers : Nat)
  | setTrustedNodes (admin : Address) (trusted_nodes : List Address)
  | setProposeWindow (admin : Address) (propose_window_ledgers : Nat)
  | proposePause (node : Address)
  | executePause
  | proposeUnpause (node : Address)
  | unpause

def exec (env : Env) (w : State) : Call → Result State
  | .initializeBreaker admin trusted_nodes propose_window_ledgers =>
      initializeBreaker env w admin trusted_nodes propose_window_ledgers
  | .setTrustedNodes admin trusted_nodes => setTrustedNodes env w admin trusted_nodes
  | .setProposeWindow admin propose_window_ledgers =>
      setProposeWindow env w admin propose_window_ledgers
  | .proposePause node => proposePause env w node
  | .executePause => executePause w
  | .proposeUnpause node => proposeUnpause env w node
  | .unpause => unpause w

/-- The arguments are values of their declared types. -/
def Call.WellTyped : Call → Prop
  | .initializeBreaker _ trusted_nodes propose_window_ledgers =>
      trusted_nodes.length ≤ U32_MAX ∧ propose_window_ledgers ≤ U32_MAX
  | .setTrustedNodes _ trusted_nodes => trusted_nodes.length ≤ U32_MAX
  | .setProposeWindow _ propose_window_ledgers => propose_window_ledgers ≤ U32_MAX
  | _ => True

instance : DecidablePred Call.WellTyped
  | .initializeBreaker .. => inferInstanceAs (Decidable (_ ∧ _))
  | .setTrustedNodes .. => inferInstanceAs (Decidable (_ ≤ _))
  | .setProposeWindow .. => inferInstanceAs (Decidable (_ ≤ _))
  | .proposePause .. => inferInstanceAs (Decidable True)
  | .executePause => inferInstanceAs (Decidable True)
  | .proposeUnpause .. => inferInstanceAs (Decidable True)
  | .unpause => inferInstanceAs (Decidable True)

/-- The circuit breaker contract. -/
def circuitBreaker : Contract Storage Event Call where
  exec := exec
  wellTyped := Call.WellTyped

instance : DecidablePred circuitBreaker.wellTyped :=
  inferInstanceAs (DecidablePred Call.WellTyped)

/-- The worlds a deployment starts in. -/
def Genesis (w : State) : Prop := w.storage = Storage.fresh

abbrev Step (P : Platform) (d : Deployment) : State → Action Call → State → Prop :=
  circuitBreaker.Step P d

abbrev Tx := circuitBreaker.Tx

abbrev Runs (P : Platform) (d : Deployment) : State → List Tx → State → Prop :=
  circuitBreaker.Runs P d

/-- The entry point that proposes to use a switch. -/
def Switch.proposal : Switch → Address → Call
  | .pause => .proposePause
  | .unpause => .proposeUnpause

/-- The entry point that uses it. -/
def Switch.execution : Switch → Call
  | .pause => .executePause
  | .unpause => .unpause

/-- The transaction records a proposal of `node`. -/
def Tx.Proposes (x : Tx) (switch : Switch) (node : Address) : Prop :=
  ∃ env, circuitBreaker.Calls x env (switch.proposal node)

/-- The transaction is a successful `execute_pause` or `unpause`. -/
def Tx.Flips (x : Tx) (switch : Switch) : Prop :=
  ∃ env, circuitBreaker.Calls x env switch.execution

/-- The transaction is a successful `set_trusted_nodes`. -/
def Tx.SetsNodes (x : Tx) : Prop :=
  ∃ env admin trusted_nodes, circuitBreaker.Calls x env (.setTrustedNodes admin trusted_nodes)

end StellarAgent.CircuitBreaker
