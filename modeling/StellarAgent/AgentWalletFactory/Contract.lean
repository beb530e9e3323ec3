import StellarAgent.Lib.FinMap
import StellarAgent.Soroban.Transactions

set_option autoImplicit false

/-! # The agent wallet factory

`contracts/agent_wallet_factory/src/lib.rs`: a registry of agents. Ids are counted from 1, the owner
of an agent switches it off and on, and anybody may count an operation for it. `initialize` asks for
no authorization and starts the registry anew, so agents that were created before it are lost.
-/

namespace StellarAgent.AgentWalletFactory

open Lib Soroban

structure AgentInfo where
  address : Address
  name : String
  owner : Address
  active : Bool
  created_at : Nat
  total_ops : Nat
  deriving DecidableEq

/-- One field for each key of the instance storage. -/
structure Storage where
  admin : Option Address
  count : Option Nat
  agents : Option (Map Nat AgentInfo)

/-- The storage of a freshly deployed contract. -/
def Storage.fresh : Storage where
  admin := none
  count := none
  agents := none

/-- The second topic with the data -/
inductive Event where
  | created (agent_id : Nat) (agent_address owner : Address)
  | state (agent_id : Nat) (agent : AgentInfo)
  | deactiv (agent_id : Nat) (owner : Address)
  | reactiv (agent_id : Nat) (owner : Address)

/-- The world a factory runs in. -/
abbrev State := World Storage Event

/-! ## Reading storage -/

/-- `count`, or 0 -/
def count (w : State) : Nat := w.storage.count.getD 0

/-- `agents`, or the empty map -/
def agents (w : State) : Map Nat AgentInfo := w.storage.agents.getD ∅

def setAgents (w : State) (agents : Map Nat AgentInfo) : State :=
  { w with storage := { w.storage with agents := some agents } }

def setCount (w : State) (count : Nat) : State :=
  { w with storage := { w.storage with count := some count } }

/-! ## Entry points -/

/-- `initialize` -/
def initializeFactory (w : State) (admin : Address) : Result State := do
  panicIf (w.storage.admin ≠ none) "already initialized"
  return { w with storage := { admin := some admin, count := some 0, agents := some ∅ } }

def createAgent (env : Env) (w : State) (owner agent_address : Address) (name : String) :
    Result State := do
  requireAuth env owner
  let agent_id ← checkU64 (count w + 1)
  let agent : AgentInfo := {
    address := agent_address
    name
    owner
    active := true
    created_at := w.sequence
    total_ops := 0 }
  let w := setCount (setAgents w ((agents w).insert agent_id agent)) agent_id
  return (w.publish (.created agent_id agent_address owner)).publish (.state agent_id agent)

/-- The body of `deactivate_agent` and `reactivate_agent` -/
def switchAgent (env : Env) (w : State) (owner : Address) (agent_id : Nat) (active : Bool)
    (event : Event) : Result State := do
  requireAuth env owner
  let agents ← unwrap w.storage.agents
  let agent ← expect (agents.lookup agent_id) "agent not found"
  panicIf (agent.owner ≠ owner) "not the agent owner"
  let agent := { agent with active }
  return ((setAgents w (agents.insert agent_id agent)).publish event).publish (.state agent_id agent)

def deactivateAgent (env : Env) (w : State) (owner : Address) (agent_id : Nat) : Result State :=
  switchAgent env w owner agent_id false (.deactiv agent_id owner)

def reactivateAgent (env : Env) (w : State) (owner : Address) (agent_id : Nat) : Result State :=
  switchAgent env w owner agent_id true (.reactiv agent_id owner)

def recordOperation (w : State) (agent_id : Nat) : Result State := do
  let agents ← unwrap w.storage.agents
  let agent ← expect (agents.lookup agent_id) "agent not found"
  let total_ops ← checkU64 (agent.total_ops + 1)
  let agent := { agent with total_ops }
  return (setAgents w (agents.insert agent_id agent)).publish (.state agent_id agent)

/-! ## Queries -/

def getAgent (w : State) (agent_id : Nat) : Result AgentInfo := do
  let agents ← unwrap w.storage.agents
  expect (agents.lookup agent_id) "agent not found"

/-- The loop over the ids up to the count -/
def getAgentsByOwner (w : State) (owner : Address) : List AgentInfo :=
  (List.range' 1 (count w)).foldl (fun result i =>
    match (agents w).lookup i with
    | some agent => if agent.owner = owner then result ++ [agent] else result
    | none => result) []

def totalAgents (w : State) : Nat := count w

def isActiveAgent (w : State) (address : Address) : Bool :=
  (List.range' 1 (count w)).any fun i =>
    match (agents w).lookup i with
    | some agent => decide (agent.address = address) && agent.active
    | none => false

def getAdmin (w : State) : Result Address := unwrap w.storage.admin

/-! ## The contract as a transition system -/

inductive Call where
  | initializeFactory (admin : Address)
  | createAgent (owner agent_address : Address) (name : String)
  | deactivateAgent (owner : Address) (agent_id : Nat)
  | reactivateAgent (owner : Address) (agent_id : Nat)
  | recordOperation (agent_id : Nat)

def exec (env : Env) (w : State) : Call → Result State
  | .initializeFactory admin => initializeFactory w admin
  | .createAgent owner agent_address name => createAgent env w owner agent_address name
  | .deactivateAgent owner agent_id => deactivateAgent env w owner agent_id
  | .reactivateAgent owner agent_id => reactivateAgent env w owner agent_id
  | .recordOperation agent_id => recordOperation w agent_id

/-- The arguments are values of their declared types. -/
def Call.WellTyped : Call → Prop
  | .deactivateAgent _ agent_id => agent_id ≤ U64_MAX
  | .reactivateAgent _ agent_id => agent_id ≤ U64_MAX
  | .recordOperation agent_id => agent_id ≤ U64_MAX
  | _ => True

instance : DecidablePred Call.WellTyped
  | .initializeFactory .. => inferInstanceAs (Decidable True)
  | .createAgent .. => inferInstanceAs (Decidable True)
  | .deactivateAgent .. => inferInstanceAs (Decidable (_ ≤ _))
  | .reactivateAgent .. => inferInstanceAs (Decidable (_ ≤ _))
  | .recordOperation .. => inferInstanceAs (Decidable (_ ≤ _))

/-- The agent wallet factory contract. -/
def agentWalletFactory : Contract Storage Event Call where
  exec := exec
  wellTyped := Call.WellTyped

instance : DecidablePred agentWalletFactory.wellTyped :=
  inferInstanceAs (DecidablePred Call.WellTyped)

/-- The worlds a deployment starts in. -/
def Genesis (w : State) : Prop := w.storage = Storage.fresh

abbrev Step (P : Platform) (d : Deployment) : State → Action Call → State → Prop :=
  agentWalletFactory.Step P d

abbrev Tx := agentWalletFactory.Tx

abbrev Runs (P : Platform) (d : Deployment) : State → List Tx → State → Prop :=
  agentWalletFactory.Runs P d

end StellarAgent.AgentWalletFactory
