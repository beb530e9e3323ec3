import StellarAgent.Lib.FinMap
import StellarAgent.Soroban.Transactions

set_option autoImplicit false

/-! # The reputation registry

`contracts/reputation_registry/src/lib.rs`: reporters that the admin has enabled record how the jobs
of an agent ended, and a score is read off the counts.
-/

namespace StellarAgent.ReputationRegistry

open Lib Soroban

def HALF_LIFE_LEDGERS : Nat := 52560

@[ext]
structure Reputation where
  completions : Nat
  refunds : Nat
  disputes : Nat
  volume : Int
  first_seen : Nat
  deriving DecidableEq

/-- What `load` reads where nothing is stored. -/
def Reputation.zero : Reputation where
  completions := 0
  refunds := 0
  disputes := 0
  volume := 0
  first_seen := 0

/-- The instance storage, and one persistent entry for each agent. -/
structure Storage where
  admin : Option Address
  reporters : Option (Map Address Bool)
  reputation : Map Address Reputation

/-- The storage of a freshly deployed contract. -/
def Storage.fresh : Storage where
  admin := none
  reporters := none
  reputation := ∅

/-- The world a registry runs in. It publishes no events. -/
abbrev State := World Storage Empty

/-! ## Internals -/

/-- `u32::saturating_add` -/
def saturatingAdd (x y : Nat) : Nat := min U32_MAX (x + y)

/-- `u32::saturating_mul` -/
def saturatingMul (x y : Nat) : Nat := min U32_MAX (x * y)

/-- `i128::saturating_add` -/
def saturatingAddI128 (x y : Int) : Int := max I128_MIN (min I128_MAX (x + y))

def load (w : State) (agent : Address) : Reputation :=
  (w.storage.reputation.lookup agent).getD Reputation.zero

/-- What `record` makes of a reputation. -/
def Reputation.record (rep : Reputation) (sequence : Nat) (volume : Int) (outcome : Nat) :
    Reputation :=
  let rep := if rep.first_seen = 0 then { rep with first_seen := sequence } else rep
  let rep := { rep with volume := saturatingAddI128 rep.volume volume }
  match outcome with
  | 0 => { rep with completions := saturatingAdd rep.completions 1 }
  | 1 => { rep with refunds := saturatingAdd rep.refunds 1 }
  | _ => { rep with disputes := saturatingAdd rep.disputes 1 }

def record (env : Env) (w : State) (reporter agent : Address) (volume : Int) (outcome : Nat) :
    Result State := do
  requireAuth env reporter
  let reporters ← expect w.storage.reporters "not initialized"
  panicIf (((reporters.lookup reporter).getD false) = false) "not authorized reporter"
  panicIf (volume < 0) "volume must be non-negative"
  let rep := (load w agent).record w.sequence volume outcome
  return { w with storage := { w.storage with
    reputation := w.storage.reputation.insert agent rep } }

/-! ## Entry points -/

/-- `initialize` -/
def initializeRegistry (env : Env) (w : State) (admin : Address) : Result State := do
  panicIf (w.storage.admin ≠ none) "already initialized"
  requireAuth env admin
  return { w with storage := { w.storage with admin := some admin, reporters := some ∅ } }

def setReporter (env : Env) (w : State) (admin reporter : Address) (enabled : Bool) :
    Result State := do
  requireAuth env admin
  let stored ← expect w.storage.admin "not initialized"
  panicIf (stored ≠ admin) "not admin"
  let reporters := (w.storage.reporters.getD ∅).insert reporter enabled
  return { w with storage := { w.storage with reporters := some reporters } }

def recordCompletion (env : Env) (w : State) (reporter agent : Address) (volume : Int) :
    Result State :=
  record env w reporter agent volume 0

def recordRefund (env : Env) (w : State) (reporter agent : Address) (volume : Int) :
    Result State :=
  record env w reporter agent volume 1

def recordDispute (env : Env) (w : State) (reporter agent : Address) (volume : Int) :
    Result State :=
  record env w reporter agent volume 2

/-! ## Queries -/

def getReputation (w : State) (agent : Address) : Reputation := load w agent

/-- How much of its score a reputation keeps at an age, in ten-thousandths -/
def decayBps (age : Nat) : Nat :=
  if HALF_LIFE_LEDGERS ≤ age then 5000 else 10000 - age * 5000 / HALF_LIFE_LEDGERS

/-- The score before it decays, if there are outcomes -/
def baseScore (rep : Reputation) : Nat :=
  let outcomes := saturatingAdd (saturatingAdd rep.completions rep.refunds) rep.disputes
  let weighted := saturatingAdd (saturatingMul rep.completions 100) (saturatingMul rep.refunds 50)
  weighted / outcomes

def score (w : State) (agent : Address) : Nat :=
  let rep := load w agent
  let outcomes := saturatingAdd (saturatingAdd rep.completions rep.refunds) rep.disputes
  if outcomes = 0 then 0
  else baseScore rep * decayBps (w.sequence - rep.first_seen) / 10000

/-! ## The contract as a transition system -/

inductive Call where
  | initializeRegistry (admin : Address)
  | setReporter (admin reporter : Address) (enabled : Bool)
  | recordCompletion (reporter agent : Address) (volume : Int)
  | recordRefund (reporter agent : Address) (volume : Int)
  | recordDispute (reporter agent : Address) (volume : Int)

def exec (env : Env) (w : State) : Call → Result State
  | .initializeRegistry admin => initializeRegistry env w admin
  | .setReporter admin reporter enabled => setReporter env w admin reporter enabled
  | .recordCompletion reporter agent volume => recordCompletion env w reporter agent volume
  | .recordRefund reporter agent volume => recordRefund env w reporter agent volume
  | .recordDispute reporter agent volume => recordDispute env w reporter agent volume

/-- The arguments are values of their declared types. -/
def Call.WellTyped : Call → Prop
  | .initializeRegistry _ => True
  | .setReporter _ _ _ => True
  | .recordCompletion _ _ volume => IsI128 volume
  | .recordRefund _ _ volume => IsI128 volume
  | .recordDispute _ _ volume => IsI128 volume

instance : DecidablePred Call.WellTyped
  | .initializeRegistry .. => inferInstanceAs (Decidable True)
  | .setReporter .. => inferInstanceAs (Decidable True)
  | .recordCompletion .. => inferInstanceAs (Decidable (IsI128 _))
  | .recordRefund .. => inferInstanceAs (Decidable (IsI128 _))
  | .recordDispute .. => inferInstanceAs (Decidable (IsI128 _))

/-- The reputation registry contract. -/
def reputationRegistry : Contract Storage Empty Call where
  exec := exec
  wellTyped := Call.WellTyped

instance : DecidablePred reputationRegistry.wellTyped :=
  inferInstanceAs (DecidablePred Call.WellTyped)

/-- The worlds a deployment starts in. -/
def Genesis (w : State) : Prop := w.storage = Storage.fresh

abbrev Step (P : Platform) (d : Deployment) : State → Action Call → State → Prop :=
  reputationRegistry.Step P d

abbrev Tx := reputationRegistry.Tx

abbrev Runs (P : Platform) (d : Deployment) : State → List Tx → State → Prop :=
  reputationRegistry.Runs P d

end StellarAgent.ReputationRegistry
