import StellarAgent.Soroban.Proposals
import StellarAgent.Soroban.Transactions

set_option autoImplicit false

/-! # The rate limiter

`contracts/rate_limiter/src/lib.rs`: an owner sets limits for an agent, whoever pays on behalf of
the agent asks `check` first and calls `record_payment` afterwards, and the owner or a quorum of
multi-sig owners can kill the agent.

The file uses `LEDGERS_PER_HOUR`, `HOURLY_BUCKETS`, `DAILY_BUCKETS` and `reset_windows_if_needed`
without defining them. The constants are those that `packages/core/src/math/predict.ts` mirrors,
and resetting the windows is advancing both rings. In `record_payment` the exit for an inactive
agent is written `return false`; it is modelled as a return that has done nothing.

Left out: the read-only queries other than `check`, and entry lifetimes.
-/

namespace StellarAgent.RateLimiter

open Lib Soroban

def LEDGERS_PER_HOUR : Nat := 720
def HOURLY_BUCKETS : Nat := 6
def DAILY_BUCKETS : Nat := 24

/-! ## Records and storage -/

structure SpendBucket where
  start_ledger : Nat
  spend : Int
  tx_count : Nat
  deriving DecidableEq

/-- The limits of an agent, with its two rings of buckets, oldest first. -/
structure RateLimit where
  agent : Address
  owner : Address
  max_per_tx : Int
  max_per_hour : Int
  max_per_day : Int
  max_txs_per_hour : Nat
  hourly_buckets : List SpendBucket
  daily_buckets : List SpendBucket
  active : Bool
  deriving DecidableEq

structure AgentMultisig where
  owners : List Address
  threshold : Nat
  propose_window_ledgers : Nat
  deriving DecidableEq

/-- One field for each key; `prop_kill` are the entries under `("prop_kill", agent)`. -/
structure Storage where
  limits : Option (Map Address RateLimit)
  ms_cfg : Option (Map Address AgentMultisig)
  prop_kill : Address → Option (Map Address Nat)

/-- The storage of a freshly deployed contract. -/
def Storage.fresh : Storage where
  limits := none
  ms_cfg := none
  prop_kill := fun _ => none

inductive Event where
  | set (agent : Address) (limit : RateLimit)
  | recorded (agent : Address) (amount : Int)
  | updated (agent : Address) (limit : RateLimit)
  | ms_cfg (agent : Address) (owners : List Address) (threshold : Nat)
  | prop_kill (agent owner : Address)
  | killed (agent : Address)
  | killedLimit (agent : Address) (limit : RateLimit)

/-- The world a rate limiter runs in. -/
abbrev State := World Storage Event

def limits (w : State) : Map Address RateLimit := w.storage.limits.getD ∅

def multisigs (w : State) : Map Address AgentMultisig := w.storage.ms_cfg.getD ∅

/-- The kill proposals for `agent`. -/
def proposals (w : State) (agent : Address) : Map Address Nat :=
  (w.storage.prop_kill agent).getD ∅

/-- `load_limit` -/
def loadLimit (w : State) (agent : Address) : Result RateLimit :=
  expect ((limits w).lookup agent) "no rate limit for agent"

/-- `save_limit` -/
def saveLimit (w : State) (agent : Address) (limit : RateLimit) : State :=
  { w with storage := { w.storage with limits := some ((limits w).insert agent limit) } }

def setProposals (w : State) (agent : Address) (proposals : Option (Map Address Nat)) : State :=
  { w with storage := { w.storage with
      prop_kill := Function.update w.storage.prop_kill agent proposals } }

@[simp] theorem loadLimit_eq_ok {w : State} {agent : Address} {limit : RateLimit} :
    loadLimit w agent = .ok limit ↔ (limits w).lookup agent = some limit := by
  simp [loadLimit]

/-! ## Buckets -/

/-- `new_buckets`: every bucket starts at the current ledger, which need not lie on the grid. -/
def newBuckets (current_ledger count : Nat) : List SpendBucket :=
  List.replicate count { start_ledger := current_ledger, spend := 0, tx_count := 0 }

/-- The buckets from index 1 on. -/
def withoutOldest (buckets : List SpendBucket) (count : Nat) : Result (List SpendBucket) :=
  (List.range' 1 (count - 1)).mapM fun i => unwrap buckets[i]?

/-- The loop of `advance_buckets`. Each round moves the start of the last bucket on, so that
`current_bucket_start + 1` rounds are enough (`advanceBuckets_eq`). -/
def advanceLoop (bucket_size current_bucket_start count : Nat) :
    Nat → List SpendBucket → Result (List SpendBucket)
  | 0, _ => .error (.host "out of fuel")
  | fuel + 1, buckets => do
      let last ← unwrap buckets[count - 1]?
      if last.start_ledger ≥ current_bucket_start then return buckets
      else
        let rotated ← withoutOldest buckets count
        let start_ledger ← checkU32 (last.start_ledger + bucket_size)
        advanceLoop bucket_size current_bucket_start count fuel
          (rotated ++ [{ start_ledger, spend := 0, tx_count := 0 }])

/-- `advance_buckets`. The size of a bucket is a fraction of an hour, for the daily ring too. -/
def advanceBuckets (buckets : List SpendBucket) (current_ledger count : Nat) :
    Result (List SpendBucket) :=
  let bucket_size := LEDGERS_PER_HOUR / count
  if bucket_size = 0 then .ok buckets
  else
    let current_bucket_start := current_ledger / bucket_size * bucket_size
    advanceLoop bucket_size current_bucket_start count (current_bucket_start + 1) buckets

def sumSpend (buckets : List SpendBucket) : Result Int :=
  buckets.foldlM (fun total bucket => checkI128 (total + bucket.spend)) 0

def sumTxCount (buckets : List SpendBucket) : Result Nat :=
  buckets.foldlM (fun total bucket => checkU32 (total + bucket.tx_count)) 0

/-- `add_to_current_bucket` -/
def addToCurrentBucket (buckets : List SpendBucket) (current_ledger : Nat) (amount : Int)
    (tx_count : Nat) : Result (List SpendBucket) :=
  let count := buckets.length
  let bucket_size := LEDGERS_PER_HOUR / count
  if count = 0 ∨ bucket_size = 0 then .ok buckets
  else do
    let current_bucket_start := current_ledger / bucket_size * bucket_size
    let last ← unwrap buckets[count - 1]?
    -- a last bucket that does not start at the current one is emptied
    let last := if last.start_ledger ≠ current_bucket_start then
        { start_ledger := current_bucket_start, spend := 0, tx_count := 0 }
      else last
    let spend ← checkI128 (last.spend + amount)
    let tx_count ← checkU32 (last.tx_count + tx_count)
    return buckets.set (count - 1) { last with spend, tx_count }

/-- `reset_windows_if_needed` -/
def resetWindowsIfNeeded (limit : RateLimit) (current_ledger : Nat) : Result RateLimit := do
  let hourly_buckets ← advanceBuckets limit.hourly_buckets current_ledger HOURLY_BUCKETS
  let daily_buckets ← advanceBuckets limit.daily_buckets current_ledger DAILY_BUCKETS
  return { limit with hourly_buckets, daily_buckets }

/-! ## Limits and payments -/

def setLimits (env : Env) (w : State) (owner agent : Address)
    (max_per_tx max_per_hour max_per_day : Int) (max_txs_per_hour : Nat) : Result State := do
  requireAuth env owner
  panicIf (max_per_tx ≤ 0 ∨ max_per_hour ≤ 0 ∨ max_per_day ≤ 0) "limits must be positive"
  panicIf (max_per_hour > max_per_day) "hourly limit cannot exceed daily limit"
  panicIf (max_per_tx > max_per_hour) "per-tx limit cannot exceed hourly limit"
  -- limits that the agent has already, from whomever, are replaced
  let limit : RateLimit := {
    agent, owner, max_per_tx, max_per_hour, max_per_day, max_txs_per_hour
    hourly_buckets := newBuckets w.sequence HOURLY_BUCKETS
    daily_buckets := newBuckets w.sequence DAILY_BUCKETS
    active := true }
  return (saveLimit w agent limit).publish (.set agent limit)

/-- `check`: whether a payment passes. Nothing is stored. -/
def check (w : State) (agent : Address) (amount : Int) : Result Bool :=
  match (limits w).lookup agent with
  | none => .ok true
  | some limit =>
      if limit.active = false then .ok false
      else do
        let limit ← resetWindowsIfNeeded limit w.sequence
        if amount > limit.max_per_tx then return false
        else
          let hourly ← sumSpend limit.hourly_buckets
          let hourly ← checkI128 (hourly + amount)
          if hourly > limit.max_per_hour then return false
          else
            let daily ← sumSpend limit.daily_buckets
            let daily ← checkI128 (daily + amount)
            if daily > limit.max_per_day then return false
            else
              let txs ← sumTxCount limit.hourly_buckets
              return decide (txs < limit.max_txs_per_hour)

/-- The record after a payment has been added to both rings. -/
def withPayment (limit : RateLimit) (current_ledger : Nat) (amount : Int) : Result RateLimit := do
  let limit ← resetWindowsIfNeeded limit current_ledger
  let hourly_buckets ← addToCurrentBucket limit.hourly_buckets current_ledger amount 1
  let daily_buckets ← addToCurrentBucket limit.daily_buckets current_ledger amount 1
  return { limit with hourly_buckets, daily_buckets }

/-- `record_payment`. The limits are not looked at again. -/
def recordPayment (env : Env) (w : State) (recorder agent : Address) (amount : Int) :
    Result State := do
  requireAuth env recorder
  match (limits w).lookup agent with
  | none => return w
  | some limit =>
      if limit.active = false then return w
      else
        let limit ← withPayment limit w.sequence amount
        let w := saveLimit w agent limit
        let w := w.publish (.recorded agent amount)
        return w.publish (.updated agent limit)

def updateLimits (env : Env) (w : State) (owner agent : Address)
    (max_per_tx max_per_hour max_per_day : Int) (max_txs_per_hour : Nat) : Result State := do
  requireAuth env owner
  let limit ← loadLimit w agent
  panicIf (limit.owner ≠ owner) "not the limit owner"
  -- the limits are taken as they come, and the rings start again
  let limit : RateLimit := { limit with
    max_per_tx, max_per_hour, max_per_day, max_txs_per_hour
    hourly_buckets := newBuckets w.sequence HOURLY_BUCKETS
    daily_buckets := newBuckets w.sequence DAILY_BUCKETS }
  return (saveLimit w agent limit).publish (.updated agent limit)

/-! ## The kill switch -/

def setAgentMultisig (env : Env) (w : State) (caller agent : Address) (owners : List Address)
    (threshold propose_window_ledgers : Nat) : Result State := do
  requireAuth env caller
  let limit ← loadLimit w agent
  panicIf (limit.owner ≠ caller) "not the limit owner"
  panicIf (threshold = 0) "threshold must be positive"
  panicIf (threshold > owners.length) "threshold cannot exceed owner count"
  panicIf (propose_window_ledgers = 0) "propose window must be positive"
  let w := { w with storage := { w.storage with
    ms_cfg := some ((multisigs w).insert agent { owners, threshold, propose_window_ledgers }) } }
  return w.publish (.ms_cfg agent owners threshold)

def proposeKillAgent (env : Env) (w : State) (owner agent : Address) : Result State := do
  requireAuth env owner
  let ms ← expect ((multisigs w).lookup agent) "multisig not configured"
  panicIf (owner ∉ ms.owners) "not a multisig owner"
  let w := setProposals w agent (some ((proposals w agent).insert owner w.sequence))
  return w.publish (.prop_kill agent owner)

/-- The guard of `kill_agent`: the owner, or in multi-sig mode an owner of the configuration, with
its quorum if the threshold is above one. -/
def killGate (w : State) (limit : RateLimit) (owner agent : Address) : Result State :=
  match (multisigs w).lookup agent with
  | some ms => do
      panicIf (owner ∉ ms.owners) "not a multisig owner"
      if ms.threshold > 1 then
        let count := countValidProposals w.sequence (proposals w agent) ms.owners
          ms.propose_window_ledgers
        panicIf (count < ms.threshold) "quorum not reached"
        return setProposals w agent none
      else return w
  | none => do
      panicIf (limit.owner ≠ owner) "not the limit owner"
      return w

def killAgent (env : Env) (w : State) (owner agent : Address) : Result State := do
  requireAuth env owner
  let limit ← loadLimit w agent
  let w ← killGate w limit owner agent
  let limit := { limit with active := false }
  let w := saveLimit w agent limit
  let w := w.publish (.killed agent)
  return w.publish (.killedLimit agent limit)

/-! ## The contract as a transition system -/

inductive Call where
  | setLimits (owner agent : Address) (max_per_tx max_per_hour max_per_day : Int)
      (max_txs_per_hour : Nat)
  | recordPayment (recorder agent : Address) (amount : Int)
  | updateLimits (owner agent : Address) (max_per_tx max_per_hour max_per_day : Int)
      (max_txs_per_hour : Nat)
  | setAgentMultisig (caller agent : Address) (owners : List Address)
      (threshold propose_window_ledgers : Nat)
  | proposeKillAgent (owner agent : Address)
  | killAgent (owner agent : Address)

def exec (env : Env) (w : State) : Call → Result State
  | .setLimits owner agent max_per_tx max_per_hour max_per_day max_txs_per_hour =>
      setLimits env w owner agent max_per_tx max_per_hour max_per_day max_txs_per_hour
  | .recordPayment recorder agent amount => recordPayment env w recorder agent amount
  | .updateLimits owner agent max_per_tx max_per_hour max_per_day max_txs_per_hour =>
      updateLimits env w owner agent max_per_tx max_per_hour max_per_day max_txs_per_hour
  | .setAgentMultisig caller agent owners threshold propose_window_ledgers =>
      setAgentMultisig env w caller agent owners threshold propose_window_ledgers
  | .proposeKillAgent owner agent => proposeKillAgent env w owner agent
  | .killAgent owner agent => killAgent env w owner agent

/-- The arguments are values of their declared types. -/
def Call.WellTyped : Call → Prop
  | .setLimits _ _ max_per_tx max_per_hour max_per_day max_txs_per_hour =>
      IsI128 max_per_tx ∧ IsI128 max_per_hour ∧ IsI128 max_per_day ∧ max_txs_per_hour ≤ U32_MAX
  | .recordPayment _ _ amount => IsI128 amount
  | .updateLimits _ _ max_per_tx max_per_hour max_per_day max_txs_per_hour =>
      IsI128 max_per_tx ∧ IsI128 max_per_hour ∧ IsI128 max_per_day ∧ max_txs_per_hour ≤ U32_MAX
  | .setAgentMultisig _ _ owners threshold propose_window_ledgers =>
      owners.length ≤ U32_MAX ∧ threshold ≤ U32_MAX ∧ propose_window_ledgers ≤ U32_MAX
  | .proposeKillAgent _ _ => True
  | .killAgent _ _ => True

instance : DecidablePred Call.WellTyped
  | .setLimits .. => inferInstanceAs (Decidable (_ ∧ _))
  | .recordPayment .. => inferInstanceAs (Decidable (IsI128 _))
  | .updateLimits .. => inferInstanceAs (Decidable (_ ∧ _))
  | .setAgentMultisig .. => inferInstanceAs (Decidable (_ ∧ _))
  | .proposeKillAgent .. => inferInstanceAs (Decidable True)
  | .killAgent .. => inferInstanceAs (Decidable True)

/-- The rate limiter contract. -/
def rateLimiter : Contract Storage Event Call where
  exec := exec
  wellTyped := Call.WellTyped

instance : DecidablePred rateLimiter.wellTyped := inferInstanceAs (DecidablePred Call.WellTyped)

/-- The worlds a deployment starts in. -/
def Genesis (w : State) : Prop := w.storage = Storage.fresh

abbrev Step (P : Platform) (d : Deployment) : State → Action Call → State → Prop :=
  rateLimiter.Step P d

abbrev Tx := rateLimiter.Tx

abbrev Runs (P : Platform) (d : Deployment) : State → List Tx → State → Prop :=
  rateLimiter.Runs P d

end StellarAgent.RateLimiter
