import StellarAgent.PaymentChannel.Storage

set_option autoImplicit false

/-! # The multi-sig admin quorum and the admin slots

The setters of the circuit breaker, the price oracle, the AMM and the solvency key, each with
its `propose_*` companion, and the configuration of the owner set. The four setters share one
guard, `adminGate`; they differ in the keys of their approvals and of their single admin.
-/

namespace StellarAgent.PaymentChannel

open Lib Soroban

/-! ## Reading the configuration -/

def getMultisigOwners (w : State) : List Address := w.storage.ms_own.getD []

def getMultisigThreshold (w : State) : Nat := w.storage.ms_thresh.getD 1

def getMultisigProposeWindow (w : State) : Nat :=
  w.storage.ms_win.getD DEFAULT_DISPUTE_LEDGERS

/-- The approvals recorded under `key`. -/
def proposalsAt (w : State) (key : ProposalKey) : Map Address Nat :=
  (w.storage.proposals key).getD ∅

/-- Whether `owner` has an approval in `proposals` that is not older than `window`. -/
def hasValidProposal (current_ledger : Nat) (proposals : Map Address Nat) (window : Nat)
    (owner : Address) : Bool :=
  match proposals.lookup owner with
  | some proposed_at => proposed_at ≥ current_ledger - window
  | none => false

/-- `count_valid_proposals`: one loop over the owner vector. -/
def countValidProposals (current_ledger : Nat) (proposals : Map Address Nat)
    (owners : List Address) (window : Nat) : Nat :=
  owners.countP (hasValidProposal current_ledger proposals window)

/-! ## Writing approvals and slots -/

def setProposals (w : State) (key : ProposalKey) (proposals : Option (Map Address Nat)) : State :=
  { w with storage := { w.storage with
      proposals := Function.update w.storage.proposals key proposals } }

def setWired (w : State) (key : WiredKey) (value : Address) : State :=
  { w with storage := { w.storage with
      wired := Function.update w.storage.wired key (some value) } }

def setAdmin (w : State) (key : AdminKey) (admin : Address) : State :=
  { w with storage := { w.storage with
      admins := Function.update w.storage.admins key (some admin) } }

def setSolvencyKey (w : State) (vk : SolvencyVerifyingKey) : State :=
  { w with storage := { w.storage with sv_vk := some vk } }

/-- Whether an executed change needs a quorum: a non-empty owner set with a threshold above
one. -/
def MultisigActive (w : State) : Prop :=
  getMultisigOwners w ≠ [] ∧ 1 < getMultisigThreshold w

instance (w : State) : Decidable (MultisigActive w) := inferInstanceAs (Decidable (_ ∧ _))

/-- Count the valid approvals under `key`, and consume them if they reach the threshold. -/
def consumeQuorum (w : State) (key : ProposalKey) : Result State := do
  -- the loop runs over the owner vector as stored, duplicates included
  let count := countValidProposals w.sequence (proposalsAt w key) (getMultisigOwners w)
    (getMultisigProposeWindow w)
  panicIf (count < getMultisigThreshold w) "quorum not reached"
  -- all approvals under the key are used up at once
  return setProposals w key none

/-- The guard of the four setters: the quorum of the owner set, or the single admin, who is
bound by the first call. -/
def adminGate (w : State) (admin : Address) (key : ProposalKey) (admin_key : AdminKey)
    (refusal : String) : Result State :=
  if getMultisigOwners w ≠ [] then do
    -- an owner set replaces the single admin; with a threshold of one any owner will do
    panicIf (admin ∉ getMultisigOwners w) "not an admin owner"
    if getMultisigThreshold w > 1 then consumeQuorum w key else pure w
  else
    match w.storage.admins admin_key with
    | some stored_admin => do
        panicIf (stored_admin ≠ admin) refusal
        pure w
    -- nobody yet: the caller becomes the admin
    | none => pure (setAdmin w admin_key admin)

/-! ## Proposals -/

/-- `require_multisig_owner` -/
def requireMultisigOwner (w : State) (owner : Address) : Result Unit :=
  panicIf (owner ∉ getMultisigOwners w) "not an admin owner"

/-- Record the approval of `owner` under `key`. -/
def recordProposal (w : State) (key : ProposalKey) (owner : Address) : State :=
  setProposals w key (some ((proposalsAt w key).insert owner w.sequence))

/-- The body of the `propose_*` functions. -/
def propose (env : Env) (w : State) (owner : Address) (key : ProposalKey) (event : Event) :
    Result State := do
  requireAuth env owner
  requireMultisigOwner w owner
  return (recordProposal w key owner).publish event

def proposeMultisigConfig (env : Env) (w : State) (owner : Address) : Result State :=
  propose env w owner .prop_ms (.prop_ms owner)

def proposeCircuitBreaker (env : Env) (w : State) (owner circuit_breaker : Address) :
    Result State :=
  propose env w owner (.wired .cb circuit_breaker) (.prop_cb owner circuit_breaker)

def proposePriceOracle (env : Env) (w : State) (owner price_oracle : Address) : Result State :=
  propose env w owner (.wired .po price_oracle) (.prop_po owner price_oracle)

def proposeAmm (env : Env) (w : State) (owner amm : Address) : Result State :=
  propose env w owner (.wired .amm amm) (.prop_amm owner amm)

def proposeSolvencyVk (env : Env) (w : State) (owner : Address) (vk : SolvencyVerifyingKey) :
    Result State := do
  requireAuth env owner
  requireMultisigOwner w owner
  panicIf (vk.gamma_abc_g1.length ≠ 3) "solvency vk must have exactly 3 gamma_abc_g1 entries"
  -- the key that was checked is not kept with the approval
  return (recordProposal w .prop_svk owner).publish (.prop_svk owner)

/-! ## Setters -/

/-- The body of `set_circuit_breaker`, `set_price_oracle` and `set_amm`. -/
def setWiredContract (env : Env) (w : State) (admin : Address) (key : WiredKey)
    (value : Address) (admin_key : AdminKey) (refusal : String) : Result State := do
  requireAuth env admin
  let w ← adminGate w admin (.wired key value) admin_key refusal
  return setWired w key value

def setCircuitBreaker (env : Env) (w : State) (admin circuit_breaker : Address) : Result State :=
  setWiredContract env w admin .cb circuit_breaker .cb_admin "not the circuit breaker admin"

def setPriceOracle (env : Env) (w : State) (admin price_oracle : Address) : Result State :=
  setWiredContract env w admin .po price_oracle .po_admin "not the price oracle admin"

def setAmm (env : Env) (w : State) (admin amm : Address) : Result State :=
  setWiredContract env w admin .amm amm .amm_admin "not the amm admin"

def setSolvencyVk (env : Env) (w : State) (admin : Address) (vk : SolvencyVerifyingKey) :
    Result State := do
  requireAuth env admin
  panicIf (vk.gamma_abc_g1.length ≠ 3) "solvency vk must have exactly 3 gamma_abc_g1 entries"
  let w ← adminGate w admin .prop_svk .sv_admin "not the solvency vk admin"
  return setSolvencyKey w vk

/-- The guard of `set_multisig_config` once an owner set exists. -/
def configGate (w : State) (caller : Address) : Result State :=
  if getMultisigThreshold w > 1 ∧ getMultisigOwners w ≠ [] then do
    panicIf (caller ∉ getMultisigOwners w) "not an admin owner"
    consumeQuorum w .prop_ms
  else do
    -- without an owner set, nobody is refused
    panicIf (getMultisigOwners w ≠ [] ∧ caller ∉ getMultisigOwners w) "not an admin owner"
    pure w

def setMultisigConfig (env : Env) (w : State) (caller : Address) (owners : List Address)
    (threshold propose_window_ledgers : Nat) : Result State := do
  requireAuth env caller
  panicIf (threshold = 0) "threshold must be positive"
  panicIf (threshold > owners.length) "threshold cannot exceed owner count"
  panicIf (propose_window_ledgers = 0) "propose window must be positive"
  let w ← configGate w caller
  let w := { w with storage := { w.storage with
    ms_own := some owners, ms_thresh := some threshold, ms_win := some propose_window_ledgers } }
  return w.publish (.ms_cfg owners threshold)

end StellarAgent.PaymentChannel
