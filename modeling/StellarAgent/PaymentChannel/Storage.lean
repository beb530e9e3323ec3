import StellarAgent.Lib.FinMap
import StellarAgent.Soroban.Host

set_option autoImplicit false

/-! # The data of the PaymentChannel contract

Constants, records, storage keys and events of `contracts/payment_channel/src/lib.rs`. Instance
storage is a record with one field per key, `Option` where the entry may be missing; the two
kinds of persistent entries (`DataKey`) are finite maps.

Left out: entry lifetimes, and the Groth16 check `verify_solvency_proof` with its proof type,
which changes no state.
-/

namespace StellarAgent.PaymentChannel

open Lib Soroban

/-! ## Constants -/

def PRICE_SCALE : Int := 10000000
def MAX_SLIPPAGE_BPS : Int := 500
def BPS_DENOMINATOR : Int := 10000
def MAX_ROUTE_HOPS : Nat := 4
def DEFAULT_DISPUTE_LEDGERS : Nat := 17280
def MIN_DISPUTE_LEDGERS : Nat := 720

/-! ## Records -/

/-- Period over which a spend limit resets. -/
inductive SpendPeriod where
  | PerLedger
  | Hourly
  | Daily
  deriving DecidableEq, Repr

/-- A payment channel authorizing an agent to spend. -/
structure Channel where
  agent : Address
  owner : Address
  token : Address
  limit_per_period : Int
  period : SpendPeriod
  spent_this_period : Int
  period_start_ledger : Nat
  total_spent : Int
  active : Bool
  collateral : Int
  allocated : Int
  voucher_signer : Option (BytesN 32)
  dispute_ledgers : Nat
  deriving DecidableEq

/-- Collateral reserved for voucher settlement with one recipient. -/
structure Allocation where
  amount : Int
  settled : Int
  deriving DecidableEq

/-- A close in flight for one `(channel, recipient)` pair. -/
structure Settlement where
  best_sequence : Nat
  best_cumulative : Int
  opened_cumulative : Int
  opened_at_ledger : Nat
  closed_by_payer : Bool
  deriving DecidableEq

/-- One contract-backed swap in an explicit conversion route. -/
structure SwapHop where
  venue : Address
  from_token : Address
  to_token : Address
  min_out : Int
  deriving DecidableEq

abbrev G1Affine := BytesN 96
abbrev G2Affine := BytesN 192

/-- A Groth16 verifying key for the solvency circuit. -/
structure SolvencyVerifyingKey where
  alpha_g1 : G1Affine
  beta_g2 : G2Affine
  gamma_g2 : G2Affine
  delta_g2 : G2Affine
  gamma_abc_g1 : List G1Affine
  deriving DecidableEq

/-! ## Storage -/

/-- The instance keys that hold a wired contract. -/
inductive WiredKey where
  | cb
  | po
  | amm
  deriving DecidableEq

/-- The instance keys that hold a single admin. -/
inductive AdminKey where
  | cb_admin
  | po_admin
  | amm_admin
  | sv_admin
  deriving DecidableEq

/-- The instance keys that hold approvals: `("cb" | "po" | "amm", address)`, `prop_ms` and
`prop_svk`. -/
inductive ProposalKey where
  | wired (key : WiredKey) (value : Address)
  | prop_ms
  | prop_svk
  deriving DecidableEq

/-- A pair `(channel_id, recipient)`: the argument of both kinds of `DataKey`. -/
abbrev PairKey := Nat × Address

structure Storage where
  channels : Option (Map Nat Channel)
  count : Option Nat
  wired : WiredKey → Option Address
  sv_vk : Option SolvencyVerifyingKey
  admins : AdminKey → Option Address
  ms_own : Option (List Address)
  ms_thresh : Option Nat
  ms_win : Option Nat
  proposals : ProposalKey → Option (Map Address Nat)
  allocations : Map PairKey Allocation
  settlements : Map PairKey Settlement

/-- The storage of a freshly deployed contract. -/
def Storage.fresh : Storage where
  channels := none
  count := none
  wired := fun _ => none
  sv_vk := none
  admins := fun _ => none
  ms_own := none
  ms_thresh := none
  ms_win := none
  proposals := fun _ => none
  allocations := ∅
  settlements := ∅

/-! ## Events

One constructor per `publish` statement, named after its topics. -/

inductive Event where
  /-- `("channel", "opened")` -/
  | opened (channel_id : Nat) (agent owner : Address) (deposit : Int)
  /-- `("channel", "state")`, published by `open_channel` only -/
  | channelState (channel_id : Nat) (channel : Channel)
  /-- `("state", "channel")` -/
  | stateChannel (channel_id : Nat) (channel : Channel)
  | paid (channel_id : Nat) (agent recipient : Address) (amount : Int) (memo : Bytes)
  | convpaid (channel_id : Nat) (agent recipient : Address) (amount : Int)
      (dest_token : Address) (received : Int) (memo : Bytes)
  | routepay (channel_id : Nat) (agent recipient : Address) (amount : Int)
      (dest_token : Address) (received : Int) (hops : Nat) (memo : Bytes)
  | topup (channel_id : Nat) (owner : Address) (amount : Int)
  | closed (channel_id : Nat) (owner : Address) (refund : Int)
  | withdrew (channel_id : Nat) (owner : Address) (free : Int)
  | ms_cfg (owners : List Address) (threshold : Nat)
  | prop_ms (owner : Address)
  | prop_cb (owner circuit_breaker : Address)
  | prop_po (owner price_oracle : Address)
  | prop_amm (owner amm : Address)
  | prop_svk (owner : Address)
  | enabled (channel_id : Nat) (voucher_signer : BytesN 32) (dispute_ledgers : Nat)
  | allocated (channel_id : Nat) (recipient : Address) (amount reserved : Int)
  | coopclose (channel_id : Nat) (recipient : Address) (sequence : Nat)
      (cumulative_amount : Int)
  | closing (channel_id : Nat) (recipient closer : Address) (cumulative_amount : Int)
      (dispute_ledgers : Nat)
  | challenge (channel_id : Nat) (recipient : Address) (sequence : Nat)
      (cumulative_amount : Int)
  | finalized (channel_id : Nat) (recipient : Address) (best_sequence : Nat)
      (best_cumulative penalty : Int)

/-- The world a PaymentChannel runs in. -/
abbrev State := World Storage Event

/-! ## Reading and writing storage -/

/-- `load_channels` -/
def loadChannels (w : State) : Map Nat Channel := w.storage.channels.getD ∅

/-- The channel of `channel_id`, where the code loads the map with `unwrap()`. -/
def unwrapChannel (w : State) (channel_id : Nat) : Result Channel := do
  let channels ← unwrap w.storage.channels
  expect (channels.lookup channel_id) "channel not found"

/-- The channel of `channel_id`, where the code loads the map with `load_channels`. -/
def loadChannel (w : State) (channel_id : Nat) : Result Channel :=
  expect ((loadChannels w).lookup channel_id) "channel not found"

/-- `channels.set(channel_id, channel)` and writing the map back. -/
def storeChannel (w : State) (channel_id : Nat) (channel : Channel) : State :=
  { w with storage := { w.storage with
      channels := some ((loadChannels w).insert channel_id channel) } }

/-- `save_channel`: store and publish the record. -/
def saveChannel (w : State) (channel_id : Nat) (channel : Channel) : State :=
  (storeChannel w channel_id channel).publish (.stateChannel channel_id channel)

def allocation (w : State) (channel_id : Nat) (recipient : Address) : Option Allocation :=
  w.storage.allocations.lookup (channel_id, recipient)

def settlement (w : State) (channel_id : Nat) (recipient : Address) : Option Settlement :=
  w.storage.settlements.lookup (channel_id, recipient)

/-- `persist` under `DataKey::Allocation`. -/
def persistAllocation (w : State) (channel_id : Nat) (recipient : Address) (a : Allocation) :
    State :=
  { w with storage := { w.storage with
      allocations := w.storage.allocations.insert (channel_id, recipient) a } }

/-- `persist` under `DataKey::Settlement`. -/
def persistSettlement (w : State) (channel_id : Nat) (recipient : Address) (s : Settlement) :
    State :=
  { w with storage := { w.storage with
      settlements := w.storage.settlements.insert (channel_id, recipient) s } }

/-- `persistent().remove` under `DataKey::Settlement`. -/
def removeSettlement (w : State) (channel_id : Nat) (recipient : Address) : State :=
  { w with storage := { w.storage with
      settlements := w.storage.settlements.erase (channel_id, recipient) } }

/-- `next_id` -/
def nextId (w : State) : Result (Nat × State) := do
  let next ← checkU64 (w.storage.count.getD 0 + 1)
  return (next, { w with storage := { w.storage with count := some next } })

section

variable (w : State) (id : Nat) (r : Address)

@[simp] theorem storeChannel_balance (ch : Channel) :
    (storeChannel w id ch).balance = w.balance := rfl
@[simp] theorem storeChannel_sequence (ch : Channel) :
    (storeChannel w id ch).sequence = w.sequence := rfl
@[simp] theorem storeChannel_events (ch : Channel) :
    (storeChannel w id ch).events = w.events := rfl
@[simp] theorem persistAllocation_balance (a : Allocation) :
    (persistAllocation w id r a).balance = w.balance := rfl
@[simp] theorem persistAllocation_sequence (a : Allocation) :
    (persistAllocation w id r a).sequence = w.sequence := rfl
@[simp] theorem persistAllocation_events (a : Allocation) :
    (persistAllocation w id r a).events = w.events := rfl
@[simp] theorem persistSettlement_balance (s : Settlement) :
    (persistSettlement w id r s).balance = w.balance := rfl
@[simp] theorem persistSettlement_sequence (s : Settlement) :
    (persistSettlement w id r s).sequence = w.sequence := rfl
@[simp] theorem persistSettlement_events (s : Settlement) :
    (persistSettlement w id r s).events = w.events := rfl
@[simp] theorem removeSettlement_balance :
    (removeSettlement w id r).balance = w.balance := rfl
@[simp] theorem removeSettlement_sequence :
    (removeSettlement w id r).sequence = w.sequence := rfl
@[simp] theorem removeSettlement_events :
    (removeSettlement w id r).events = w.events := rfl
@[simp] theorem saveChannel_balance (ch : Channel) :
    (saveChannel w id ch).balance = w.balance := rfl
@[simp] theorem saveChannel_sequence (ch : Channel) :
    (saveChannel w id ch).sequence = w.sequence := rfl
@[simp] theorem saveChannel_events (ch : Channel) :
    (saveChannel w id ch).events = w.events ++ [.published (.stateChannel id ch)] := rfl

end

@[simp] theorem unwrapChannel_eq_ok {w : State} {channel_id : Nat} {ch : Channel} :
    unwrapChannel w channel_id = .ok ch ↔ (loadChannels w).lookup channel_id = some ch := by
  unfold unwrapChannel loadChannels
  cases w.storage.channels <;> simp

@[simp] theorem loadChannel_eq_ok {w : State} {channel_id : Nat} {ch : Channel} :
    loadChannel w channel_id = .ok ch ↔ (loadChannels w).lookup channel_id = some ch := by
  simp [loadChannel]

end StellarAgent.PaymentChannel
