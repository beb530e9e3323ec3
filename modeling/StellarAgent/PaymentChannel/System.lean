import StellarAgent.Lib.Runs
import StellarAgent.PaymentChannel.Admin
import StellarAgent.PaymentChannel.Vouchers

set_option autoImplicit false

/-! # The contract as a transition system

`Call` has one constructor for each entry point that changes state, `exec` dispatches it, and
`paymentChannel` is the contract the host runs. A run starts in a `Genesis` world: fresh storage,
and token balances that nobody owes yet.
-/

namespace StellarAgent.PaymentChannel

open Lib Soroban

inductive Call where
  | openChannel (owner agent token : Address) (deposit limit_per_period : Int)
      (period : SpendPeriod)
  | pay (agent : Address) (channel_id : Nat) (recipient : Address) (amount : Int) (memo : Bytes)
  | payWithConversion (agent : Address) (channel_id : Nat) (recipient : Address) (amount : Int)
      (dest_token : Address) (min_received : Int) (memo : Bytes)
  | payWithRoute (agent : Address) (channel_id : Nat) (recipient : Address) (amount : Int)
      (dest_token : Address) (route : List SwapHop) (min_received : Int)
      (valid_until_ledger : Nat) (memo : Bytes)
  | topUp (owner : Address) (channel_id : Nat) (amount : Int)
  | closeChannel (owner : Address) (channel_id : Nat)
  | setMultisigConfig (caller : Address) (owners : List Address)
      (threshold propose_window_ledgers : Nat)
  | proposeMultisigConfig (owner : Address)
  | proposeCircuitBreaker (owner circuit_breaker : Address)
  | setCircuitBreaker (admin circuit_breaker : Address)
  | proposePriceOracle (owner price_oracle : Address)
  | setPriceOracle (admin price_oracle : Address)
  | proposeAmm (owner amm : Address)
  | setAmm (admin amm : Address)
  | enableVouchers (owner : Address) (channel_id : Nat) (voucher_signer : BytesN 32)
      (dispute_ledgers : Nat)
  | allocate (owner : Address) (channel_id : Nat) (recipient : Address) (amount : Int)
  | withdrawFree (owner : Address) (channel_id : Nat)
  | closeCooperative (channel_id : Nat) (recipient : Address) (sequence : Nat)
      (cumulative_amount : Int) (signature : BytesN 64)
  | closeUnilateral (closer : Address) (channel_id : Nat) (recipient : Address)
      (sequence : Nat) (cumulative_amount : Int) (signature : BytesN 64)
  | challenge (channel_id : Nat) (recipient : Address) (sequence : Nat)
      (cumulative_amount : Int) (signature : BytesN 64)
  | finalize (channel_id : Nat) (recipient : Address)
  | proposeSolvencyVk (owner : Address) (vk : SolvencyVerifyingKey)
  | setSolvencyVk (admin : Address) (vk : SolvencyVerifyingKey)

/-- The state after a call that returns; what it returns to its caller is dropped. -/
def exec (env : Env) (w : State) : Call → Result State
  | .openChannel owner agent token deposit limit_per_period period =>
      Prod.snd <$> openChannel env w owner agent token deposit limit_per_period period
  | .pay agent channel_id recipient amount memo =>
      pay env w agent channel_id recipient amount memo
  | .payWithConversion agent channel_id recipient amount dest_token min_received memo =>
      Prod.snd <$> payWithConversion env w agent channel_id recipient amount dest_token
        min_received memo
  | .payWithRoute agent channel_id recipient amount dest_token route min_received
      valid_until_ledger memo =>
      Prod.snd <$> payWithRoute env w agent channel_id recipient amount dest_token route
        min_received valid_until_ledger memo
  | .topUp owner channel_id amount => topUp env w owner channel_id amount
  | .closeChannel owner channel_id => closeChannel env w owner channel_id
  | .setMultisigConfig caller owners threshold propose_window_ledgers =>
      setMultisigConfig env w caller owners threshold propose_window_ledgers
  | .proposeMultisigConfig owner => proposeMultisigConfig env w owner
  | .proposeCircuitBreaker owner circuit_breaker =>
      proposeCircuitBreaker env w owner circuit_breaker
  | .setCircuitBreaker admin circuit_breaker => setCircuitBreaker env w admin circuit_breaker
  | .proposePriceOracle owner price_oracle => proposePriceOracle env w owner price_oracle
  | .setPriceOracle admin price_oracle => setPriceOracle env w admin price_oracle
  | .proposeAmm owner amm => proposeAmm env w owner amm
  | .setAmm admin amm => setAmm env w admin amm
  | .enableVouchers owner channel_id voucher_signer dispute_ledgers =>
      enableVouchers env w owner channel_id voucher_signer dispute_ledgers
  | .allocate owner channel_id recipient amount =>
      allocate env w owner channel_id recipient amount
  | .withdrawFree owner channel_id => Prod.snd <$> withdrawFree env w owner channel_id
  | .closeCooperative channel_id recipient sequence cumulative_amount signature =>
      Prod.snd <$> closeCooperative env w channel_id recipient sequence cumulative_amount
        signature
  | .closeUnilateral closer channel_id recipient sequence cumulative_amount signature =>
      closeUnilateral env w closer channel_id recipient sequence cumulative_amount signature
  | .challenge channel_id recipient sequence cumulative_amount signature =>
      challenge env w channel_id recipient sequence cumulative_amount signature
  | .finalize channel_id recipient => Prod.snd <$> finalize env w channel_id recipient
  | .proposeSolvencyVk owner vk => proposeSolvencyVk env w owner vk
  | .setSolvencyVk admin vk => setSolvencyVk env w admin vk

/-- The integer arguments are values of their declared types. -/
def Call.WellTyped : Call → Prop
  | .openChannel _ _ _ deposit limit_per_period _ => IsI128 deposit ∧ IsI128 limit_per_period
  | .pay _ channel_id _ amount _ => channel_id ≤ U64_MAX ∧ IsI128 amount
  | .payWithConversion _ channel_id _ amount _ min_received _ =>
      channel_id ≤ U64_MAX ∧ IsI128 amount ∧ IsI128 min_received
  | .payWithRoute _ channel_id _ amount _ route min_received valid_until_ledger _ =>
      channel_id ≤ U64_MAX ∧ IsI128 amount ∧ IsI128 min_received ∧
        valid_until_ledger ≤ U32_MAX ∧ ∀ hop ∈ route, IsI128 hop.min_out
  | .topUp _ channel_id amount => channel_id ≤ U64_MAX ∧ IsI128 amount
  | .closeChannel _ channel_id => channel_id ≤ U64_MAX
  | .setMultisigConfig _ owners threshold propose_window_ledgers =>
      owners.length ≤ U32_MAX ∧ threshold ≤ U32_MAX ∧ propose_window_ledgers ≤ U32_MAX
  | .enableVouchers _ channel_id _ dispute_ledgers =>
      channel_id ≤ U64_MAX ∧ dispute_ledgers ≤ U32_MAX
  | .allocate _ channel_id _ amount => channel_id ≤ U64_MAX ∧ IsI128 amount
  | .withdrawFree _ channel_id => channel_id ≤ U64_MAX
  | .closeCooperative channel_id _ sequence cumulative_amount _ =>
      channel_id ≤ U64_MAX ∧ sequence ≤ U64_MAX ∧ IsI128 cumulative_amount
  | .closeUnilateral _ channel_id _ sequence cumulative_amount _ =>
      channel_id ≤ U64_MAX ∧ sequence ≤ U64_MAX ∧ IsI128 cumulative_amount
  | .challenge channel_id _ sequence cumulative_amount _ =>
      channel_id ≤ U64_MAX ∧ sequence ≤ U64_MAX ∧ IsI128 cumulative_amount
  | .finalize channel_id _ => channel_id ≤ U64_MAX
  | _ => True

/-- The PaymentChannel contract. -/
def paymentChannel : Contract Storage Event Call where
  exec := exec
  wellTyped := Call.WellTyped

/-- The worlds a deployment starts in. -/
structure Genesis (w : State) : Prop where
  storage : w.storage = Storage.fresh
  balance : ∀ token holder, 0 ≤ w.balance token holder

/-- Steps and runs of deployment `d` on platform `P`. -/
abbrev Step (P : Platform) (d : Deployment) : State → Action Call → State → Prop :=
  paymentChannel.Step P d

abbrev Tx := Transition State (Action Call)

abbrev Runs (P : Platform) (d : Deployment) : State → List Tx → State → Prop :=
  Run (Step P d)

/-- The world a call starts from: the same, with no events yet. -/
def State.quiet (w : State) : State := { w with events := [] }

@[simp] theorem quiet_sequence (w : State) : w.quiet.sequence = w.sequence := rfl

/-- The transaction is a call of an entry point that returned. -/
def Tx.Calls (t : Tx) (env : Env) (call : Call) : Prop :=
  t.act = .invoke env call ∧ exec env t.pre.quiet call = .ok t.post

/-- What a step can be. -/
inductive Outcome (P : Platform) (d : Deployment) (w : State) : Action Call → State → Prop
  | returned {env : Env} {call : Call} {w' : State} (platform : env.platform = P)
      (contract : env.contract = d) (typed : call.WellTyped)
      (returns : exec env w.quiet call = .ok w') : Outcome P d w (.invoke env call) w'
  | panicked {env : Env} {call : Call} {e : Panic} (platform : env.platform = P)
      (contract : env.contract = d) (panics : exec env w.quiet call = .error e) :
      Outcome P d w (.invoke env call) w.quiet
  | closedLedgers {count : Nat} (u32 : w.sequence + count ≤ U32_MAX) :
      Outcome P d w (.closeLedgers count)
        { w with sequence := w.sequence + count, events := [] }
  | foreign {balance : TokenLedger}
      (keeps : ∀ token, w.balance token d.address ≤ balance token d.address) :
      Outcome P d w (.external balance) { w with balance, events := [] }

theorem step_outcome {P : Platform} {d : Deployment} {w w' : State} {a : Action Call}
    (h : Step P d w a w') : Outcome P d w a w' := by
  obtain ⟨hallowed, rfl⟩ := h
  cases a with
  | closeLedgers count => exact .closedLedgers hallowed
  | external balance => exact .foreign hallowed
  | invoke env call =>
      obtain ⟨hP, hd, htyped⟩ := hallowed
      cases hexec : exec env w.quiet call with
      | error e =>
          rw [paymentChannel.next_error hexec]
          exact .panicked hP hd hexec
      | ok w' =>
          rw [paymentChannel.next_ok hexec]
          exact .returned hP hd htyped hexec

end StellarAgent.PaymentChannel
