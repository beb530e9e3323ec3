import StellarAgent.PaymentChannel.Payments
import StellarAgent.PaymentChannel.Voucher

set_option autoImplicit false

/-! # Voucher settlement

Enabling vouchers, reserving collateral, and the three ways to close: cooperatively, or by a
unilateral close that is challenged and finalized.
-/

namespace StellarAgent.PaymentChannel

open Lib Soroban

def enableVouchers (env : Env) (w : State) (owner : Address) (channel_id : Nat)
    (voucher_signer : BytesN 32) (dispute_ledgers : Nat) : Result State := do
  requireAuth env owner
  panicIf (dispute_ledgers < MIN_DISPUTE_LEDGERS) "dispute window is below the minimum"
  let channel ← loadChannel w channel_id
  panicIf (channel.owner ≠ owner) "not the channel owner"
  panicIf (channel.active = false) "channel is closed"
  -- key and window are replaced, whatever allocation or close is under way
  let channel := { channel with voucher_signer := some voucher_signer, dispute_ledgers }
  let w := saveChannel w channel_id channel
  return w.publish (.enabled channel_id voucher_signer dispute_ledgers)

def allocate (env : Env) (w : State) (owner : Address) (channel_id : Nat) (recipient : Address)
    (amount : Int) : Result State := do
  requireAuth env owner
  panicIf (amount ≤ 0) "allocation must be positive"
  let channel ← loadChannel w channel_id
  panicIf (channel.owner ≠ owner) "not the channel owner"
  panicIf (channel.active = false) "channel is closed"
  panicIf (channel.voucher_signer = none) "vouchers are not enabled for this channel"
  let free ← checkI128 (channel.collateral - channel.allocated)
  panicIf (amount > free) "insufficient free collateral to allocate"
  -- a close freezes the reservation it settles against
  panicIf (settlement w channel_id recipient ≠ none)
    "a close is already in flight for this recipient"
  -- a second allocation adds to the first, and keeps what was settled
  let old := (allocation w channel_id recipient).getD { amount := 0, settled := 0 }
  let reserved ← checkI128 (old.amount + amount)
  let allocated ← checkI128 (channel.allocated + amount)
  let w := persistAllocation w channel_id recipient { old with amount := reserved }
  let w := saveChannel w channel_id { channel with allocated }
  return w.publish (.allocated channel_id recipient amount reserved)

def withdrawFree (env : Env) (w : State) (owner : Address) (channel_id : Nat) :
    Result (Int × State) := do
  requireAuth env owner
  let channel ← loadChannel w channel_id
  -- no check that the channel is active: free collateral can be taken out after closing
  panicIf (channel.owner ≠ owner) "not the channel owner"
  let free ← checkI128 (channel.collateral - channel.allocated)
  if free ≤ 0 then return (0, w)
  else
    let w ← w.transfer channel.token env.self owner free
    let collateral ← checkI128 (channel.collateral - free)
    let w := saveChannel w channel_id { channel with collateral }
    return (free, w.publish (.withdrew channel_id owner free))

/-- `verify_voucher`: every check a voucher must pass before it may influence a payout. -/
def verifyVoucher (env : Env) (w : State) (channel : Channel) (channel_id : Nat)
    (recipient : Address) (sequence : Nat) (cumulative_amount : Int) (signature : BytesN 64) :
    Result Unit := do
  let signer ← expect channel.voucher_signer "vouchers are not enabled for this channel"
  panicIf (cumulative_amount ≤ 0) "voucher amount must be positive"
  let a ← expect (allocation w channel_id recipient) "no allocation for this recipient"
  -- both bounds are on the cumulative amount, from the first allocation on
  panicIf (cumulative_amount > a.amount) "voucher exceeds the allocation for this recipient"
  panicIf (cumulative_amount ≤ a.settled) "voucher has already been settled"
  requireValidSignature env signer channel_id recipient sequence cumulative_amount signature

/-- `pay_out`: transfer a settled voucher and release its allocation. -/
def payOut (env : Env) (w : State) (channel_id : Nat) (recipient : Address)
    (amount penalty : Int) : Result State := do
  let channel ← loadChannel w channel_id
  let a ← expect (allocation w channel_id recipient) "no allocation for this recipient"
  let owed ← checkI128 (amount - a.settled)
  let due ← checkI128 (owed + penalty)
  panicIf (due < 0) "nothing owed"
  panicIf (due > channel.collateral) "insufficient channel collateral"
  let w ← w.transfer channel.token env.self recipient due
  let allocated ← checkI128 (channel.allocated - a.amount)
  let collateral ← checkI128 (channel.collateral - due)
  let total_spent ← checkI128 (channel.total_spent + due)
  -- the whole allocation is released; voucher and penalty count as settled together
  let settled ← checkI128 (amount + penalty)
  let w := persistAllocation w channel_id recipient { amount := 0, settled }
  return saveChannel w channel_id { channel with allocated, collateral, total_spent }

def closeCooperative (env : Env) (w : State) (channel_id : Nat) (recipient : Address)
    (sequence : Nat) (cumulative_amount : Int) (signature : BytesN 64) :
    Result (Int × State) := do
  requireNotPaused env w
  let channel ← loadChannel w channel_id
  -- both sides agree, so there is no window
  requireAuth env channel.owner
  requireAuth env recipient
  verifyVoucher env w channel channel_id recipient sequence cumulative_amount signature
  panicIf (settlement w channel_id recipient ≠ none)
    "a close is already in flight; challenge or finalize it"
  let w ← payOut env w channel_id recipient cumulative_amount 0
  return (cumulative_amount,
    w.publish (.coopclose channel_id recipient sequence cumulative_amount))

def closeUnilateral (env : Env) (w : State) (closer : Address) (channel_id : Nat)
    (recipient : Address) (sequence : Nat) (cumulative_amount : Int) (signature : BytesN 64) :
    Result State := do
  requireNotPaused env w
  requireAuth env closer
  let channel ← loadChannel w channel_id
  -- anybody can close, with a voucher that stands up
  verifyVoucher env w channel channel_id recipient sequence cumulative_amount signature
  panicIf (settlement w channel_id recipient ≠ none)
    "a close is already in flight for this recipient"
  let w := persistSettlement w channel_id recipient {
    best_sequence := sequence
    best_cumulative := cumulative_amount
    opened_cumulative := cumulative_amount
    opened_at_ledger := w.sequence
    closed_by_payer := closer = channel.owner ∨ closer = channel.agent }
  return w.publish
    (.closing channel_id recipient closer cumulative_amount channel.dispute_ledgers)

def challenge (env : Env) (w : State) (channel_id : Nat) (recipient : Address)
    (sequence : Nat) (cumulative_amount : Int) (signature : BytesN 64) : Result State := do
  let channel ← loadChannel w channel_id
  verifyVoucher env w channel channel_id recipient sequence cumulative_amount signature
  let s ← expect (settlement w channel_id recipient) "no close is in flight for this recipient"
  -- the end of the window is computed from the record as it is now
  let window_end ← checkU32 (s.opened_at_ledger + channel.dispute_ledgers)
  panicIf (w.sequence ≥ window_end) "the challenge window has closed"
  panicIf (supersedes cumulative_amount s.best_cumulative = false)
    "voucher does not supersede the current best"
  let w := persistSettlement w channel_id recipient
    { s with best_sequence := sequence, best_cumulative := cumulative_amount }
  return w.publish (.challenge channel_id recipient sequence cumulative_amount)

/-- The penalty `finalize` imposes: what a payer-side close withheld, as far as the allocation
still covers it. -/
def penaltyFor (s : Settlement) (a : Allocation) : Result Int :=
  if s.closed_by_payer ∧ s.best_cumulative > s.opened_cumulative then do
    let understatement ← checkI128 (s.best_cumulative - s.opened_cumulative)
    let reclaimable ← checkI128 (a.amount - s.best_cumulative)
    pure (if understatement < reclaimable then understatement else reclaimable)
  else pure 0

def finalize (env : Env) (w : State) (channel_id : Nat) (recipient : Address) :
    Result (Int × State) := do
  let channel ← loadChannel w channel_id
  let s ← expect (settlement w channel_id recipient) "no close is in flight for this recipient"
  let window_end ← checkU32 (s.opened_at_ledger + channel.dispute_ledgers)
  panicIf (w.sequence < window_end) "the challenge window is still open"
  let a ← expect (allocation w channel_id recipient) "no allocation for this recipient"
  let penalty ← penaltyFor s a
  -- the close ends here, before the money moves
  let w := removeSettlement w channel_id recipient
  let w ← payOut env w channel_id recipient s.best_cumulative penalty
  let w := w.publish
    (.finalized channel_id recipient s.best_sequence s.best_cumulative penalty)
  let paid ← checkI128 (s.best_cumulative + penalty)
  return (paid, w)

end StellarAgent.PaymentChannel
