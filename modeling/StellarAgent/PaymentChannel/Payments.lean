import StellarAgent.PaymentChannel.Storage

set_option autoImplicit false

/-! # Opening, paying, topping up and closing

The entry points of `lib.rs` that move tokens on chain. The three payment functions repeat the
same period reset, spend check and bookkeeping; those blocks are `rollPeriod`, `checkSpend` and
`debit` here.
-/

namespace StellarAgent.PaymentChannel

open Lib Soroban

/-- `require_not_paused` -/
def requireNotPaused (env : Env) (w : State) : Result Unit :=
  match w.storage.wired .cb with
  | some circuit_breaker => do
      let is_paused ← invokeContract env circuit_breaker (env.is_paused circuit_breaker)
      panicIf (is_paused = true) "system paused"
  | none => .ok ()

def openChannel (env : Env) (w : State) (owner agent token : Address)
    (deposit limit_per_period : Int) (period : SpendPeriod) : Result (Nat × State) := do
  requireAuth env owner
  panicIf (deposit ≤ 0) "deposit must be positive"
  panicIf (limit_per_period ≤ 0) "limit must be positive"
  panicIf (limit_per_period > deposit) "limit cannot exceed deposit"
  let w ← w.transfer token owner env.self deposit
  -- the deposit is in; it is all collateral, and nothing is promised yet
  let channel : Channel := {
    agent, owner, token, limit_per_period, period
    spent_this_period := 0
    period_start_ledger := w.sequence
    total_spent := 0
    active := true
    collateral := deposit
    allocated := 0
    voucher_signer := none
    dispute_ledgers := DEFAULT_DISPUTE_LEDGERS }
  let (channel_id, w) ← nextId w
  let w := storeChannel w channel_id channel
  let w := w.publish (.opened channel_id agent owner deposit)
  return (channel_id, w.publish (.channelState channel_id channel))

/-! ## The blocks the payment functions share -/

def ledgersPerPeriod : SpendPeriod → Nat
  | .PerLedger => 1
  | .Hourly => 720
  | .Daily => 17280

/-- Reset the period if it has run out. -/
def rollPeriod (current_ledger : Nat) (channel : Channel) : Result Channel := do
  let expiry ← checkU32 (channel.period_start_ledger + ledgersPerPeriod channel.period)
  -- the new period starts at the first payment after the old one has run out, not on a grid
  if current_ledger ≥ expiry then
    return { channel with spent_this_period := 0, period_start_ledger := current_ledger }
  else return channel

/-- The spend limit, and that the channel holds the money free of allocations. -/
def checkSpend (channel : Channel) (amount : Int) : Result Unit := do
  let spent ← checkI128 (channel.spent_this_period + amount)
  panicIf (spent > channel.limit_per_period) "spend limit exceeded for this period"
  -- the limit is a rate and comes back every period; the collateral does not
  let free ← checkI128 (channel.collateral - channel.allocated)
  panicIf (amount > free) "insufficient channel collateral"

/-- Update the channel record for a payment of `amount`. -/
def debit (channel : Channel) (amount : Int) : Result Channel := do
  let spent_this_period ← checkI128 (channel.spent_this_period + amount)
  let total_spent ← checkI128 (channel.total_spent + amount)
  let collateral ← checkI128 (channel.collateral - amount)
  return { channel with spent_this_period, total_spent, collateral }

def pay (env : Env) (w : State) (agent : Address) (channel_id : Nat) (recipient : Address)
    (amount : Int) (memo : Bytes) : Result State := do
  requireNotPaused env w
  requireAuth env agent
  let channel ← unwrapChannel w channel_id
  panicIf (channel.active = false) "channel is closed"
  panicIf (channel.agent ≠ agent) "not the authorized agent"
  panicIf (amount ≤ 0) "amount must be positive"
  let channel ← rollPeriod w.sequence channel
  checkSpend channel amount
  let w ← w.transfer channel.token env.self recipient amount
  let channel ← debit channel amount
  let w := storeChannel w channel_id channel
  let w := w.publish (.paid channel_id agent recipient amount memo)
  return w.publish (.stateChannel channel_id channel)

/-! ## Conversions -/

/-- The minimum the recipient must be promised, 5% below the oracle's price. -/
def requireOracleFloor (env : Env) (w : State) (send_token : Address) (send_amount : Int)
    (dest_token : Address) (min_received : Int) : Result Unit := do
  let price_oracle ← expect (w.storage.wired .po) "price oracle not configured"
  let price ← invokeContract env price_oracle (env.get_price price_oracle send_token dest_token)
  panicIf (price ≤ 0) "invalid price from oracle"
  -- `checked_mul`: an overflow has a text of its own here
  let product ← expect (if IsI128 (send_amount * price) then some (send_amount * price) else none)
    "overflow computing expected output"
  let expected_dest := product.tdiv PRICE_SCALE
  let scaled ← checkI128 (expected_dest * (BPS_DENOMINATOR - MAX_SLIPPAGE_BPS))
  let floor := scaled.tdiv BPS_DENOMINATOR
  panicIf (min_received < floor)
    "slippage tolerance exceeds maximum allowed deviation from oracle price"

/-- `invoke_contract(venue, "execute_swap", ..)`: the venue sends what it likes to the recipient
it was given and returns a number of its choice. -/
def executeSwap (env : Env) (w : State) (venue : Address) (args : SwapArgs) :
    Result (Int × State) := do
  let reply ← invokeContract env venue (env.execute_swap venue args)
  let w ← w.transfer args.to_token venue args.recipient reply.delivered
  return (reply.output, w)

def executeConversion (env : Env) (w : State) (send_token : Address) (send_amount : Int)
    (dest_token : Address) (min_received : Int) (recipient : Address) : Result (Int × State) := do
  let amm ← expect (w.storage.wired .amm) "amm not configured"
  requireOracleFloor env w send_token send_amount dest_token min_received
  let w ← w.transfer send_token env.self amm send_amount
  executeSwap env w amm
    { from_token := send_token, from_amount := send_amount, to_token := dest_token
      min_out := min_received, recipient }

/-- The validation loop of `execute_route`: the token the route ends in. -/
def validateRoute (self : Address) : Address → List Address → List SwapHop → Result Address
  | current_token, _, [] => .ok current_token
  | current_token, seen, hop :: route => do
      panicIf (hop.from_token ≠ current_token) "route asset discontinuity"
      panicIf (hop.from_token = hop.to_token) "route hop must change assets"
      panicIf (hop.min_out < 0) "route min_out cannot be negative"
      panicIf (hop.venue = self) "route venue cannot be the payment channel"
      panicIf (hop.to_token ∈ seen) "route contains an asset cycle"
      validateRoute self hop.to_token (seen ++ [hop.to_token]) route

/-- The execution loop of `execute_route`: the amount the last hop returned. -/
def runHops (env : Env) (min_received : Int) (recipient : Address) :
    State → Int → List SwapHop → Result (Int × State)
  | w, current_amount, [] => .ok (current_amount, w)
  | w, current_amount, hop :: route => do
      let is_final : Bool := route.isEmpty
      -- between two hops the contract itself holds the money
      let receiver := if is_final then recipient else env.self
      let execution_floor := if is_final ∧ min_received > hop.min_out then min_received
        else hop.min_out
      let w ← w.transfer hop.from_token env.self hop.venue current_amount
      let (output, w) ← executeSwap env w hop.venue
        { from_token := hop.from_token, from_amount := current_amount
          to_token := hop.to_token, min_out := execution_floor, recipient := receiver }
      -- the number is all that is looked at; what arrived is not
      panicIf (output ≤ 0 ∨ output < execution_floor) "route venue returned output below floor"
      runHops env min_received recipient w output route

def executeRoute (env : Env) (w : State) (send_token : Address) (send_amount : Int)
    (dest_token : Address) (route : List SwapHop) (min_received : Int) (recipient : Address) :
    Result (Int × State) := do
  panicIf (route = []) "cross-asset route must contain at least one hop"
  panicIf (route.length > MAX_ROUTE_HOPS) "route exceeds maximum hop count"
  let current_token ← validateRoute env.self send_token [send_token] route
  panicIf (current_token ≠ dest_token) "route does not reach destination token"
  requireOracleFloor env w send_token send_amount dest_token min_received
  let (current_amount, w) ← runHops env min_received recipient w send_amount route
  panicIf (current_amount < min_received) "route output below end-to-end minimum"
  return (current_amount, w)

def payWithConversion (env : Env) (w : State) (agent : Address) (channel_id : Nat)
    (recipient : Address) (amount : Int) (dest_token : Address) (min_received : Int)
    (memo : Bytes) : Result (Int × State) := do
  requireNotPaused env w
  requireAuth env agent
  -- unlike in `pay`, the amount is checked before the channel is read
  panicIf (amount ≤ 0) "amount must be positive"
  panicIf (min_received < 0) "min_received cannot be negative"
  let channel ← unwrapChannel w channel_id
  panicIf (channel.active = false) "channel is closed"
  panicIf (channel.agent ≠ agent) "not the authorized agent"
  let channel ← rollPeriod w.sequence channel
  checkSpend channel amount
  let (received, w) ←
    -- nothing to convert: the same asset goes out one to one
    (if dest_token = channel.token then do
      panicIf (min_received > amount) "min_received cannot exceed amount for a same-asset payment"
      let w ← w.transfer channel.token env.self recipient amount
      return (amount, w)
    else executeConversion env w channel.token amount dest_token min_received recipient)
  let channel ← debit channel amount
  let w := storeChannel w channel_id channel
  let w := w.publish (.convpaid channel_id agent recipient amount dest_token received memo)
  return (received, w.publish (.stateChannel channel_id channel))

def payWithRoute (env : Env) (w : State) (agent : Address) (channel_id : Nat)
    (recipient : Address) (amount : Int) (dest_token : Address) (route : List SwapHop)
    (min_received : Int) (valid_until_ledger : Nat) (memo : Bytes) : Result (Int × State) := do
  requireNotPaused env w
  requireAuth env agent
  panicIf (amount ≤ 0) "amount must be positive"
  panicIf (min_received < 0) "min_received cannot be negative"
  panicIf (w.sequence > valid_until_ledger) "route quote expired"
  let channel ← unwrapChannel w channel_id
  panicIf (channel.active = false) "channel is closed"
  panicIf (channel.agent ≠ agent) "not the authorized agent"
  let channel ← rollPeriod w.sequence channel
  checkSpend channel amount
  let (received, w) ←
    (if dest_token = channel.token then do
      -- nothing to convert, so nothing to route
      panicIf (route ≠ []) "same-asset payment route must be empty"
      panicIf (min_received > amount) "min_received cannot exceed amount for a same-asset payment"
      let w ← w.transfer channel.token env.self recipient amount
      return (amount, w)
    else executeRoute env w channel.token amount dest_token route min_received recipient)
  let channel ← debit channel amount
  let w := storeChannel w channel_id channel
  let w := w.publish
    (.routepay channel_id agent recipient amount dest_token received route.length memo)
  return (received, w.publish (.stateChannel channel_id channel))

/-! ## Topping up and closing -/

def topUp (env : Env) (w : State) (owner : Address) (channel_id : Nat) (amount : Int) :
    Result State := do
  requireAuth env owner
  let channel ← unwrapChannel w channel_id
  panicIf (channel.owner ≠ owner) "not the channel owner"
  panicIf (channel.active = false) "channel is closed"
  panicIf (amount ≤ 0) "amount must be positive"
  let w ← w.transfer channel.token owner env.self amount
  let collateral ← checkI128 (channel.collateral + amount)
  let channel := { channel with collateral }
  let w := storeChannel w channel_id channel
  let w := w.publish (.topup channel_id owner amount)
  return w.publish (.stateChannel channel_id channel)

def closeChannel (env : Env) (w : State) (owner : Address) (channel_id : Nat) :
    Result State := do
  requireAuth env owner
  let channel ← unwrapChannel w channel_id
  panicIf (channel.owner ≠ owner) "not the channel owner"
  let refund ← checkI128 (channel.collateral - channel.allocated)
  let (channel, w) ←
    (if refund > 0 then do
      -- only the free part goes back, the allocations stay claimable
      let w ← w.transfer channel.token env.self owner refund
      let collateral ← checkI128 (channel.collateral - refund)
      return ({ channel with collateral }, w)
    else return (channel, w))
  let channel := { channel with active := false }
  let w := storeChannel w channel_id channel
  let w := w.publish (.closed channel_id owner refund)
  return w.publish (.stateChannel channel_id channel)

end StellarAgent.PaymentChannel
