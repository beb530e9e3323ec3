import StellarAgent.PaymentChannel.Scenario
import StellarAgent.PaymentChannel.Solvency

set_option autoImplicit false

/-! # The slippage floor

A payment in another asset promises the recipient at least `min_received`, which is not below the
oracle's floor. What is compared with it is the number a venue returns. The recipient gets what the
venue of the last hop sends, so the floor binds exactly when that venue sends enough
(`slippage_floor_iff`).
-/

namespace StellarAgent.PaymentChannel

open Lib Soroban

/-! ## What is promised and what arrives -/

/-- The least amount the oracle's price allows: 5% below it, each division truncating -/
def oracleFloor (amount price : Int) : Int :=
  ((amount * price).tdiv PRICE_SCALE * (BPS_DENOMINATOR - MAX_SLIPPAGE_BPS)).tdiv BPS_DENOMINATOR

/-- What the balance of the recipient grows by when the venue sends `delivered` to them: a venue
that is the recipient itself only pays itself. -/
def arrives (venue recipient : Address) (delivered : Nat) : Int :=
  if venue = recipient then 0 else delivered

/-- The venue of the last hop, and its reply; each venue is asked with the number the one before it
returned. -/
def lastReply (env : Env) (min_received : Int) (recipient : Address) :
    Int → List SwapHop → Option (Address × SwapReply)
  | _, [] => none
  | current_amount, hop :: route =>
      (env.execute_swap hop.venue
        { from_token := hop.from_token, from_amount := current_amount, to_token := hop.to_token
          min_out := if route.isEmpty ∧ min_received > hop.min_out then min_received
            else hop.min_out
          recipient := if route.isEmpty then recipient else env.self }).bind fun reply =>
        if route.isEmpty then some (hop.venue, reply)
        else lastReply env min_received recipient reply.output route

/-- What a payment of `amount` from channel `id` promises: the recipient's balance of `dest_token`
grows by the minimum and by the oracle's floor, and the channel is charged `amount`. -/
structure FloorBinds (env : Env) (w w' : State) (id : Nat) (recipient dest_token : Address)
    (amount min_received : Int) : Prop where
  minimum : min_received ≤ w'.balance dest_token recipient - w.balance dest_token recipient
  floor : ∀ ch price_oracle price, (loadChannels w).lookup id = some ch →
    w.storage.wired .po = some price_oracle →
    env.get_price price_oracle ch.token dest_token = some price →
    oracleFloor amount price ≤ w'.balance dest_token recipient - w.balance dest_token recipient
  charged : ∀ ch, (loadChannels w).lookup id = some ch → ∃ ch',
    (loadChannels w').lookup id = some ch' ∧ ch'.collateral = ch.collateral - amount ∧
      ch'.total_spent = ch.total_spent + amount

section

variable {env : Env} {w w' : State} {id : Nat} {r : Address}

/-! ## The floor -/

theorem requireOracleFloor_ok {send_token dest_token : Address} {amount min_received : Int}
    {u : Unit} (h : requireOracleFloor env w send_token amount dest_token min_received = .ok u)
    {price_oracle : Address} {price : Int} (hwired : w.storage.wired .po = some price_oracle)
    (hprice : env.get_price price_oracle send_token dest_token = some price) :
    oracleFloor amount price ≤ min_received := by
  simp only [requireOracleFloor, Result.bind_eq_ok, expect_eq_ok, invokeContract_eq_ok,
    panicIf_eq_ok, checkI128_eq_ok] at h
  obtain ⟨oracle, horacle, price', ⟨_, hprice'⟩, _, _, product, hproduct, _, ⟨_, rfl⟩, hfloor⟩ := h
  cases hwired.symm.trans horacle
  cases hprice.symm.trans hprice'
  split at hproduct
  · cases hproduct
    exact not_lt.mp hfloor
  · cases hproduct

/-! ## The balance of the recipient -/

/-- A token that is not the one moved stays where it is. -/
theorem move_other (L : TokenLedger) {token other source dest holder : Address} {amount : Int}
    (h : other ≠ token) : L.move token source dest amount other holder = L other holder :=
  if_neg h

/-- What a venue sends to the recipient arrives. -/
theorem move_arrives (L : TokenLedger) (token venue recipient : Address) (delivered : Nat) :
    L.move token venue recipient delivered token recipient =
      L token recipient + arrives venue recipient delivered := by
  unfold TokenLedger.move arrives
  by_cases hself : venue = recipient
  · simp [hself]
  · simp [hself, Ne.symm hself]

/-- The destination of a route is in no token the route has been through. -/
theorem dest_not_seen {self current_token dest_token : Address} {seen : List Address}
    {route : List SwapHop} (hne : route ≠ [])
    (h : validateRoute self current_token seen route = .ok dest_token) : dest_token ∉ seen := by
  induction route generalizing current_token seen with
  | nil => exact absurd rfl hne
  | cons hop route ih =>
      obtain ⟨-, -, hfresh, hrest⟩ := validateRoute_cons h
      cases route with
      | nil =>
          cases hrest
          exact hfresh
      | cons hop' route =>
          have hdest := ih (List.cons_ne_nil hop' route) hrest
          exact fun hmem => hdest (List.mem_append_left _ hmem)

/-- **What a route brings**: only the last hop sends the destination token, and to the recipient. -/
theorem runHops_recipient {min_received received current : Int} {dest_token current_token : Address}
    {seen : List Address} {route : List SwapHop} (hne : route ≠ []) (hcurrent : current_token ∈ seen)
    (hvalid : validateRoute env.self current_token seen route = .ok dest_token)
    (h : runHops env min_received r w current route = .ok (received, w')) :
    ∃ venue reply, lastReply env min_received r current route = some (venue, reply) ∧
      w'.balance dest_token r = w.balance dest_token r + arrives venue r reply.delivered := by
  induction route generalizing w current current_token seen with
  | nil => exact absurd rfl hne
  | cons hop route ih =>
      have hdest := dest_not_seen hne hvalid
      obtain ⟨rfl, -, -, hrest⟩ := validateRoute_cons hvalid
      have hfrom : dest_token ≠ hop.from_token := fun heq => hdest (heq ▸ hcurrent)
      simp only [runHops, Result.bind_eq_ok, World.transfer_eq_ok, panicIf_eq_ok] at h
      obtain ⟨w1, ⟨_, _, rfl⟩, ⟨output, w2⟩, hswap, _, _, hhops⟩ := h
      obtain ⟨reply, -, hreply, rfl, rfl⟩ := executeSwap_ok hswap
      cases route with
      | nil =>
          cases hrest
          cases hhops
          refine ⟨hop.venue, reply, ?_, ?_⟩
          · rw [lastReply]
            simp only [List.isEmpty_nil, true_and, if_true] at hreply ⊢
            rw [hreply]
            rfl
          · simp only [World.moved_balance, List.isEmpty_nil, if_true]
            rw [move_arrives, move_other _ hfrom]
      | cons hop' route =>
          have hto : dest_token ≠ hop.to_token := by
            have hnext := dest_not_seen (List.cons_ne_nil hop' route) hrest
            exact fun heq => hnext (heq ▸ List.mem_append_right seen List.mem_cons_self)
          obtain ⟨venue, last, hlast, hbalance⟩ := ih (List.cons_ne_nil hop' route)
            (List.mem_append_right seen List.mem_cons_self) hrest hhops
          refine ⟨venue, last, ?_, ?_⟩
          · rw [lastReply]
            simp only [List.isEmpty_cons, Bool.false_eq_true, false_and, if_false] at hreply ⊢
            rw [hreply]
            exact hlast
          · rw [hbalance]
            simp only [World.moved_balance, List.isEmpty_cons, Bool.false_eq_true, if_false]
            rw [move_other _ hto, move_other _ hfrom]

/-! ## The payments -/

/-- What is left to show once the growth of the recipient's balance is known -/
theorem floorBinds_iff {dest_token : Address} {amount min_received grown : Int} {ch ch' : Channel}
    (hl : (loadChannels w).lookup id = some ch) (hl' : (loadChannels w').lookup id = some ch')
    (hdebit : Book.Debit w.sequence ch amount ch')
    (hgrown : w'.balance dest_token r = w.balance dest_token r + grown)
    (hfloor : ∀ price_oracle price, w.storage.wired .po = some price_oracle →
      env.get_price price_oracle ch.token dest_token = some price →
      oracleFloor amount price ≤ min_received) :
    FloorBinds env w w' id r dest_token amount min_received ↔ min_received ≤ grown := by
  have hdifference : w'.balance dest_token r - w.balance dest_token r = grown := by
    rw [hgrown]
    omega
  constructor
  · intro h
    rw [← hdifference]
    exact h.minimum
  · intro h
    refine ⟨by rwa [hdifference], ?_, ?_⟩
    · intro ch₁ price_oracle price hl₁ hwired hprice
      cases hl.symm.trans hl₁
      rw [hdifference]
      exact (hfloor price_oracle price hwired hprice).trans h
    · intro ch₁ hl₁
      cases hl.symm.trans hl₁
      exact ⟨ch', hl', by rw [hdebit.result], by rw [hdebit.result]⟩

/-- What a successful route did before its last check -/
theorem executeRoute_floor {send_token dest_token : Address} {amount min_received received : Int}
    {route : List SwapHop}
    (h : executeRoute env w send_token amount dest_token route min_received r
      = .ok (received, w')) :
    ∀ price_oracle price, w.storage.wired .po = some price_oracle →
      env.get_price price_oracle send_token dest_token = some price →
      oracleFloor amount price ≤ min_received := by
  simp only [executeRoute, Result.bind_eq_ok, panicIf_eq_ok] at h
  obtain ⟨_, _, _, _, dest, _, _, hdest, _, hfloor, _⟩ := h
  rw [not_not] at hdest
  subst hdest
  intro price_oracle price hwired hprice
  exact requireOracleFloor_ok hfloor hwired hprice

/-- What a conversion brings: the venue is the configured one, and it is asked once. -/
theorem executeConversion_recipient {send_token dest_token : Address}
    {amount min_received received : Int} (hother : dest_token ≠ send_token)
    (h : executeConversion env w send_token amount dest_token min_received r
      = .ok (received, w')) :
    ∃ amm reply, w.storage.wired .amm = some amm ∧
      env.execute_swap amm
        { from_token := send_token, from_amount := amount, to_token := dest_token
          min_out := min_received, recipient := r } = some reply ∧
      w'.balance dest_token r = w.balance dest_token r + arrives amm r reply.delivered ∧
      ∀ price_oracle price, w.storage.wired .po = some price_oracle →
        env.get_price price_oracle send_token dest_token = some price →
        oracleFloor amount price ≤ min_received := by
  simp only [executeConversion, Result.bind_eq_ok, expect_eq_ok, World.transfer_eq_ok] at h
  obtain ⟨amm, hamm, _, hfloor, w1, ⟨_, _, rfl⟩, hswap⟩ := h
  obtain ⟨reply, -, hreply, -, rfl⟩ := executeSwap_ok hswap
  refine ⟨amm, reply, hamm, hreply, ?_, ?_⟩
  · simp only [World.moved_balance]
    rw [move_arrives, move_other _ hother]
  · intro price_oracle price hwired hprice
    exact requireOracleFloor_ok hfloor hwired hprice

/-- **The slippage floor** binds what the recipient of a payment in another asset gets exactly when
the last venue really sends the minimum to them, and they are not that venue. -/
theorem slippage_floor_iff {agent dest_token : Address} {amount min_received received : Int}
    {ch : Channel} (hl : (loadChannels w).lookup id = some ch) (hother : dest_token ≠ ch.token) :
    (∀ route valid_until_ledger memo,
      payWithRoute env w agent id r amount dest_token route min_received valid_until_ledger memo =
          .ok (received, w') →
        (FloorBinds env w w' id r dest_token amount min_received ↔
          ∃ venue reply, lastReply env min_received r amount route = some (venue, reply) ∧
            min_received ≤ arrives venue r reply.delivered)) ∧
    ∀ memo, payWithConversion env w agent id r amount dest_token min_received memo =
        .ok (received, w') →
      (FloorBinds env w w' id r dest_token amount min_received ↔
        ∃ amm reply, w.storage.wired .amm = some amm ∧
          env.execute_swap amm
            { from_token := ch.token, from_amount := amount, to_token := dest_token
              min_out := min_received, recipient := r } = some reply ∧
          min_received ≤ arrives amm r reply.delivered) := by
  constructor
  · intro route valid_until_ledger memo h
    obtain ⟨ch₁, ch', paid, hl₁, hdebit, hpaid, rfl⟩ := payWithRoute_ok h
    cases hl.symm.trans hl₁
    obtain ⟨hsame, -, -⟩ | hroute := hpaid
    · exact absurd hsame hother
    obtain ⟨hne, hvalid, hhops⟩ := executeRoute_ok hroute
    obtain ⟨venue, reply, hlast, hbalance⟩ :=
      runHops_recipient hne (List.mem_singleton_self ch.token) hvalid hhops
    refine Iff.trans (floorBinds_iff hl (Finmap.lookup_insert _) hdebit hbalance
      (executeRoute_floor hroute)) ?_
    constructor
    · intro hsent
      exact ⟨venue, reply, hlast, hsent⟩
    · rintro ⟨venue₁, reply₁, hlast₁, hsent⟩
      cases hlast.symm.trans hlast₁
      exact hsent
  · intro memo h
    obtain ⟨ch₁, ch', paid, hl₁, hdebit, hpaid, rfl⟩ := payWithConversion_ok h
    cases hl.symm.trans hl₁
    obtain ⟨hsame, -⟩ | hconversion := hpaid
    · exact absurd hsame hother
    obtain ⟨amm, reply, hamm, hreply, hbalance, hfloor⟩ :=
      executeConversion_recipient hother hconversion
    refine Iff.trans (floorBinds_iff hl (Finmap.lookup_insert _) hdebit hbalance hfloor) ?_
    constructor
    · intro hsent
      exact ⟨amm, reply, hamm, hreply, hsent⟩
    · rintro ⟨amm₁, reply₁, hamm₁, hreply₁, hsent⟩
      cases hamm.symm.trans hamm₁
      cases hreply.symm.trans hreply₁
      exact hsent

end

/-! ## A venue that reports and does not deliver -/

section

open Scenario

/-- The venue reports 95 and sends nothing. -/
def emptyHanded (_ : SwapArgs) : Option SwapReply := some ⟨95, 0⟩

/-- A channel of 100 USDC, on a deployment with a price oracle -/
def fundedChannel : State := outcome [
  .invoke [owner] honestSwap (.setPriceOracle owner oracle),
  .invoke [owner] honestSwap (.openChannel owner agent usdc 100 100 .Daily)]

/-- 100 USDC are paid towards EURC, of which the recipient is to get 95. -/
def emptyHandedPayment : Result (Int × State) :=
  payWithRoute (callBy [agent] emptyHanded) fundedChannel agent 1 recipient 100 eurc
    [⟨venue, usdc, eurc, 95⟩] 95 200 []

/-- What the call returned -/
def emptyHandedResult : Int × State :=
  match emptyHandedPayment with
  | .ok result => result
  | .error _ => (0, fundedChannel)

theorem emptyHandedPayment_ok : emptyHandedPayment = .ok emptyHandedResult := by
  have hok : emptyHandedPayment.isOk = true := by decide +kernel
  obtain ⟨result, hresult⟩ := Result.exists_of_isOk hok
  rw [emptyHandedResult, hresult]

/-- The channel of `fundedChannel` -/
def fundedRecord : Channel where
  agent := agent
  owner := owner
  token := usdc
  limit_per_period := 100
  period := .Daily
  spent_this_period := 0
  period_start_ledger := 100
  total_spent := 0
  active := true
  collateral := 100
  allocated := 0
  voucher_signer := none
  dispute_ledgers := DEFAULT_DISPUTE_LEDGERS

theorem fundedChannel_lookup : (loadChannels fundedChannel).lookup 1 = some fundedRecord := by
  decide +kernel

/-- The channel is charged, and the recipient has no EURC more than before. -/
theorem empty_handed_route :
    ¬ ∀ (env : Env) (w w' : State) (agent r dest_token : Address) (id : Nat) (route : List SwapHop)
      (amount min_received received : Int) (valid_until_ledger : Nat) (memo : Bytes) (ch : Channel),
      (∀ amm args reply, w.storage.wired .amm = some amm →
        env.execute_swap amm args = some reply → reply.output = reply.delivered) →
      (loadChannels w).lookup id = some ch → dest_token ≠ ch.token →
      payWithRoute env w agent id r amount dest_token route min_received valid_until_ledger memo =
        .ok (received, w') →
      FloorBinds env w w' id r dest_token amount min_received := by
  intro h
  have hamm : fundedChannel.storage.wired .amm = none := by decide +kernel
  have hbinds := h _ _ _ _ _ _ _ _ _ _ _ _ _ _ (fun _ _ _ hwired => nomatch hamm.symm.trans hwired)
    fundedChannel_lookup (by decide) emptyHandedPayment_ok
  exact absurd hbinds.minimum (by decide +kernel)

theorem slippage_floor_iff_empty_handed :
    FloorBinds (callBy [agent] emptyHanded) fundedChannel emptyHandedResult.2 1 recipient eurc 100 95
      ↔ ∃ venue' reply,
        lastReply (callBy [agent] emptyHanded) 95 recipient 100 [⟨venue, usdc, eurc, 95⟩]
          = some (venue', reply) ∧ 95 ≤ arrives venue' recipient reply.delivered :=
  (slippage_floor_iff fundedChannel_lookup (by decide)).1 _ _ _ emptyHandedPayment_ok

end

end StellarAgent.PaymentChannel
