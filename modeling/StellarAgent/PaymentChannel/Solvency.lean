import StellarAgent.PaymentChannel.Refinement
import StellarAgent.PaymentChannel.Scenario

set_option autoImplicit false

/-! # Solvency of the pool

All channels of a token draw on one balance. `surplus` is what the contract holds of a token
beyond the collateral it owes. No entry point but `pay_with_route` can lower it
(`step_surplus`), and a route lowers it by exactly what its intermediate hops reported and did not
deliver, its `shortfall`.
-/

namespace StellarAgent.PaymentChannel

open Lib Soroban

/-! ## Surplus and shortfall -/

/-- The collateral of all channels in `token`. -/
def Book.owed (b : Book) (token : Address) : Int :=
  Map.total (fun _ ch => if ch.token = token then ch.collateral else 0) b.channels

/-- The contract holds the collateral of its channels. -/
def Solvent (d : Deployment) (w : State) : Prop :=
  ∀ token, (book w).owed token ≤ w.balance token d.address

def surplus (d : Deployment) (w : State) (token : Address) : Int :=
  w.balance token d.address - (book w).owed token

/-- How much less of `token` than reported the venues deliver to the contract on a route: every
hop but the last delivers to it, and the next hop pays out what this one reported. -/
def shortfall (env : Env) (token : Address) : Int → List SwapHop → Int
  | _, [] => 0
  | _, [_] => 0
  | current_amount, hop :: next :: route =>
      match env.execute_swap hop.venue
        { from_token := hop.from_token, from_amount := current_amount
          to_token := hop.to_token, min_out := hop.min_out, recipient := env.self } with
      | some reply =>
          (if hop.to_token = token then reply.output - reply.delivered else 0)
            + shortfall env token reply.output (next :: route)
      | none => 0

/-- If the transaction is a successful `pay_with_route`, the contract can make up for what the
venues of the route do not deliver out of its own surplus. -/
def Backed (d : Deployment) (t : Tx) : Prop :=
  ∀ env agent id r amount dest_token route min_received valid_until memo token,
    t.Calls env (.payWithRoute agent id r amount dest_token route min_received valid_until memo) →
      0 < shortfall env token amount route → shortfall env token amount route
        ≤ surplus d t.pre token

theorem solvent_iff_surplus {d : Deployment} {w : State} :
    Solvent d w ↔ ∀ token, 0 ≤ surplus d w token := by
  unfold Solvent surplus
  exact forall_congr' (fun _ => sub_nonneg.symm)

/-! ## Collateral owed after an update -/

namespace Book

variable {b : Book} {id : Nat} {ch ch' : Channel}

theorem owed_setChannel (hl : b.channels.lookup id = some ch) (htoken : ch'.token = ch.token)
    (token : Address) :
    (b.setChannel id ch').owed token = b.owed token +
      if ch.token = token then ch'.collateral - ch.collateral else 0 := by
  unfold owed
  rw [setChannel_channels, Map.total_insert, Map.valueAt_some hl, htoken]
  split <;> omega

theorem owed_addChannel (hl : b.channels.lookup id = none) (token : Address) :
    (b.setChannel id ch).owed token = b.owed token +
      if ch.token = token then ch.collateral else 0 := by
  unfold owed
  rw [setChannel_channels, Map.total_insert_fresh _ _ hl]
  omega

end Book

/-! ## One lemma for each way to move money -/

section

variable {env : Env} {w w' : State} {id : Nat} {r : Address} {token : Address}

theorem move_self (L : TokenLedger) (t source dest self token : Address) (amount : Int) :
    L.move t source dest amount token self = L token self + (if t = token then
      (if self = dest then amount else 0) - (if self = source then amount else 0) else 0) := by
  unfold TokenLedger.move
  by_cases ht : t = token
  · rw [if_pos ht.symm, if_pos ht]
    omega
  · rw [if_neg (Ne.symm ht), if_neg ht, add_zero]

theorem openChannel_surplus {owner agent t : Address} {deposit limit : Int} {period : SpendPeriod}
    {new : Nat} (hinv : (book w).Inv)
    (h : openChannel env w owner agent t deposit limit period = .ok (new, w')) :
    surplus env.contract w token = surplus env.contract w' token := by
  obtain ⟨ch, next, hauth, hopen, _, htoken, rfl, hnext, _, hbalance, _, rfl⟩ := openChannel_ok h
  have hself := ne_self_of_authorized hauth
  have howed : (book next).owed token = (book w).owed token := by rw [hnext]; rfl
  have hfresh : (book next).channels.lookup ((book w).count + 1) = none := by
    rw [hnext]
    exact hinv.no_fresh_channel
  simp only [surplus, book_publish, book_storeChannel, Book.owed_addChannel hfresh, howed,
    World.publish_balance, storeChannel_balance, hbalance, move_self, htoken, hopen.collateral]
  simp only [Env.self] at hself
  simp only [Env.self, Ne.symm hself, if_false, if_true]
  split <;> omega

/-- A record whose collateral falls by `amount`, against the balance. -/
theorem surplus_payment {paid : State} {ch ch' : Channel} {amount : Int}
    (hl : (book w).channels.lookup id = some ch)
    (hbook : book paid = (book w).setChannel id ch') (htoken : ch'.token = ch.token)
    (hcollateral : ch'.collateral = ch.collateral - amount) :
    surplus env.contract paid token
      = surplus env.contract w token + (if ch.token = token then amount else 0)
        + (paid.balance token env.self - w.balance token env.self) := by
  simp only [surplus, hbook, Book.owed_setChannel hl htoken, hcollateral, Env.self]
  split <;> omega

/-- If the balance falls by no more than the collateral, the surplus does not fall. -/
theorem surplus_payment_le (amount : Int) {paid : State} {ch ch' : Channel}
    (hl : (book w).channels.lookup id = some ch)
    (hbook : book paid = (book w).setChannel id ch') (htoken : ch'.token = ch.token)
    (hcollateral : ch'.collateral = ch.collateral - amount)
    (hbalance : w.balance token env.self - (if ch.token = token then amount else 0)
      ≤ paid.balance token env.self) :
    surplus env.contract w token ≤ surplus env.contract paid token := by
  rw [surplus_payment hl hbook htoken hcollateral]
  omega

/-- What a debit leaves of the record. -/
theorem Book.Debit.keeps {now : Nat} {ch ch' : Channel} {amount : Int}
    (h : Debit now ch amount ch') :
    ch'.token = ch.token ∧ ch'.collateral = ch.collateral - amount := by
  rw [h.result]
  exact ⟨rolled_token now ch, rfl⟩

theorem pay_surplus {agent : Address} {amount : Int} {memo : Bytes}
    (h : pay env w agent id r amount memo = .ok w') :
    surplus env.contract w token ≤ surplus env.contract w' token := by
  obtain ⟨ch, ch', hl, hdebit, rfl⟩ := pay_ok h
  have hpos := hdebit.positive
  refine surplus_payment_le amount hl rfl hdebit.keeps.1 hdebit.keeps.2 ?_
  simp only [World.publish_balance, storeChannel_balance, World.moved_balance, move_self,
    if_true]
  split_ifs <;> omega

theorem payWithConversion_surplus {agent dest_token : Address} {amount min_received out : Int}
    {memo : Bytes}
    (h : payWithConversion env w agent id r amount dest_token min_received memo
      = .ok (out, w')) :
    surplus env.contract w token ≤ surplus env.contract w' token := by
  obtain ⟨ch, ch', paid, hl, hdebit, hpaid, rfl⟩ := payWithConversion_ok h
  have hpos := hdebit.positive
  rcases hpaid with ⟨_, rfl⟩ | hconversion
  · refine surplus_payment_le amount hl rfl hdebit.keeps.1 hdebit.keeps.2 ?_
    simp only [World.publish_balance, storeChannel_balance, World.moved_balance, move_self,
    if_true]
    split_ifs <;> omega
  · obtain ⟨amm, delivered, hamm, rfl⟩ := executeConversion_ok hconversion
    refine surplus_payment_le amount hl rfl hdebit.keeps.1 hdebit.keeps.2 ?_
    simp only [World.publish_balance, storeChannel_balance, World.moved_balance, move_self,
      hamm.symm, if_false, if_true]
    split_ifs <;> omega

theorem topUp_surplus {owner : Address} {amount : Int}
    (h : topUp env w owner id amount = .ok w') :
    surplus env.contract w token ≤ surplus env.contract w' token := by
  obtain ⟨ch, hauth, hl, _, rfl⟩ := topUp_ok h
  have hself := ne_self_of_authorized hauth
  refine surplus_payment_le (-amount) hl rfl rfl (sub_neg_eq_add _ _).symm ?_
  simp only [World.publish_balance, storeChannel_balance, World.moved_balance, move_self,
    hself.symm, if_false, if_true]
  split_ifs <;> omega

theorem closeChannel_surplus {owner : Address} (h : closeChannel env w owner id = .ok w') :
    surplus env.contract w token ≤ surplus env.contract w' token := by
  obtain ⟨ch, ch', paid, refund, hauth, hl, _, _, hcases, rfl⟩ := closeChannel_ok h
  have hself := ne_self_of_authorized hauth
  rcases hcases with ⟨_, rfl, rfl⟩ | ⟨_, rfl, rfl⟩
  · refine surplus_payment_le refund hl rfl rfl rfl ?_
    simp only [World.publish_balance, storeChannel_balance, World.moved_balance, move_self,
      hself.symm, if_false, if_true]
    split_ifs <;> omega
  · refine surplus_payment_le 0 hl rfl rfl (sub_zero _).symm ?_
    simp

theorem withdrawFree_surplus {owner : Address} {free : Int}
    (h : withdrawFree env w owner id = .ok (free, w')) :
    surplus env.contract w token ≤ surplus env.contract w' token := by
  obtain ⟨ch, hauth, hl, _, rfl | ⟨_, _, rfl⟩⟩ := withdrawFree_ok h
  · exact le_rfl
  · have hself := ne_self_of_authorized hauth
    refine surplus_payment_le free hl rfl rfl rfl ?_
    simp only [World.publish_balance, saveChannel_balance, World.moved_balance, move_self,
      hself.symm, if_false, if_true]
    split_ifs <;> omega

theorem payOut_surplus (token : Address) {amount penalty : Int}
    (h : payOut env w id r amount penalty = .ok w') :
    surplus env.contract w token ≤ surplus env.contract w' token := by
  obtain ⟨ch, a, due, hl, ha, _, hdue, rfl⟩ := payOut_ok h
  refine surplus_payment_le
    (w := persistAllocation w id r { amount := 0, settled := amount + penalty })
    due hl rfl rfl rfl ?_
  simp only [saveChannel_balance, persistAllocation_balance, World.moved_balance, move_self,
    if_true]
  split_ifs <;> omega

/-! ## Routes -/

/-- One hop: the venue is paid the current amount and delivers what it likes. -/
theorem runHops_cons_balance {min_received received current : Int} {hop : SwapHop}
    {route : List SwapHop} (hvenue : hop.venue ≠ env.self)
    (h : runHops env min_received r w current (hop :: route) = .ok (received, w')) :
    ∃ reply next,
      env.execute_swap hop.venue
        { from_token := hop.from_token, from_amount := current, to_token := hop.to_token
          min_out := if route.isEmpty ∧ min_received > hop.min_out then min_received
            else hop.min_out
          recipient := if route.isEmpty then r else env.self } = some reply ∧
      runHops env min_received r next reply.output route = .ok (received, w') ∧
      ∀ token, next.balance token env.self = w.balance token env.self
        - (if hop.from_token = token then current else 0)
        + (if hop.to_token = token then
            (if env.self = (if route.isEmpty then r else env.self) then (reply.delivered : Int)
              else 0) else 0) := by
  simp only [runHops, Result.bind_eq_ok, World.transfer_eq_ok, panicIf_eq_ok] at h
  obtain ⟨w1, ⟨_, _, rfl⟩, ⟨output, w2⟩, hswap, _, _, hrest⟩ := h
  obtain ⟨reply, _, hreply, rfl, rfl⟩ := executeSwap_ok hswap
  refine ⟨reply, _, hreply, hrest, fun token => ?_⟩
  simp only [World.moved_balance, move_self, hvenue.symm, if_true, if_false, sub_zero, zero_sub]
  split <;> omega

theorem validateRoute_cons {self current_token dest_token : Address} {seen : List Address}
    {hop : SwapHop} {route : List SwapHop}
    (h : validateRoute self current_token seen (hop :: route) = .ok dest_token) :
    hop.from_token = current_token ∧ hop.venue ≠ self ∧ hop.to_token ∉ seen ∧
      validateRoute self hop.to_token (seen ++ [hop.to_token]) route = .ok dest_token := by
  simp only [validateRoute, Result.bind_eq_ok, panicIf_eq_ok, not_not] at h
  obtain ⟨_, hfrom, _, _, _, _, _, hvenue, _, hfresh, hrest⟩ := h
  exact ⟨hfrom, hvenue, hfresh, hrest⟩

/-- What the execution of a validated route does to the contract's balances: it pays the amount
sent, misses the shortfall, and may receive the output of the last hop. Neither the token sent
nor the destination has a shortfall. -/
theorem runHops_balance {min_received received : Int} {dest_token : Address} :
    ∀ {route : List SwapHop} {seen : List Address} {current : Int} {w : State}
      {current_token : Address}, route ≠ [] →
      validateRoute env.self current_token seen route = .ok dest_token →
      runHops env min_received r w current route = .ok (received, w') →
      ∃ bonus : Int, 0 ≤ bonus ∧ dest_token ∉ seen ∧
        (∀ token, token ∈ seen ∨ token = dest_token → shortfall env token current route = 0) ∧
        ∀ token, w'.balance token env.self = w.balance token env.self
          - (if current_token = token then current else 0) - shortfall env token current route
          + (if dest_token = token then bonus else 0)
  | [], _, _, _, _, hne, _, _ => absurd rfl hne
  | [hop], seen, current, w, current_token, _, hvalid, h => by
      -- the last hop delivers to the recipient, who may be the contract itself
      obtain ⟨rfl, hvenue, hfresh, hdest⟩ := validateRoute_cons hvalid
      obtain ⟨reply, next, _, hend, hbalance⟩ := runHops_cons_balance hvenue h
      cases hdest
      cases hend
      refine ⟨if env.self = r then reply.delivered else 0, by split <;> omega, hfresh,
        fun _ _ => rfl, fun token => ?_⟩
      rw [hbalance token, shortfall, sub_zero]
      rfl
  | hop :: hop' :: route, seen, current, w, current_token, _, hvalid, h => by
      -- every other hop delivers to the contract: what it reports too much is missing afterwards
      obtain ⟨rfl, hvenue, hfresh, hvalid'⟩ := validateRoute_cons hvalid
      obtain ⟨reply, next, hreply, hrest, hbalance⟩ := runHops_cons_balance hvenue h
      obtain ⟨bonus, hpos, hdest, hnone, hend⟩ :=
        runHops_balance (List.cons_ne_nil hop' route) hvalid' hrest
      have hshort : ∀ token, shortfall env token current (hop :: hop' :: route)
          = (if hop.to_token = token then reply.output - reply.delivered else 0)
            + shortfall env token reply.output (hop' :: route) := by
        intro token
        rw [shortfall]
        simp only [List.isEmpty_cons, Bool.false_eq_true, false_and, if_false] at hreply
        rw [hreply]
      -- the check against asset cycles: an output token was not used before and is not the last
      have hseen : ∀ token, token ∈ seen ∨ token = dest_token → hop.to_token ≠ token := by
        rintro token (hmem | rfl) rfl
        · exact hfresh hmem
        · exact hdest (by simp)
      refine ⟨bonus, hpos, fun hmem => hdest (List.mem_append_left _ hmem), ?_, fun token => ?_⟩
      · intro token htoken
        rw [hshort, if_neg (hseen token htoken), zero_add]
        exact hnone token (htoken.imp_left (List.mem_append_left _))
      · rw [hend, hbalance, hshort]
        simp only [List.isEmpty_cons, Bool.false_eq_true, if_false, if_true]
        split_ifs <;> omega

/-- **A route lowers the surplus by its shortfall.** Only the destination token may gain. -/
theorem payWithRoute_surplus (token : Address) {agent dest_token : Address}
    {amount min_received out : Int}
    {route : List SwapHop} {valid_until : Nat} {memo : Bytes}
    (h : payWithRoute env w agent id r amount dest_token route min_received valid_until memo
      = .ok (out, w')) :
    surplus env.contract w token - shortfall env token amount route
        ≤ surplus env.contract w' token ∧
      (shortfall env token amount route ≠ 0 → surplus env.contract w' token
        = surplus env.contract w token - shortfall env token amount route) := by
  obtain ⟨ch, ch', paid, hl, hdebit, hpaid, rfl⟩ := payWithRoute_ok h
  have hpos := hdebit.positive
  rcases hpaid with ⟨_, rfl, rfl⟩ | hroute
  · refine ⟨?_, fun hne => absurd rfl hne⟩
    rw [shortfall, sub_zero]
    refine surplus_payment_le amount hl rfl hdebit.keeps.1 hdebit.keeps.2 ?_
    simp only [World.publish_balance, storeChannel_balance, World.moved_balance, move_self, if_true]
    split_ifs <;> omega
  · obtain ⟨hne, hvalid, hhops⟩ := executeRoute_ok hroute
    obtain ⟨bonus, hbonus, hdest, hnone, hbalance⟩ := runHops_balance hne hvalid hhops
    have hbook : book (((storeChannel paid id ch').publish
        (.routepay id agent r amount dest_token out route.length memo)).publish
        (.stateChannel id ch')) = (book w).setChannel id ch' := by
      rw [book_publish, book_publish, book_storeChannel, (runHops_moved hhops).book_eq]
    rw [surplus_payment hl hbook hdebit.keeps.1 hdebit.keeps.2]
    simp only [World.publish_balance, storeChannel_balance, hbalance token]
    -- the destination has no shortfall, so it may gain; every other token is exact
    by_cases htoken : dest_token = token
    · rw [hnone token (.inr htoken.symm), if_pos htoken]
      exact ⟨by split <;> omega, fun hshort => absurd rfl hshort⟩
    · rw [if_neg htoken]
      constructor
      · split <;> omega
      · intro _
        split <;> omega

/-! ## Steps and runs -/

/-- An operation that leaves channels and balances alone. -/
theorem surplus_of_booksKept (h : BooksKept w w') :
    surplus env.contract w token ≤ surplus env.contract w' token := by
  unfold surplus
  rw [h.book_eq, h.balance_eq]

theorem exec_surplus (token : Address) {call : Call} (hinv : (book w).Inv) (htyped : call.WellTyped)
    (hcall : ∀ agent id r amount dest_token route min_received valid_until memo,
      call ≠ .payWithRoute agent id r amount dest_token route min_received valid_until memo)
    (h : exec env w call = .ok w') :
    surplus env.contract w token ≤ surplus env.contract w' token := by
  cases call with
  | openChannel owner agent token deposit limit period =>
      obtain ⟨⟨new, w1⟩, hopen, rfl⟩ := Result.map_eq_ok.mp h
      exact (openChannel_surplus hinv hopen).le
  | pay agent id r amount memo => exact pay_surplus h
  | payWithConversion agent id r amount dest_token min_received memo =>
      obtain ⟨⟨out, w1⟩, hpay, rfl⟩ := Result.map_eq_ok.mp h
      exact payWithConversion_surplus hpay
  | payWithRoute agent id r amount dest_token route min_received valid_until memo =>
      exact absurd rfl (hcall agent id r amount dest_token route min_received valid_until memo)
  | topUp owner id amount => exact topUp_surplus h
  | closeChannel owner id => exact closeChannel_surplus h
  | setMultisigConfig caller owners threshold window =>
      exact surplus_of_booksKept (setMultisigConfig_booksKept h).1
  | proposeMultisigConfig owner => exact surplus_of_booksKept (propose_booksKept h).1
  | proposeCircuitBreaker owner circuit_breaker =>
      exact surplus_of_booksKept (propose_booksKept h).1
  | setCircuitBreaker admin circuit_breaker =>
      exact surplus_of_booksKept (setWiredContract_booksKept h).1
  | proposePriceOracle owner price_oracle => exact surplus_of_booksKept (propose_booksKept h).1
  | setPriceOracle admin price_oracle => exact surplus_of_booksKept (setWiredContract_booksKept h).1
  | proposeAmm owner amm => exact surplus_of_booksKept (propose_booksKept h).1
  | setAmm admin amm => exact surplus_of_booksKept (setWiredContract_booksKept h).1
  | enableVouchers owner id pk window =>
      obtain ⟨ch, _, hl, _, _, rfl⟩ := enableVouchers_ok h
      exact surplus_payment_le 0 hl rfl rfl (sub_zero _).symm (by simp)
  | allocate owner id r amount =>
      obtain ⟨ch, hl, _, _, _, _, rfl⟩ := allocate_ok h
      exact surplus_payment_le (w := persistAllocation w id r _) 0 hl rfl rfl
        (sub_zero _).symm (by simp)
  | withdrawFree owner id =>
      obtain ⟨⟨free, w1⟩, hfree, rfl⟩ := Result.map_eq_ok.mp h
      exact withdrawFree_surplus hfree
  | closeCooperative id r sequence c signature =>
      obtain ⟨⟨paid, w1⟩, hclose, rfl⟩ := Result.map_eq_ok.mp h
      obtain ⟨ch, a, next, _, _, hpay, rfl⟩ :=
        closeCooperative_ok (v := ⟨id, r, sequence, c⟩) hclose ⟨htyped.1, htyped.2.2⟩
      have hsurplus := payOut_surplus token hpay
      exact hsurplus
  | closeUnilateral closer id r sequence c signature =>
      obtain ⟨ch, a, _, _, rfl⟩ :=
        closeUnilateral_ok (v := ⟨id, r, sequence, c⟩) h ⟨htyped.1, htyped.2.2⟩
      exact le_rfl
  | challenge id r sequence c signature =>
      obtain ⟨ch, a, s, _, _, _, _, rfl⟩ :=
        challenge_ok (v := ⟨id, r, sequence, c⟩) h ⟨htyped.1, htyped.2.2⟩
      exact le_rfl
  | finalize id r =>
      obtain ⟨⟨paid, w1⟩, hfinal, rfl⟩ := Result.map_eq_ok.mp h
      obtain ⟨ch, s, a, next, _, _, _, _, _, hpay, rfl⟩ := finalize_ok hfinal
      have hsurplus := payOut_surplus token hpay
      exact hsurplus
  | proposeSolvencyVk owner vk => exact surplus_of_booksKept (proposeSolvencyVk_booksKept h).1
  | setSolvencyVk admin vk => exact surplus_of_booksKept (setSolvencyVk_booksKept h).1

/-- A transaction that pays along a route. -/
theorem route_surplus (token : Address) {P : Platform} {d : Deployment} {a : Action Call}
    {agent dest_token : Address}
    {amount min_received : Int} {route : List SwapHop} {valid_until : Nat} {memo : Bytes}
    (h : Step P d w a w')
    (hcalls : Tx.Calls ⟨w, a, w'⟩ env
      (.payWithRoute agent id r amount dest_token route min_received valid_until memo)) :
    surplus d w token - shortfall env token amount route ≤ surplus d w' token ∧
      (shortfall env token amount route ≠ 0 →
        surplus d w' token = surplus d w token - shortfall env token amount route) := by
  obtain ⟨hact, hexec⟩ := hcalls
  dsimp only at hact hexec
  subst hact
  obtain ⟨_, rfl, _⟩ := h.1
  obtain ⟨⟨out, w1⟩, hpay, hw⟩ := Result.map_eq_ok.mp hexec
  obtain rfl : w1 = w' := hw
  have hsurplus := payWithRoute_surplus token hpay
  exact hsurplus

/-- **One step.** Only a payment along a route can lower the surplus of a token. -/
theorem step_surplus {P : Platform} {d : Deployment} {a : Action Call} (hinv : (book w).Inv)
    (h : Step P d w a w') :
    (∀ token, surplus d w token ≤ surplus d w' token) ∨
    ∃ env agent id r amount dest_token route min_received valid_until memo,
      Tx.Calls ⟨w, a, w'⟩ env
        (.payWithRoute agent id r amount dest_token route min_received valid_until memo) := by
  cases step_outcome h with
  | closedLedgers _ => exact .inl (fun _ => le_rfl)
  | foreign hkeeps => exact .inl (fun token => sub_le_sub_right (hkeeps token) _)
  | panicked _ _ _ => exact .inl (fun _ => le_rfl)
  | @returned env call _ hP hd htyped hexec =>
      subst hd
      by_cases hroute : ∃ agent id r amount dest_token route min_received valid_until memo, call
          = .payWithRoute agent id r amount dest_token route min_received valid_until memo
      · obtain ⟨agent, id, r, amount, dest_token, route, min_received, valid_until, memo, rfl⟩ :=
          hroute
        exact .inr ⟨env, agent, id, r, amount, dest_token, route, min_received, valid_until, memo,
          rfl, hexec⟩
      · refine .inl (fun token => ?_)
        have hsurplus := exec_surplus token (w := w.quiet) hinv htyped
          (fun _ _ _ _ _ _ _ _ _ heq => hroute ⟨_, _, _, _, _, _, _, _, _, heq⟩) hexec
        exact hsurplus

/-- A step from a solvent state leads to a solvent state if and only if it is backed. -/
theorem solvent_step {P : Platform} {d : Deployment} {a : Action Call} (hinv : (book w).Inv)
    (hsolvent : Solvent d w) (h : Step P d w a w') :
    Solvent d w' ↔ Backed d ⟨w, a, w'⟩ := by
  rw [solvent_iff_surplus] at hsolvent ⊢
  constructor
  · intro hsolvent' env agent id r amount dest_token route min_received valid_until memo token
      hcalls hshort
    have heq := (route_surplus token h hcalls).2 (by omega)
    have hnonneg := hsolvent' token
    show shortfall env token amount route ≤ surplus d w token
    omega
  · intro hbacked token
    have hnonneg := hsolvent token
    rcases step_surplus hinv h with hle | ⟨env, agent, id, r, amount, dest_token, route,
      min_received, valid_until, memo, hcalls⟩
    · exact hnonneg.trans (hle token)
    · have hle := (route_surplus token h hcalls).1
      have hback : 0 < shortfall env token amount route →
          shortfall env token amount route ≤ surplus d w token :=
        hbacked env agent id r amount dest_token route min_received valid_until memo token hcalls
      omega

theorem genesis_solvent {d : Deployment} (h : Genesis w) : Solvent d w := by
  intro token
  rw [genesis_book h]
  exact h.balance token d.address

/-- **Solvency of every run.** The contract holds the collateral of all channels after every
transaction if and only if each payment along a route is backed. -/
theorem solvent_iff_backed {P : Platform} {d : Deployment} {tr : List Tx} (h0 : Genesis w)
    (h : Runs P d w tr w') : (∀ t ∈ tr, Solvent d t.post) ↔ ∀ t ∈ tr, Backed d t := by
  suffices hboth : ((∀ t ∈ tr, Solvent d t.post) ↔ ∀ t ∈ tr, Backed d t) ∧
      ((∀ t ∈ tr, Solvent d t.post) → Solvent d w') from hboth.1
  refine Runs.history (Q := fun tr w' => ((∀ t ∈ tr, Solvent d t.post) ↔ ∀ t ∈ tr, Backed d t) ∧
    ((∀ t ∈ tr, Solvent d t.post) → Solvent d w')) h (genesis_inv h0)
    ⟨by simp, fun _ => genesis_solvent h0⟩ (fun tr m a m' hinv ih hst _ => ?_)
  obtain ⟨hiff, hend⟩ := ih
  simp only [List.forall_mem_append, List.forall_mem_singleton]
  refine ⟨?_, fun hall => hall.2⟩
  constructor
  · rintro ⟨htr, hlast⟩
    exact ⟨hiff.mp htr, (solvent_step hinv (hend htr) hst).mp hlast⟩
  · rintro ⟨htr, hlast⟩
    have hsolvent := hiff.mpr htr
    exact ⟨hsolvent, (solvent_step hinv (hend hsolvent) hst).mpr hlast⟩

end

/-! ## A venue that delivers nothing -/

section

open Scenario

/-- The first hop reports 500 EURC and delivers none; the second trades honestly. -/
def phantomSwap (args : SwapArgs) : Option SwapReply :=
  if args.to_token = eurc then some ⟨500, 0⟩ else some ⟨500, 500⟩

/-- The owner of a small USDC channel pays along USDC, EURC, XLM, while somebody else's channel
holds 500 EURC. -/
def phantomScript : List Move := [
  .invoke [stranger] honestSwap (.setPriceOracle stranger oracle),
  .invoke [stranger] honestSwap (.openChannel stranger stranger eurc 500 500 .Daily),
  .invoke [owner] honestSwap (.openChannel owner agent usdc 10 10 .Daily),
  .invoke [agent] phantomSwap (.payWithRoute agent 2 recipient 10 xlm
    [⟨venue, usdc, eurc, 0⟩, ⟨venue, eurc, xlm, 0⟩] 10 200 [])]

/-- The 500 EURC that the first hop reports are missing. -/
example : shortfall (callBy [] phantomSwap) eurc 10
    [⟨venue, usdc, eurc, 0⟩, ⟨venue, eurc, xlm, 0⟩] = 500 := by decide +kernel

theorem phantomScript_runs :
    Runs testnet deployed start (history phantomScript) (outcome phantomScript) :=
  script_runs phantomScript (by decide +kernel)

/-- The EURC channel still has its collateral on the books; the contract has no EURC. -/
theorem phantom_route_drains_pool :
    ¬ ∀ (P : Platform) (d : Deployment) (w w' : State) (tr : List Tx), Genesis w →
      Runs P d w tr w' → Solvent d w' := by
  intro h
  have hsolvent := h testnet deployed start (outcome phantomScript) (history phantomScript)
    start_genesis phantomScript_runs eurc
  exact absurd hsolvent (by decide +kernel)

theorem solvent_iff_backed_phantom :
    (∀ t ∈ history phantomScript, Solvent deployed t.post) ↔
      ∀ t ∈ history phantomScript, Backed deployed t :=
  solvent_iff_backed start_genesis phantomScript_runs

end

end StellarAgent.PaymentChannel
