import StellarAgent.Subscription.Trust

set_option autoImplicit false
set_option linter.dupNamespace false

/-! # Settlement at cancellation

`cancel` settles through the same capped, all-or-nothing draw as `collect`. So it fails when the
payer cannot pay what is due, and it forgives what is owed beyond `MAX_CATCHUP_PERIODS`; in every
other case it does what the module says (`cancel_settles_iff`).
-/

namespace StellarAgent.Subscription

open Lib Soroban

/-- What the module promises of a cancellation by `caller`: it succeeds, the subscription is not
active afterwards, and if the payer can pay all that is owed, exactly that has been paid. -/
def CancelSettles (env : Env) (w : State) (sub : Subscription) (caller : Address) : Prop :=
  ∃ settled w', cancel env w.quiet sub.id caller = .ok (settled, w') ∧
    ∃ sub' ∈ loadSubscriptions w', sub'.terms = sub.terms ∧ sub'.status ≠ .Active ∧
      (sub.amount * sub.owed w.sequence ≤ w.balance sub.token sub.payer →
        sub'.current_period = sub.current_period + sub.owed w.sequence ∧
        w'.transfers = drawTransfers sub (sub.owed w.sequence))

/-- The draw of a cancellation goes through: nothing is due, or the payer has the money for it, and
both the sum and the next boundary are within their types. -/
def DrawFits (w : State) (sub : Subscription) : Prop :=
  let due := min (sub.owed w.sequence) MAX_CATCHUP_PERIODS
  due = 0 ∨ sub.amount * due ≤ w.balance sub.token sub.payer ∧ IsI128 (sub.amount * due) ∧
    sub.next_collection_ledger + due * sub.interval_ledgers ≤ U32_MAX

section

variable {P : Platform} {d : Deployment} {env : Env} {w0 w w' : State} {tr : List Tx}
  {sub sub' : Subscription} {caller : Address} {idx settled : Nat}

/-- Ids lead to their subscriptions. -/
theorem Inv.findIndex_eq (h : Inv w) (hsub : sub ∈ loadSubscriptions w) :
    ∃ idx, findIndex (loadSubscriptions w) sub.id = some idx ∧
      (loadSubscriptions w)[idx]? = some sub := by
  have hfound : (findIndex (loadSubscriptions w) sub.id).isSome := by
    unfold findIndex
    rw [List.findIdx?_isSome, List.any_eq_true]
    exact ⟨sub, hsub, by simp⟩
  obtain ⟨idx, hidx⟩ := Option.isSome_iff_exists.mp hfound
  obtain ⟨hlt, hid, _⟩ := List.findIdx?_eq_some_iff_getElem.mp hidx
  have heq := h.eq_of_id (List.getElem_mem hlt) hsub (by simpa using hid)
  exact ⟨idx, hidx, List.getElem?_eq_some_iff.mpr ⟨hlt, heq⟩⟩

/-- **What a cancellation by one of the parties comes to**: the draw of what is due. -/
theorem Inv.cancel_eq_ok (h : Inv w) (hsub : sub ∈ loadSubscriptions w)
    (hactive : sub.status = .Active) (hauth : env.authorized caller = true)
    (hcaller : caller = sub.payer ∨ caller = sub.payee) :
    cancel env w.quiet sub.id caller = .ok (settled, w') ↔
      ∃ idx drawn w1, findIndex (loadSubscriptions w) sub.id = some idx ∧
        advancePeriods w.quiet sub (min (sub.owed w.sequence) MAX_CATCHUP_PERIODS) =
          .ok (.ok (settled, drawn, w1)) ∧
        w' = saveSubscriptions w1
          ((loadSubscriptions w).set idx (markCancelled drawn w.sequence)) := by
  obtain ⟨idx, hidx, hget⟩ := h.findIndex_eq hsub
  have hdue := duePeriodsCapped_eq (h.subs sub hsub) h.sequence
  have hparty : ¬ (caller ≠ sub.payer ∧ caller ≠ sub.payee) := by
    rintro ⟨hpayer, hpayee⟩
    exact hcaller.elim hpayer hpayee
  simp only [cancel, Result.bind_eq_ok, requireAuth_eq_ok, expect_eq_ok, unwrap_eq_ok,
    panicIf_eq_ok, unwrapOrPanicWith_eq_ok, Result.pure_eq_ok, Prod.exists, Prod.mk.injEq, not_not]
  constructor
  · rintro ⟨_, _, idx', hidx', sub', hget', _, _, _, _, count, hcount, _, hadvance, n, drawn, w1,
      rfl, rfl, rfl⟩
    obtain rfl := Option.some.inj (hidx.symm.trans hidx')
    obtain rfl := Option.some.inj (hget.symm.trans hget')
    obtain rfl := Except.ok.inj (hdue.symm.trans hcount)
    exact ⟨idx, drawn, w1, hidx, hadvance, rfl⟩
  · rintro ⟨idx', drawn, w1, hidx', hadvance, rfl⟩
    obtain rfl := Option.some.inj (hidx.symm.trans hidx')
    exact ⟨(), hauth, idx, hidx, sub, hget, (), hparty, (), hactive, _, hdue, _, hadvance, settled,
      drawn, w1, rfl, rfl, rfl⟩

/-- A subscription that has been marked is not active. -/
theorem markCancelled_inactive (sub : Subscription) (now : Nat) :
    (markCancelled sub now).status ≠ .Active := by
  unfold markCancelled
  split
  · simp
  · assumption

/-- A cancellation goes through when its draw fits. -/
theorem Inv.cancel_succeeds (h : Inv w) (hsub : sub ∈ loadSubscriptions w)
    (hactive : sub.status = .Active) (hauth : env.authorized caller = true)
    (hcaller : caller = sub.payer ∨ caller = sub.payee) (hfits : DrawFits w sub) :
    ∃ settled w', cancel env w.quiet sub.id caller = .ok (settled, w') := by
  have hinv := h.subs sub hsub
  have hcount := owed_capped hinv (min_le_left (sub.owed w.sequence) MAX_CATCHUP_PERIODS)
  obtain ⟨idx, hidx, _⟩ := h.findIndex_eq hsub
  have hadvance : ∃ result, advancePeriods w.quiet sub
      (min (sub.owed w.sequence) MAX_CATCHUP_PERIODS) = .ok (.ok result) := by
    by_cases hzero : min (sub.owed w.sequence) MAX_CATCHUP_PERIODS = 0
    · exact ⟨_, (advancePeriods_eq_ok hinv hcount).mpr (.inl ⟨hzero, rfl⟩)⟩
    · obtain ⟨hbalance, hi128, hledger⟩ := hfits.resolve_left hzero
      exact ⟨_, (advancePeriods_eq_ok hinv hcount).mpr
        (.inr ⟨Nat.pos_of_ne_zero hzero, hi128, hbalance, hledger, rfl⟩)⟩
  obtain ⟨⟨settled, drawn, w1⟩, hadvance⟩ := hadvance
  exact ⟨settled, _, (h.cancel_eq_ok hsub hactive hauth hcaller).mpr
    ⟨idx, drawn, w1, hidx, hadvance, rfl⟩⟩

/-- **What a cancellation that returns has done**: its draw did fit, the record counts the periods
that were due and is no longer active, and their amount is all that has moved. -/
theorem Inv.cancel_done (h : Inv w) (hsub : sub ∈ loadSubscriptions w)
    (hactive : sub.status = .Active) (hauth : env.authorized caller = true)
    (hcaller : caller = sub.payer ∨ caller = sub.payee)
    (hok : cancel env w.quiet sub.id caller = .ok (settled, w')) :
    DrawFits w sub ∧
      w'.transfers = drawTransfers sub (min (sub.owed w.sequence) MAX_CATCHUP_PERIODS) ∧
      ∃ sub' ∈ loadSubscriptions w', sub'.terms = sub.terms ∧ sub'.status ≠ .Active ∧
        sub'.current_period =
          sub.current_period + min (sub.owed w.sequence) MAX_CATCHUP_PERIODS := by
  have hinv := h.subs sub hsub
  have hcount := owed_capped hinv (min_le_left (sub.owed w.sequence) MAX_CATCHUP_PERIODS)
  obtain ⟨idx, drawn, w1, hidx, hadvance, rfl⟩ :=
    (h.cancel_eq_ok hsub hactive hauth hcaller).mp hok
  obtain ⟨hlt, _⟩ := List.findIdx?_eq_some_iff_getElem.mp hidx
  have hmem := List.mem_set hlt (markCancelled drawn w.sequence)
  have hinactive := markCancelled_inactive drawn w.sequence
  obtain ⟨status, cancelled_at_ledger, hmark⟩ := markCancelled_eq drawn w.sequence
  have hterms : (markCancelled drawn w.sequence).terms = drawn.terms := by rw [hmark]; rfl
  have hperiod : (markCancelled drawn w.sequence).current_period = drawn.current_period := by
    rw [hmark]
  rcases (advancePeriods_eq_ok hinv hcount).mp hadvance with
    ⟨hzero, heq⟩ | ⟨hpos, hi128, hbalance, hledger, heq⟩
  · simp only [Prod.mk.injEq] at heq
    obtain ⟨rfl, rfl, rfl⟩ := heq
    refine ⟨.inl hzero, ?_, _, hmem, hterms, hinactive, ?_⟩
    · rw [hzero]
      rfl
    · rw [hperiod, hzero, add_zero]
  · simp only [Prod.mk.injEq] at heq
    obtain ⟨rfl, rfl, rfl⟩ := heq
    refine ⟨.inr ⟨hbalance, hi128, hledger⟩, ?_, _, hmem, hterms, hinactive, hperiod⟩
    rw [drawTransfers, if_neg hpos.ne']
    simp [World.transfers, saveSubscriptions, HostEvent.transfer?]

/-- The transfers of a draw tell how many periods it took. -/
theorem drawTransfers_inj {n m : Nat} (hpositive : 0 < sub.amount)
    (h : drawTransfers sub n = drawTransfers sub m) : n = m := by
  unfold drawTransfers at h
  by_cases hn : n = 0
  · by_cases hm : m = 0
    · rw [hn, hm]
    · simp [hn, hm] at h
  · by_cases hm : m = 0
    · simp [hn, hm] at h
    · simp only [hn, hm, if_false, List.cons.injEq, Transfer.mk.injEq, true_and, and_true] at h
      have hcast := mul_left_cancel₀ hpositive.ne' h
      exact_mod_cast hcast

/-- **A cancellation settles as promised** exactly when its draw goes through, and not more is owed
than one call may draw unless the payer could not have paid it all. -/
theorem cancel_settles_iff (h0 : Genesis w0) (h : Runs P d w0 tr w)
    (hsub : sub ∈ loadSubscriptions w) (hactive : sub.status = .Active)
    (hauth : env.authorized caller = true) (hcaller : caller = sub.payer ∨ caller = sub.payee) :
    CancelSettles env w sub caller ↔ DrawFits w sub ∧
      (sub.amount * sub.owed w.sequence ≤ w.balance sub.token sub.payer →
        sub.owed w.sequence ≤ MAX_CATCHUP_PERIODS) := by
  have hinv : Inv w := (Inv.genesis h0).run h
  constructor
  · rintro ⟨settled, w', hok, sub', _, _, _, hpaid⟩
    obtain ⟨hfits, htransfers, _⟩ := hinv.cancel_done hsub hactive hauth hcaller hok
    refine ⟨hfits, fun hcovered => ?_⟩
    have howed := drawTransfers_inj (hinv.subs sub hsub).positive
      (htransfers.symm.trans (hpaid hcovered).2)
    omega
  · rintro ⟨hfits, hwithin⟩
    obtain ⟨settled, w', hok⟩ := hinv.cancel_succeeds hsub hactive hauth hcaller hfits
    obtain ⟨_, htransfers, sub', hmem, hterms, hinactive, hperiod⟩ :=
      hinv.cancel_done hsub hactive hauth hcaller hok
    refine ⟨settled, w', hok, sub', hmem, hterms, hinactive, fun hcovered => ?_⟩
    rw [min_eq_left (hwithin hcovered)] at hperiod htransfers
    exact ⟨hperiod, htransfers⟩

end

/-! ## Cancellations on the local network -/

section

open LocalNet

/-- The subscription of account 1, at `amount` every ten ledgers from ledger 100 on. -/
def firstSubscription (amount : Int) (max_periods : Nat) : Subscription where
  id := 0
  payer := account 1
  payee := account 2
  token := token
  amount := amount
  interval_ledgers := 10
  max_periods := max_periods
  current_period := 0
  start_ledger := 100
  next_collection_ledger := 110
  status := .Active
  cancelled_at_ledger := none

/-- A subscription that nobody collects. -/
def uncollected (amount : Int) (max_periods ledgers : Nat) : List Line :=
  [subscribes amount max_periods, .wait ledgers]

theorem cancel_settles_three_periods :
    CancelSettles (callBy [account 1] false)
      (subscription.outcome deployment (uncollected 20 12 35)) (firstSubscription 20 12)
      (account 1) :=
  (cancel_settles_iff (P := platform) (d := deployed) deployment_genesis
    (Contract.script_runs (uncollected 20 12 35) (by decide +kernel)) (by decide +kernel) rfl
    (by decide +kernel) (.inl rfl)).mpr ⟨.inr (by decide +kernel), fun _ => by decide +kernel⟩

/-- A payer who cannot pay what is due cannot cancel, and one who has not been collected from for
40 periods pays 32 of them. -/
theorem cancel_unsettled :
    (∃ tr, Runs platform deployed deployment tr
        (subscription.outcome deployment (uncollected 600 12 25)) ∧
      firstSubscription 600 12 ∈
        loadSubscriptions (subscription.outcome deployment (uncollected 600 12 25)) ∧
      ¬ CancelSettles (callBy [account 1] false)
        (subscription.outcome deployment (uncollected 600 12 25)) (firstSubscription 600 12)
        (account 1)) ∧
    ∃ tr, Runs platform deployed deployment tr
        (subscription.outcome deployment (uncollected 1 100 400)) ∧
      firstSubscription 1 100 ∈
        loadSubscriptions (subscription.outcome deployment (uncollected 1 100 400)) ∧
      ¬ CancelSettles (callBy [account 1] false)
        (subscription.outcome deployment (uncollected 1 100 400)) (firstSubscription 1 100)
        (account 1) := by
  refine ⟨⟨_, Contract.script_runs (uncollected 600 12 25) (by decide +kernel),
    by decide +kernel, ?_⟩, ⟨_, Contract.script_runs (uncollected 1 100 400) (by decide +kernel),
    by decide +kernel, ?_⟩⟩
  · rintro ⟨settled, w', hok, _⟩
    have hfails : (cancel (callBy [account 1] false)
        (subscription.outcome deployment (uncollected 600 12 25)).quiet 0 (account 1)).isOk = false
        := by decide +kernel
    have hid : (firstSubscription 600 12).id = 0 := rfl
    rw [hid] at hok
    rw [hok] at hfails
    cases hfails
  · rintro ⟨settled, w', hok, sub', _, _, _, hpaid⟩
    have hrun := Contract.script_runs (K := subscription) (w := deployment)
      (uncollected 1 100 400) (by decide +kernel)
    have hinv : Inv (subscription.outcome deployment (uncollected 1 100 400)) :=
      (Inv.genesis deployment_genesis).run hrun
    have hmem : firstSubscription 1 100 ∈
        loadSubscriptions (subscription.outcome deployment (uncollected 1 100 400)) := by
      decide +kernel
    obtain ⟨_, htransfers, _⟩ := hinv.cancel_done hmem rfl (by decide +kernel) (.inl rfl) hok
    have howed := drawTransfers_inj (by decide)
      (htransfers.symm.trans (hpaid (by decide +kernel)).2)
    revert howed
    decide +kernel

end

end StellarAgent.Subscription
