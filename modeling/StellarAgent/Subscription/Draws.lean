import StellarAgent.Lib.Runs
import StellarAgent.Soroban.Money
import StellarAgent.Subscription.Contract

set_option autoImplicit false
set_option linter.dupNamespace false

/-! # The schedule of the draws

The periods of a subscription lie on a grid that begins at `start_ledger`. A draw takes the periods
of the grid that have elapsed and are not drawn yet (`duePeriodsCapped_eq`), so the record always
says what has been paid, and the payee is never ahead of the grid (`subscription_trust`).
-/

namespace StellarAgent.Subscription

open Lib Soroban

/-! ## Due periods -/

/-- The periods that have fully elapsed at ledger `now`, are within the cap and not drawn yet. -/
def Subscription.owed (sub : Subscription) (now : Nat) : Nat :=
  min ((now - sub.start_ledger) / sub.interval_ledgers) sub.max_periods - sub.current_period

/-- What holds of every subscription at ledger `now`. -/
structure SubscriptionInv (now : Nat) (sub : Subscription) : Prop where
  positive : 0 < sub.amount
  interval : 0 < sub.interval_ledgers
  capped : sub.current_period ≤ sub.max_periods
  cap_fits : sub.max_periods ≤ U32_MAX
  started : sub.start_ledger ≤ now
  on_grid : sub.next_collection_ledger =
    sub.start_ledger + (sub.current_period + 1) * sub.interval_ledgers
  fits : sub.next_collection_ledger ≤ U32_MAX
  elapsed : sub.current_period ≤ (now - sub.start_ledger) / sub.interval_ledgers

section

variable {env : Env} {w w' : State} {sub : Subscription} {now now' count id : Nat}

theorem SubscriptionInv.later (h : SubscriptionInv now sub) (hle : now ≤ now') :
    SubscriptionInv now' sub :=
  { h with
    started := h.started.trans hle
    elapsed := h.elapsed.trans (Nat.div_le_div_right (by omega)) }

/-- The next boundary has passed exactly when the grid is a period ahead of the draws. -/
theorem SubscriptionInv.boundary (h : SubscriptionInv now sub) :
    sub.next_collection_ledger ≤ now ↔
      sub.current_period + 1 ≤ (now - sub.start_ledger) / sub.interval_ledgers := by
  rw [Nat.le_div_iff_mul_le h.interval, h.on_grid]
  have := h.started
  omega

/-- Past the boundary, the whole intervals since then and the one before it are not drawn yet. -/
theorem SubscriptionInv.additional (h : SubscriptionInv now sub)
    (hdue : sub.next_collection_ledger ≤ now) :
    (now - sub.next_collection_ledger) / sub.interval_ledgers + 1 =
      (now - sub.start_ledger) / sub.interval_ledgers - sub.current_period := by
  have hgrid := h.on_grid
  have hsum : now - sub.start_ledger =
      now - sub.next_collection_ledger + (sub.current_period + 1) * sub.interval_ledgers := by
    omega
  rw [hsum, Nat.add_mul_div_right _ _ h.interval]
  generalize (now - sub.next_collection_ledger) / sub.interval_ledgers = extra
  omega

/-- **What is due**: the elapsed periods that are not drawn yet, as many as one call may draw. -/
theorem duePeriodsCapped_eq (h : SubscriptionInv now sub) (hnow : now ≤ U32_MAX) :
    duePeriodsCapped sub now = .ok (min (sub.owed now) MAX_CATCHUP_PERIODS) := by
  have hcapped := h.capped
  by_cases hdue : sub.next_collection_ledger ≤ now
  · have hadditional := h.additional hdue
    have hnext : 0 < sub.next_collection_ledger := by
      have hgrid := h.on_grid
      have hpos : 0 < (sub.current_period + 1) * sub.interval_ledgers :=
        Nat.mul_pos (Nat.succ_pos _) h.interval
      omega
    have hfits : (now - sub.next_collection_ledger) / sub.interval_ledgers + 1 ≤ U32_MAX := by
      calc (now - sub.next_collection_ledger) / sub.interval_ledgers + 1
          ≤ now - sub.next_collection_ledger + 1 := Nat.succ_le_succ (Nat.div_le_self _ _)
        _ ≤ U32_MAX := by omega
    have hmin : min (min ((now - sub.next_collection_ledger) / sub.interval_ledgers + 1)
        sub.max_periods) (sub.max_periods - sub.current_period) = sub.owed now := by
      rw [hadditional, Subscription.owed]
      generalize (now - sub.start_ledger) / sub.interval_ledgers = elapsed
      omega
    rw [duePeriodsCapped, if_neg (not_lt.mpr hdue), ← hmin]
    simp only [Result.bind_eq_ok, panicIf_eq_ok, checkU32_eq_ok, subU32_eq_ok, Result.pure_eq_ok]
    exact ⟨(), h.interval.ne', _, ⟨hfits, rfl⟩, _, ⟨hcapped, rfl⟩, rfl⟩
  · have hboundary := mt h.boundary.mpr hdue
    have howed : sub.owed now = 0 := by
      unfold Subscription.owed
      omega
    rw [duePeriodsCapped, if_pos (not_le.mp hdue), howed, Nat.zero_min]

theorem due_le_owed (h : SubscriptionInv now sub) (hnow : now ≤ U32_MAX)
    (hdue : duePeriodsCapped sub now = .ok count) : count ≤ sub.owed now := by
  rw [duePeriodsCapped_eq h hnow, Except.ok.injEq] at hdue
  omega

/-- What is owed stays within the cap. -/
theorem owed_capped (h : SubscriptionInv now sub) (hcount : count ≤ sub.owed now) :
    sub.current_period + count ≤ sub.max_periods := by
  have hcapped := h.capped
  unfold Subscription.owed at hcount
  omega

/-- A subscription that has drawn periods it was owed keeps what holds of it. -/
theorem SubscriptionInv.advanced (h : SubscriptionInv now sub) (hcount : count ≤ sub.owed now)
    (hfits : sub.next_collection_ledger + count * sub.interval_ledgers ≤ U32_MAX) :
    SubscriptionInv now (advanced sub count) := by
  have helapsed := h.elapsed
  have hgrid := h.on_grid
  have hwithin := owed_capped h hcount
  unfold Subscription.owed at hcount
  refine ⟨h.positive, h.interval, ?_, h.cap_fits, h.started, ?_, hfits, ?_⟩
  · show sub.current_period + count ≤ sub.max_periods
    exact hwithin
  · show sub.next_collection_ledger + count * sub.interval_ledgers =
      sub.start_ledger + (sub.current_period + count + 1) * sub.interval_ledgers
    rw [hgrid]
    ring
  · show sub.current_period + count ≤ (now - sub.start_ledger) / sub.interval_ledgers
    omega

/-- The transfer of a draw. -/
def drawTransfers (sub : Subscription) (count : Nat) : List Transfer :=
  if count = 0 then [] else [⟨sub.token, sub.payer, sub.payee, sub.amount * count⟩]

/-- **When an advance succeeds, and what it does.** -/
theorem advancePeriods_eq_ok (h : SubscriptionInv now sub)
    (hcount : sub.current_period + count ≤ sub.max_periods)
    {result : Nat × Subscription × State} :
    advancePeriods w sub count = .ok (.ok result) ↔
      (count = 0 ∧ result = (0, sub, w)) ∨
      (0 < count ∧ IsI128 (sub.amount * count) ∧
        sub.amount * count ≤ w.balance sub.token sub.payer ∧
        sub.next_collection_ledger + count * sub.interval_ledgers ≤ U32_MAX ∧
        result = (count, advanced sub count,
          w.moved sub.token sub.payer sub.payee (sub.amount * count))) := by
  unfold advancePeriods
  by_cases hzero : count = 0
  · simp [hzero, eq_comm]
  rw [if_neg hzero]
  have hpos : 0 < count := Nat.pos_of_ne_zero hzero
  have hnonneg : 0 ≤ sub.amount * count := by
    have := h.positive
    positivity
  simp only [hzero, false_and, hpos, true_and, false_or]
  by_cases hi128 : IsI128 (sub.amount * count)
  · have hmul : checkedMul sub.amount count = some (sub.amount * count) := if_pos hi128
    rw [hmul]
    simp only [Result.bind_eq_ok, World.transfer_eq_ok, checkU32_eq_ok, Result.pure_eq_ok,
      Except.ok.injEq, hi128, true_and]
    constructor
    · rintro ⟨_, ⟨_, hbalance, rfl⟩, _, _, _, ⟨_, rfl⟩, _, ⟨hledger, rfl⟩, rfl⟩
      exact ⟨hbalance, hledger, rfl⟩
    · rintro ⟨hbalance, hledger, rfl⟩
      exact ⟨_, ⟨hnonneg, hbalance, rfl⟩, _, ⟨hcount.trans h.cap_fits, rfl⟩, _,
        ⟨by omega, rfl⟩, _, ⟨hledger, rfl⟩, rfl⟩
  · have hmul : checkedMul sub.amount count = none := if_neg hi128
    simp [hmul, hi128]

/-! ## Calls -/

/-- The call has created `sub`, under an id that is new. -/
structure Subscribed (w w' : State) (sub : Subscription) : Prop where
  inv : SubscriptionInv w.sequence sub
  numbered : sub.id = nextId w
  unpaid : sub.current_period = 0
  subs_eq : loadSubscriptions w' = loadSubscriptions w ++ [sub]
  next_eq : nextId w' = nextId w + 1
  sequence_eq : w'.sequence = w.sequence
  quiet : w'.transfers = []

/-- The call has drawn `count` periods of the active subscription `sub`, whose record is `sub'` now;
`before` and `after` are the other subscriptions. -/
structure Drew (w w' : State) (before after : List Subscription) (sub sub' : Subscription)
    (count : Nat) : Prop where
  active : sub.status = .Active
  subs_eq : loadSubscriptions w = before ++ sub :: after
  subs_eq' : loadSubscriptions w' = before ++ sub' :: after
  due : duePeriodsCapped sub w.sequence = .ok count
  fits : sub.next_collection_ledger + count * sub.interval_ledgers ≤ U32_MAX
  same : ∃ status cancelled_at_ledger,
    sub' = { advanced sub count with status, cancelled_at_ledger }
  next_eq : nextId w' = nextId w
  sequence_eq : w'.sequence = w.sequence
  transfers_eq : w'.transfers = drawTransfers sub count

/-- The subscription that a call draws from. -/
def Call.on : Call → Option Nat
  | .subscribe .. => none
  | .collect id _ => some id
  | .cancel id _ => some id

/-- Where `find_index` finds a subscription. -/
theorem findIndex_split {subs : List Subscription} {idx : Nat} (hidx : findIndex subs id = some idx)
    (hsub : subs[idx]? = some sub) :
    sub.id = id ∧ ∃ before after, subs = before ++ sub :: after ∧
      ∀ sub', subs.set idx sub' = before ++ sub' :: after := by
  obtain ⟨hlt, hid, _⟩ := List.findIdx?_eq_some_iff_getElem.mp hidx
  obtain ⟨hlt', rfl⟩ := List.getElem?_eq_some_iff.mp hsub
  refine ⟨by simpa using hid, subs.take idx, subs.drop (idx + 1), ?_, fun sub' => ?_⟩
  · rw [List.getElem_cons_drop, List.take_append_drop]
  · rw [List.set_eq_take_append_cons_drop, if_pos hlt]

theorem subscribe_ok {payer payee token : Address} {amount : Int}
    {collection_interval max_periods : Nat}
    (hcap : max_periods ≤ U32_MAX)
    (h : subscribe env w.quiet payer payee token amount collection_interval max_periods
      = .ok (id, w')) : ∃ sub, Subscribed w w' sub := by
  simp only [subscribe, bumpNextId, Result.bind_eq_ok, requireAuth_eq_ok, panicIf_eq_ok,
    checkU32_eq_ok, Result.pure_eq_ok, Prod.mk.injEq] at h
  obtain ⟨_, _, _, hamount, _, hinterval, _, _, _, _, _, _, _, ⟨next, ⟨_, hnext⟩, rfl⟩, _,
    ⟨hfits, rfl⟩, rfl, rfl⟩ := h
  subst hnext
  refine ⟨_, ⟨?_, rfl, rfl, rfl, rfl, rfl, rfl⟩⟩
  refine ⟨not_le.mp hamount, Nat.pos_of_ne_zero hinterval, Nat.zero_le _, hcap, le_rfl, ?_,
    hfits, Nat.zero_le _⟩
  show w.sequence + collection_interval = w.sequence + (0 + 1) * collection_interval
  ring

/-- The end of both drawing calls: the advance has succeeded, and the subscription is written back
with at most another status. -/
theorem drew_of_advance (hnow : w.sequence ≤ U32_MAX) {before after : List Subscription} {result : Nat × Subscription × State}
    {sub' : Subscription} {idx : Nat} (hinv : SubscriptionInv w.sequence sub)
    (hactive : sub.status = .Active) (hsubs : loadSubscriptions w = before ++ sub :: after)
    (hset : ∀ sub', (loadSubscriptions w).set idx sub' = before ++ sub' :: after)
    (hdue : duePeriodsCapped sub w.sequence = .ok count)
    (hadvance : advancePeriods w.quiet sub count = .ok (.ok result))
    (hsame : ∃ status cancelled_at_ledger,
      sub' = { result.2.1 with status, cancelled_at_ledger }) :
    Drew w (saveSubscriptions result.2.2 ((loadSubscriptions w).set idx sub')) before after sub sub'
      count := by
  have hset' := hset sub'
  obtain ⟨status, cancelled_at_ledger, hsub'⟩ := hsame
  have hcount := owed_capped hinv (due_le_owed hinv hnow hdue)
  rcases (advancePeriods_eq_ok hinv hcount).mp hadvance with
    ⟨hzero, rfl⟩ | ⟨hpos, _, _, hfits, rfl⟩
  · subst hzero
    refine ⟨hactive, hsubs, hset', hdue, ?_, ⟨status, cancelled_at_ledger, ?_⟩, rfl, rfl, rfl⟩
    · simpa using hinv.fits
    · rw [hsub']
      simp [advanced]
  · refine ⟨hactive, hsubs, hset', hdue, hfits, ⟨status, cancelled_at_ledger, hsub'⟩, rfl, rfl, ?_⟩
    rw [drawTransfers, if_neg hpos.ne']
    simp [World.transfers, saveSubscriptions, HostEvent.transfer?]

theorem collect_ok {caller : Address} {collected : Nat} (hnow : w.sequence ≤ U32_MAX)
    (hinv : ∀ sub ∈ loadSubscriptions w, SubscriptionInv w.sequence sub)
    (h : collect env w.quiet id caller = .ok (collected, w')) :
    ∃ before after sub sub' count, sub.id = id ∧ Drew w w' before after sub sub' count := by
  simp only [collect, Result.bind_eq_ok, requireAuth_eq_ok, expect_eq_ok, unwrap_eq_ok,
    panicIf_eq_ok, unwrapOrPanicWith_eq_ok, Result.pure_eq_ok, Prod.exists, Prod.mk.injEq,
    not_not] at h
  obtain ⟨_, _, idx, hidx, sub, hsub, _, _, _, hactive, count, hdue, _, _, _, hadvance, _, sub', w1,
    rfl, rfl, rfl⟩ := h
  obtain ⟨hid, before, after, hsubs, hset⟩ := findIndex_split hidx hsub
  have hmem : sub ∈ loadSubscriptions w := List.mem_of_getElem? hsub
  exact ⟨before, after, sub, sub', count, hid,
    drew_of_advance hnow (hinv sub hmem) hactive hsubs hset hdue hadvance ⟨_, _, rfl⟩⟩

theorem markCancelled_eq (sub : Subscription) (now : Nat) : ∃ status cancelled_at_ledger,
    markCancelled sub now = { sub with status, cancelled_at_ledger } := by
  unfold markCancelled
  split
  · exact ⟨.Cancelled, some now, rfl⟩
  · exact ⟨sub.status, sub.cancelled_at_ledger, rfl⟩

theorem cancel_ok {caller : Address} {settled : Nat} (hnow : w.sequence ≤ U32_MAX)
    (hinv : ∀ sub ∈ loadSubscriptions w, SubscriptionInv w.sequence sub)
    (h : cancel env w.quiet id caller = .ok (settled, w')) :
    ∃ before after sub sub' count, sub.id = id ∧ Drew w w' before after sub sub' count := by
  simp only [cancel, Result.bind_eq_ok, requireAuth_eq_ok, expect_eq_ok, unwrap_eq_ok,
    panicIf_eq_ok, unwrapOrPanicWith_eq_ok, Result.pure_eq_ok, Prod.exists, Prod.mk.injEq,
    not_not] at h
  obtain ⟨_, _, idx, hidx, sub, hsub, _, _, _, hactive, count, hdue, _, hadvance, _, sub', w1, rfl,
    rfl, rfl⟩ := h
  obtain ⟨hid, before, after, hsubs, hset⟩ := findIndex_split hidx hsub
  have hmem : sub ∈ loadSubscriptions w := List.mem_of_getElem? hsub
  exact ⟨before, after, sub, _, count, hid,
    drew_of_advance hnow (hinv sub hmem) hactive hsubs hset hdue hadvance (markCancelled_eq _ _)⟩

end

end StellarAgent.Subscription
