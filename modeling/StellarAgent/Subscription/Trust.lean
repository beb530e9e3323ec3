import StellarAgent.Subscription.Draws

set_option autoImplicit false
set_option linter.dupNamespace false

/-! # The trust model of subscriptions

The history of a deployment against its records: what the calls on a subscription have moved is its
amount for each period that the record counts, and a subscription that is no longer active is out of
every later draw.
-/

namespace StellarAgent.Subscription

open Lib Soroban

/-- What payer and payee have agreed on. -/
structure Terms where
  id : Nat
  payer : Address
  payee : Address
  token : Address
  amount : Int
  interval_ledgers : Nat
  max_periods : Nat
  start_ledger : Nat

def Subscription.terms (sub : Subscription) : Terms where
  id := sub.id
  payer := sub.payer
  payee := sub.payee
  token := sub.token
  amount := sub.amount
  interval_ledgers := sub.interval_ledgers
  max_periods := sub.max_periods
  start_ledger := sub.start_ledger

/-- What a transfer moves between the two parties. -/
def Terms.moved (terms : Terms) (t : Transfer) : Int :=
  if t.token = terms.token ∧ t.source = terms.payer ∧ t.dest = terms.payee then t.amount else 0

/-- What a transaction moves from payer to payee, if it is a call on their subscription. -/
def Tx.drawn (terms : Terms) (x : Tx) : Int :=
  match x.act with
  | .invoke _ call =>
      if call.on = some terms.id then (x.post.transfers.map terms.moved).sum else 0
  | .closeLedgers _ => 0
  | .external _ => 0

/-- What holds of every reachable state. -/
structure Inv (w : State) : Prop where
  sequence : w.sequence ≤ U32_MAX
  subs : ∀ sub ∈ loadSubscriptions w, SubscriptionInv w.sequence sub
  numbered : ∀ sub ∈ loadSubscriptions w, sub.id < nextId w
  nodup : ((loadSubscriptions w).map Subscription.id).Nodup

section

variable {P : Platform} {d : Deployment} {env : Env} {call : Call} {w0 w w' : State}
  {a : Action Call} {x : Tx} {tr : List Tx} {before after : List Subscription}
  {sub sub' : Subscription} {terms : Terms} {count : Nat}

/-! ## Steps -/

/-- What a step leaves alone. -/
structure Untouched (w w' : State) : Prop where
  storage_eq : w'.storage = w.storage
  sequence_le : w.sequence ≤ w'.sequence
  fits : w'.sequence ≤ U32_MAX
  quiet : w'.transfers = []

/-- **What a step can be**: nothing to the contract, a new subscription, or a draw from one. -/
theorem Inv.step_effect (h : Inv w) (hst : Step P d w a w') :
    Untouched w w' ∨
      (∃ env call sub, a = .invoke env call ∧ call.on = none ∧ Subscribed w w' sub) ∨
      ∃ env call before after sub sub' count, a = .invoke env call ∧ call.on = some sub.id ∧
        Drew w w' before after sub sub' count := by
  obtain ⟨hallowed, rfl⟩ := hst
  cases a with
  | closeLedgers ledgers => exact .inl ⟨rfl, Nat.le_add_right _ _, hallowed, rfl⟩
  | external balance => exact .inl ⟨rfl, le_rfl, h.sequence, rfl⟩
  | invoke env call =>
      cases hexec : subscription.exec env w.quiet call with
      | error e =>
          rw [Contract.next_error hexec]
          exact .inl ⟨rfl, le_rfl, h.sequence, rfl⟩
      | ok w' =>
          rw [Contract.next_ok hexec]
          refine .inr ?_
          cases call with
          | subscribe payer payee token amount collection_interval max_periods =>
              obtain ⟨⟨id, w1⟩, hok, rfl⟩ := Result.map_eq_ok.mp hexec
              obtain ⟨sub, hsub⟩ := subscribe_ok hallowed.2.2.2.2 hok
              exact .inl ⟨env, _, sub, rfl, rfl, hsub⟩
          | collect id caller =>
              obtain ⟨⟨collected, w1⟩, hok, rfl⟩ := Result.map_eq_ok.mp hexec
              obtain ⟨before, after, sub, sub', count, rfl, hdrew⟩ := collect_ok h.sequence h.subs hok
              exact .inr ⟨env, _, before, after, sub, sub', count, rfl, rfl, hdrew⟩
          | cancel id caller =>
              obtain ⟨⟨settled, w1⟩, hok, rfl⟩ := Result.map_eq_ok.mp hexec
              obtain ⟨before, after, sub, sub', count, rfl, hdrew⟩ := cancel_ok h.sequence h.subs hok
              exact .inr ⟨env, _, before, after, sub, sub', count, rfl, rfl, hdrew⟩

/-- The terms of a subscription outlast a draw. -/
theorem Drew.terms_eq (h : Drew w w' before after sub sub' count) : sub'.terms = sub.terms := by
  obtain ⟨status, cancelled_at_ledger, rfl⟩ := h.same
  rfl

theorem Drew.current_period_eq (h : Drew w w' before after sub sub' count) :
    sub'.current_period = sub.current_period + count := by
  obtain ⟨status, cancelled_at_ledger, rfl⟩ := h.same
  rfl

theorem Drew.mem (h : Drew w w' before after sub sub' count) : sub ∈ loadSubscriptions w := by
  rw [h.subs_eq]
  simp

/-- The ids are those from before. -/
theorem Drew.ids_eq (h : Drew w w' before after sub sub' count) :
    (loadSubscriptions w').map Subscription.id = (loadSubscriptions w).map Subscription.id := by
  have hid : sub'.id = sub.id := congrArg Terms.id h.terms_eq
  rw [h.subs_eq, h.subs_eq']
  simp [hid]

/-- Every subscription of the new list is the one drawn from, or another one from before. -/
theorem Drew.mem_cases (h : Drew w w' before after sub sub' count) (hinv : Inv w)
    {other : Subscription} (hother : other ∈ loadSubscriptions w') :
    other = sub' ∨ (other ∈ loadSubscriptions w ∧ other.id ≠ sub.id) := by
  have hnodup := hinv.nodup
  rw [h.subs_eq, List.map_append, List.map_cons, List.nodup_append, List.nodup_cons] at hnodup
  obtain ⟨_, ⟨hafter, _⟩, hbefore⟩ := hnodup
  rw [h.subs_eq', List.mem_append, List.mem_cons] at hother
  rw [h.subs_eq, List.mem_append, List.mem_cons]
  rcases hother with hin | rfl | hin
  · refine .inr ⟨.inl hin, ?_⟩
    exact hbefore _ (List.mem_map_of_mem hin) _ List.mem_cons_self
  · exact .inl rfl
  · refine .inr ⟨.inr (.inr hin), ?_⟩
    rintro heq
    exact hafter (heq ▸ List.mem_map_of_mem hin)

/-- Ids tell subscriptions apart. -/
theorem Inv.eq_of_id (h : Inv w) {one other : Subscription} (hone : one ∈ loadSubscriptions w)
    (hother : other ∈ loadSubscriptions w) (hid : one.id = other.id) : one = other :=
  List.inj_on_of_nodup_map h.nodup hone hother hid

/-- A draw takes no more than is owed. -/
theorem Drew.count_eq (h : Drew w w' before after sub sub' count) (hinv : Inv w) :
    count = min (sub.owed w.sequence) MAX_CATCHUP_PERIODS := by
  have hdue := duePeriodsCapped_eq (hinv.subs sub h.mem) hinv.sequence
  exact Except.ok.inj (h.due.symm.trans hdue)

theorem Drew.inv' (h : Drew w w' before after sub sub' count) (hinv : Inv w) :
    SubscriptionInv w.sequence sub' := by
  have hcount : count ≤ sub.owed w.sequence := by
    rw [h.count_eq hinv]
    exact min_le_left _ _
  obtain ⟨status, cancelled_at_ledger, rfl⟩ := h.same
  have hadvanced := (hinv.subs sub h.mem).advanced hcount h.fits
  exact ⟨hadvanced.positive, hadvanced.interval, hadvanced.capped, hadvanced.cap_fits,
    hadvanced.started, hadvanced.on_grid, hadvanced.fits, hadvanced.elapsed⟩

theorem Inv.step (h : Inv w) (hst : Step P d w a w') : Inv w' := by
  rcases h.step_effect hst with huntouched | ⟨_, _, sub, _, _, hnew⟩ |
    ⟨_, _, before, after, sub, sub', count, _, _, hdrew⟩
  · obtain ⟨hstorage, hle, hfits, _⟩ := huntouched
    have hsubs : loadSubscriptions w' = loadSubscriptions w := by
      unfold loadSubscriptions
      rw [hstorage]
    have hnext : nextId w' = nextId w := by
      unfold nextId
      rw [hstorage]
    refine ⟨hfits, ?_, ?_, ?_⟩
    · rw [hsubs]
      exact fun sub hsub => (h.subs sub hsub).later hle
    · rw [hsubs, hnext]
      exact h.numbered
    · rw [hsubs]
      exact h.nodup
  · refine ⟨hnew.sequence_eq ▸ h.sequence, ?_, ?_, ?_⟩
    · rw [hnew.subs_eq, hnew.sequence_eq, List.forall_mem_append, List.forall_mem_singleton]
      exact ⟨h.subs, hnew.inv⟩
    · rw [hnew.subs_eq, hnew.next_eq, List.forall_mem_append, List.forall_mem_singleton,
        hnew.numbered]
      exact ⟨fun sub hsub => (h.numbered sub hsub).trans (Nat.lt_succ_self _), Nat.lt_succ_self _⟩
    · rw [hnew.subs_eq, List.map_append, List.nodup_append]
      refine ⟨h.nodup, List.nodup_singleton _, ?_⟩
      intro id hid id' hid'
      obtain ⟨other, hother, rfl⟩ := List.mem_map.mp hid
      obtain rfl := List.mem_singleton.mp hid'
      have := h.numbered other hother
      rw [hnew.numbered]
      omega
  · refine ⟨hdrew.sequence_eq ▸ h.sequence, fun other hother => ?_, fun other hother => ?_, ?_⟩
    · rw [hdrew.sequence_eq]
      rcases hdrew.mem_cases h hother with rfl | ⟨hold, _⟩
      · exact hdrew.inv' h
      · exact h.subs other hold
    · rw [hdrew.next_eq]
      rcases hdrew.mem_cases h hother with rfl | ⟨hold, _⟩
      · have hid : other.id = sub.id := congrArg Terms.id hdrew.terms_eq
        rw [hid]
        exact h.numbered sub hdrew.mem
      · exact h.numbered other hold
    · rw [hdrew.ids_eq]
      exact h.nodup

theorem Inv.genesis (h0 : Genesis w0) : Inv w0 := by
  have hsubs : loadSubscriptions w0 = [] := by
    unfold loadSubscriptions
    rw [h0.storage]
    rfl
  refine ⟨h0.sequence, ?_, ?_, ?_⟩ <;> rw [hsubs] <;> simp

theorem Inv.run (h : Inv w) (hrun : Runs P d w tr w') : Inv w' :=
  hrun.invariant (I := Inv) h (fun _ _ _ hI hst => hI.step hst)

/-! ## What a transaction draws -/

theorem drawn_quiet (h : w'.transfers = []) : Tx.drawn terms ⟨w, a, w'⟩ = 0 := by
  unfold Tx.drawn
  cases a with
  | invoke env call => simp [h]
  | closeLedgers ledgers => rfl
  | external balance => rfl

theorem Drew.drawn_eq (h : Drew w w' before after sub sub' count) (hon : call.on = some sub.id) :
    Tx.drawn sub.terms ⟨w, .invoke env call, w'⟩ = sub.amount * count := by
  unfold Tx.drawn
  dsimp only
  have hon' : call.on = some sub.terms.id := hon
  rw [if_pos hon', h.transfers_eq, drawTransfers]
  by_cases hzero : count = 0
  · simp [hzero]
  · simp [hzero, Terms.moved, Subscription.terms]

theorem drawn_other (hon : call.on ≠ some terms.id) :
    Tx.drawn terms ⟨w, .invoke env call, w'⟩ = 0 := by
  unfold Tx.drawn
  dsimp only
  rw [if_neg hon]

/-- The records account for the history. -/
structure Accounted (tr : List Tx) (w : State) : Prop where
  inv : Inv w
  paid : ∀ sub ∈ loadSubscriptions w,
    tally (Tx.drawn sub.terms) tr = sub.amount * sub.current_period
  unused : ∀ terms : Terms, (∀ sub ∈ loadSubscriptions w, sub.id ≠ terms.id) →
    tally (Tx.drawn terms) tr = 0

theorem Accounted.step (h : Accounted tr w) (hst : Step P d w a w') :
    Accounted (tr ++ [⟨w, a, w'⟩]) w' := by
  have hinv := h.inv
  refine ⟨hinv.step hst, fun s hs => ?_, fun terms hterms => ?_⟩
  all_goals rw [tally_append, tally_singleton]
  all_goals rcases hinv.step_effect hst with huntouched | ⟨env, call, sub, rfl, hon, hnew⟩ |
    ⟨env, call, before, after, sub, sub', count, rfl, hon, hdrew⟩
  · rw [loadSubscriptions, huntouched.storage_eq] at hs
    rw [drawn_quiet huntouched.quiet, h.paid s hs, add_zero]
  · rw [drawn_quiet hnew.quiet, add_zero]
    rw [hnew.subs_eq, List.mem_append, List.mem_singleton] at hs
    rcases hs with hs | rfl
    · exact h.paid s hs
    · have hfresh : ∀ other ∈ loadSubscriptions w, other.id ≠ s.terms.id := by
        intro other hother
        have := hinv.numbered other hother
        have hid : s.terms.id = nextId w := hnew.numbered
        omega
      rw [h.unused s.terms hfresh, hnew.unpaid]
      simp
  · rcases hdrew.mem_cases hinv hs with rfl | ⟨hold, hne⟩
    · have hamount : s.amount = sub.amount := congrArg Terms.amount hdrew.terms_eq
      rw [hdrew.terms_eq, h.paid sub hdrew.mem, hdrew.drawn_eq hon, hdrew.current_period_eq, hamount]
      push_cast
      ring
    · rw [h.paid s hold, drawn_other, add_zero]
      rw [hon]
      exact fun heq => hne (Option.some.inj heq).symm
  · rw [loadSubscriptions, huntouched.storage_eq] at hterms
    rw [drawn_quiet huntouched.quiet, h.unused terms hterms, add_zero]
  · rw [hnew.subs_eq] at hterms
    rw [drawn_quiet hnew.quiet, add_zero]
    exact h.unused terms (fun other hother => hterms other (List.mem_append_left _ hother))
  · have hids : ∀ other ∈ loadSubscriptions w, other.id ≠ terms.id := by
      intro other hother heq
      have hmem : terms.id ∈ (loadSubscriptions w').map Subscription.id := by
        rw [hdrew.ids_eq, ← heq]
        exact List.mem_map_of_mem hother
      obtain ⟨now, hnow, hid⟩ := List.mem_map.mp hmem
      exact hterms now hnow hid
    rw [h.unused terms hids, drawn_other, add_zero]
    rw [hon]
    exact fun heq => hids sub hdrew.mem (Option.some.inj heq)

theorem Accounted.run (h0 : Genesis w0) (h : Runs P d w0 tr w) : Accounted tr w := by
  refine h.history (P := fun tr w => Accounted tr w) ?_ (fun _ _ _ _ _ hI hst => hI.step hst)
  refine ⟨Inv.genesis h0, ?_, fun _ _ => rfl⟩
  intro sub hsub
  rw [loadSubscriptions, h0.storage] at hsub
  cases hsub

/-- A step draws nothing from a subscription that is not active, and leaves its record alone. -/
theorem Inv.step_inactive (h : Inv w) (hst : Step P d w a w') (hsub : sub ∈ loadSubscriptions w)
    (hinactive : sub.status ≠ .Active) :
    Tx.drawn sub.terms ⟨w, a, w'⟩ = 0 ∧ sub ∈ loadSubscriptions w' := by
  rcases h.step_effect hst with huntouched | ⟨env, call, new, rfl, hon, hnew⟩ |
    ⟨env, call, before, after, drawn, drawn', count, rfl, hon, hdrew⟩
  · refine ⟨drawn_quiet huntouched.quiet, ?_⟩
    rwa [loadSubscriptions, huntouched.storage_eq]
  · refine ⟨drawn_quiet hnew.quiet, ?_⟩
    rw [hnew.subs_eq]
    exact List.mem_append_left _ hsub
  · have hne : sub ≠ drawn := by
      rintro rfl
      exact hinactive hdrew.active
    refine ⟨drawn_other ?_, ?_⟩
    · rw [hon]
      exact fun heq => hne (h.eq_of_id hsub hdrew.mem (Option.some.inj heq).symm)
    · rw [hdrew.subs_eq, List.mem_append, List.mem_cons] at hsub
      rw [hdrew.subs_eq', List.mem_append, List.mem_cons]
      rcases hsub with hin | rfl | hin
      · exact .inl hin
      · exact absurd rfl hne
      · exact .inr (.inr hin)

theorem inactive_run (h : Inv w) (hrun : Runs P d w tr w') (hsub : sub ∈ loadSubscriptions w)
    (hinactive : sub.status ≠ .Active) : sub ∈ loadSubscriptions w' := by
  have hall : Inv w' ∧ sub ∈ loadSubscriptions w' := by
    refine hrun.invariant (I := fun m => Inv m ∧ sub ∈ loadSubscriptions m) ⟨h, hsub⟩ ?_
    rintro m a m' ⟨hm, hmem⟩ hst
    exact ⟨hm.step hst, (hm.step_inactive hst hmem hinactive).2⟩
  exact hall.2

/-- Every transfer of a step is the payer's to the payee of the subscription that is called on. -/
theorem Inv.step_transfers (h : Inv w) (hst : Step P d w a w') {t : Transfer}
    (ht : t ∈ w'.transfers) : ∃ env call sub, a = .invoke env call ∧ call.on = some sub.id ∧
      sub ∈ loadSubscriptions w ∧ t = ⟨sub.token, sub.payer, sub.payee, t.amount⟩ := by
  rcases h.step_effect hst with huntouched | ⟨env, call, new, rfl, hon, hnew⟩ |
    ⟨env, call, before, after, sub, sub', count, rfl, hon, hdrew⟩
  · rw [huntouched.quiet] at ht
    cases ht
  · rw [hnew.quiet] at ht
    cases ht
  · refine ⟨env, call, sub, rfl, hon, hdrew.mem, ?_⟩
    rw [hdrew.transfers_eq, drawTransfers] at ht
    split at ht
    · cases ht
    · obtain rfl := List.mem_singleton.mp ht
      rfl

/-- **The trust model.** In every reachable state, for every subscription: no more periods have been
drawn than the cap allows and than have elapsed, what has moved from payer to payee is the amount
for each of them, and the next boundary is the one of the grid, a `u32`. A subscription that is not
active has nothing drawn from it and stays as it is, and no call moves anything else. -/
theorem subscription_trust (h0 : Genesis w0) (h : Runs P d w0 tr w) :
    (∀ sub ∈ loadSubscriptions w,
      sub.current_period ≤ sub.max_periods ∧
        tally (Tx.drawn sub.terms) tr = sub.amount * sub.current_period ∧
        sub.next_collection_ledger =
          sub.start_ledger + (sub.current_period + 1) * sub.interval_ledgers ∧
        sub.next_collection_ledger ≤ U32_MAX ∧ 0 < sub.interval_ledgers ∧
        sub.current_period ≤ (w.sequence - sub.start_ledger) / sub.interval_ledgers) ∧
      (∀ x ∈ tr, ∀ sub ∈ loadSubscriptions x.pre, sub.status ≠ .Active →
        x.drawn sub.terms = 0 ∧ sub ∈ loadSubscriptions w) ∧
      ∀ x ∈ tr, ∀ t ∈ x.post.transfers, ∃ env call, ∃ sub ∈ loadSubscriptions x.pre,
        x.act = .invoke env call ∧ call.on = some sub.id ∧
        t = ⟨sub.token, sub.payer, sub.payee, t.amount⟩ := by
  have hinv0 : Inv w0 := Inv.genesis h0
  have haccounted : Accounted tr w := Accounted.run h0 h
  refine ⟨fun sub hsub => ?_, fun x hx sub hsub hinactive => ?_, fun x hx t ht => ?_⟩
  · have hinv := haccounted.inv.subs sub hsub
    exact ⟨hinv.capped, haccounted.paid sub hsub, hinv.on_grid, hinv.fits, hinv.interval,
      hinv.elapsed⟩
  · obtain ⟨xs, ys, _, hrun, hst, hrest⟩ := h.of_mem hx
    have hpre : Inv x.pre := hinv0.run hrun
    obtain ⟨hnothing, hkept⟩ := hpre.step_inactive hst hsub hinactive
    exact ⟨hnothing, inactive_run (hpre.step hst) hrest hkept hinactive⟩
  · obtain ⟨xs, ys, _, hrun, hst, _⟩ := h.of_mem hx
    obtain ⟨env, call, sub, hact, hon, hmem, heq⟩ := (hinv0.run hrun).step_transfers hst ht
    exact ⟨env, call, sub, hmem, hact, hon, heq⟩

end

/-! ## A subscription on the local network -/

section

open LocalNet

/-- A fresh deployment on the local network. -/
def deployment : State := start Empty Storage.fresh

theorem deployment_genesis : Genesis deployment := ⟨rfl, by decide⟩

abbrev Line := Move platform deployed Call

/-- Account 1 subscribes to account 2, at `amount` every ten ledgers, for `max_periods`. -/
def subscribes (amount : Int) (max_periods : Nat) : Line :=
  signed [account 1] (.subscribe (account 1) (account 2) token amount 10 max_periods)

/-- Three periods are collected late, and the payer cancels after two more. -/
def fivePeriods : List Line := [
  subscribes 20 12, .wait 35,
  signed [account 2] (.collect 0 (account 2)), .wait 20,
  signed [account 1] (.cancel 0 (account 1)), .wait 40,
  signed [account 2] (.collect 0 (account 2))]

theorem subscription_trust_five_periods :
    (∀ sub ∈ loadSubscriptions (subscription.outcome deployment fivePeriods),
      sub.current_period ≤ sub.max_periods ∧
        tally (Tx.drawn sub.terms) (subscription.history deployment fivePeriods) =
          sub.amount * sub.current_period ∧
        sub.next_collection_ledger =
          sub.start_ledger + (sub.current_period + 1) * sub.interval_ledgers ∧
        sub.next_collection_ledger ≤ U32_MAX ∧ 0 < sub.interval_ledgers ∧
        sub.current_period ≤ ((subscription.outcome deployment fivePeriods).sequence -
          sub.start_ledger) / sub.interval_ledgers) ∧
      (∀ x ∈ subscription.history deployment fivePeriods, ∀ sub ∈ loadSubscriptions x.pre,
        sub.status ≠ .Active → Tx.drawn sub.terms x = 0 ∧
          sub ∈ loadSubscriptions (subscription.outcome deployment fivePeriods)) ∧
      ∀ x ∈ subscription.history deployment fivePeriods, ∀ t ∈ x.post.transfers, ∃ env call,
        ∃ sub ∈ loadSubscriptions x.pre, x.act = .invoke env call ∧ call.on = some sub.id ∧
        t = ⟨sub.token, sub.payer, sub.payee, t.amount⟩ :=
  subscription_trust deployment_genesis (Contract.script_runs fivePeriods (by decide +kernel))

/-- Five periods have been paid, and the late collection after the cancellation drew nothing. -/
example : (subscription.outcome deployment fivePeriods).balance token (account 1) = 900 ∧
    (subscription.outcome deployment fivePeriods).balance token (account 2) = 1100 := by
  decide +kernel

end

end StellarAgent.Subscription
