import StellarAgent.Lib.PeriodLimiter
import StellarAgent.PaymentChannel.Refinement
import StellarAgent.PaymentChannel.Scenario

set_option autoImplicit false

/-! # How fast a channel can be spent

The spend limit of a channel is a `Lib.Limited` limiter: `pay`, `pay_with_conversion` and
`pay_with_route` are its debits, and no other entry point touches the period. So between two
resets at most the limit is debited, and in any window of one period length at most twice the
limit (`spend_rate`).
-/

namespace StellarAgent.PaymentChannel

open Lib Soroban

/-! ## Debits in a history -/

/-- What the transaction debits from channel `id` by one of the payment functions. -/
def Tx.debited (id : Nat) (t : Tx) : Int :=
  match t.op with
  | .debited id' amount => if id' = id then amount else 0
  | _ => 0

/-- The transaction debits channel `id` after its period has run out, and restarts the period. -/
def Tx.Resets (id : Nat) (t : Tx) : Prop :=
  ∃ amount ch, t.op = .debited id amount ∧ (loadChannels t.pre).lookup id = some ch ∧
    ch.period_start_ledger + ledgersPerPeriod ch.period ≤ t.pre.sequence

/-- The debits of channel `id`, with the ledger at which each was made. -/
def debitLog (id : Nat) (tr : List Tx) : DebitLog :=
  tr.filterMap fun t =>
    match t.op with
    | .debited id' amount => if id' = id then some (t.pre.sequence, amount) else none
    | _ => none

section

variable {id : Nat} {t : Tx}

theorem Tx.debited_of_op {amount : Int} (hop : t.op = .debited id amount) :
    t.debited id = amount ∧ debitLog id [t] = [(t.pre.sequence, amount)] := by
  simp [Tx.debited, debitLog, hop]

theorem Tx.debited_of_ne (hop : ∀ amount, t.op ≠ .debited id amount) :
    t.debited id = 0 ∧ debitLog id [t] = [] := by
  unfold Tx.debited debitLog
  cases h : t.op with
  | debited id' amount =>
      have hne : id' ≠ id := by
        rintro rfl
        exact hop amount h
      simp [h, hne]
  | _ => simp [h]

theorem debitLog_append (id : Nat) (xs ys : List Tx) :
    debitLog id (xs ++ ys) = debitLog id xs ++ debitLog id ys := List.filterMap_append

/-- The debits of a history inside a window of ledgers. -/
theorem tally_window (id : Nat) (a b : Nat) (tr : List Tx) :
    tally (fun t : Tx => if a ≤ t.pre.sequence ∧ t.pre.sequence < b then t.debited id else 0) tr
      = (debitLog id tr).within a b := by
  -- from the front of the run to its end, as runs are built
  induction tr using List.reverseRecOn with
  | nil => rfl
  | append_singleton tr t ih =>
      rw [tally_append, tally_singleton, ih, debitLog_append]
      by_cases hop : ∃ amount, t.op = .debited id amount
      · obtain ⟨amount, hop⟩ := hop
        obtain ⟨hdebited, hlog⟩ := Tx.debited_of_op hop
        rw [hlog, DebitLog.within_snoc, hdebited]
      · obtain ⟨hdebited, hlog⟩ := Tx.debited_of_ne (fun amount h => hop ⟨amount, h⟩)
        rw [hlog, List.append_nil, hdebited, ite_self, add_zero]

end

/-! ## The record as a limiter -/

/-- The period fields of the record are a limiter that has seen the log. -/
def Book.PeriodHolds (b : Book) (id : Nat) (log : DebitLog) : Prop :=
  (∀ ch, b.channels.lookup id = some ch →
    Limited (ledgersPerPeriod ch.period) ch.limit_per_period log ch.period_start_ledger
      ch.spent_this_period b.ledger) ∧
  (b.channels.lookup id = none → log = [])

section

variable {V : BytesN 32 → Claim → Prop} {b b' : Book} {op : BookOp} {id : Nat} {log : DebitLog}

/-- A payment is a debit of the limiter, in the current period or after a reset. -/
theorem Book.Debit.limited {now : Nat} {ch ch' : Channel} {amount : Int}
    (h : Debit now ch amount ch')
    (hlimited : Limited (ledgersPerPeriod ch.period) ch.limit_per_period log
      ch.period_start_ledger ch.spent_this_period now) :
    Limited (ledgersPerPeriod ch'.period) ch'.limit_per_period (log ++ [(now, amount)])
      ch'.period_start_ledger ch'.spent_this_period now := by
  have hpos := h.positive.le
  have hlimit := h.limit
  rw [h.result]
  unfold rolled at hlimit ⊢
  split at hlimit
  · rename_i hexpired
    rw [if_pos hexpired]
    simpa using hlimited.reset hexpired hpos (by simpa using hlimit)
  · rename_i hcurrent
    rw [if_neg hcurrent]
    exact hlimited.debit hpos hlimit

/-- **One operation** of the book, for the limiter of one channel. -/
theorem Book.Step.periodHolds (h : Step V b op b') (hinv : b.Inv) (hholds : b.PeriodHolds id log) :
    (∀ amount, op = .debited id amount → b'.PeriodHolds id (log ++ [(b.ledger, amount)])) ∧
    ((∀ amount, op ≠ .debited id amount) → b'.PeriodHolds id log) := by
  have hle := h.ledger_le
  cases hl : b.channels.lookup id with
  | some ch =>
      obtain ⟨ch', hl', hstep⟩ := h.channel_step hinv hl
      have hlimited := hholds.1 ch hl
      constructor
      · intro amount hop
        refine ⟨fun c hc => ?_, fun hnone => absurd hl' (by simp [hnone])⟩
        cases hl'.symm.trans hc
        exact ((hstep.debit amount hop).limited hlimited).later hle
      · intro hop
        refine ⟨fun c hc => ?_, fun hnone => absurd hl' (by simp [hnone])⟩
        cases hl'.symm.trans hc
        obtain ⟨hspent, hstart⟩ := hstep.spending hop
        rw [hstep.plan.1, hstep.plan.2, hspent, hstart]
        exact hlimited.later hle
  | none =>
      constructor
      · rintro amount rfl
        generalize hop : BookOp.debited id amount = op at h
        cases h with
        | debited hc _ =>
            cases hop
            cases hl.symm.trans hc
        | _ => cases hop
      · intro hop
        refine ⟨fun c hc => ?_, fun _ => hholds.2 hl⟩
        -- a channel that appears has just been opened, with a fresh limiter
        obtain ⟨deposit, _, hopening⟩ := h.channel_new hl hc
        rw [hholds.2 hl, hopening.spent, hopening.start]
        exact (Limited.init hopening.limit b.ledger).later hle

end

section

variable {P : Platform} {d : Deployment} {w w0 : State} {tr : List Tx} {id : Nat} {ch : Channel}

theorem Runs.periodHolds (h0 : Genesis w0) (h : Runs P d w0 tr w) (id : Nat) :
    (book w).PeriodHolds id (debitLog id tr) := by
  refine Runs.history (Q := fun tr w => (book w).PeriodHolds id (debitLog id tr)) h
    (genesis_inv h0) ?_ (fun tr m a m' hinv ih _ hrefines => ?_)
  · rw [genesis_book h0]
    exact ⟨by simp, fun _ => rfl⟩
  · obtain ⟨hdebit, hother⟩ := hrefines.step.periodHolds hinv ih
    rw [debitLog_append]
    by_cases hop : ∃ amount, Tx.op ⟨m, a, m'⟩ = .debited id amount
    · obtain ⟨amount, hop⟩ := hop
      rw [(Tx.debited_of_op hop).2]
      exact hdebit amount hop
    · have hne : ∀ amount, Tx.op ⟨m, a, m'⟩ ≠ .debited id amount :=
        fun amount h => hop ⟨amount, h⟩
      rw [(Tx.debited_of_ne hne).2, List.append_nil]
      exact hother hne

end

/-! ## Between two resets -/

/-- What channel `id` has spent in its current period; nothing if it does not exist. -/
def Book.spentOf (b : Book) (id : Nat) : Int :=
  Map.valueAt (fun _ ch => ch.spent_this_period) id b.channels

section

variable {V : BytesN 32 → Claim → Prop} {b b' : Book} {op : BookOp} {id : Nat} {log : DebitLog}

theorem Book.PeriodHolds.spentOf_nonneg (h : b.PeriodHolds id log) : 0 ≤ b.spentOf id := by
  unfold Book.spentOf
  cases hl : b.channels.lookup id with
  | none => rw [Map.valueAt_none hl]
  | some ch =>
      rw [Map.valueAt_some hl]
      exact (h.1 ch hl).spent_nonneg

theorem Book.Step.spentOf_keep (h : Step V b op b') (hinv : b.Inv)
    (hop : ∀ amount, op ≠ .debited id amount) : b'.spentOf id = b.spentOf id := by
  unfold Book.spentOf
  cases hl : b.channels.lookup id with
  | some ch =>
      obtain ⟨ch', hl', hstep⟩ := h.channel_step hinv hl
      rw [Map.valueAt_some hl, Map.valueAt_some hl', (hstep.spending hop).1]
  | none =>
      rw [Map.valueAt_none hl]
      cases hl' : b'.channels.lookup id with
      | none => exact Map.valueAt_none hl'
      | some ch' =>
          obtain ⟨deposit, _, hopening⟩ := h.channel_new hl hl'
          rw [Map.valueAt_some hl', hopening.spent]

theorem Book.Step.spentOf_debit {amount : Int} (h : Step V b (.debited id amount) b')
    (hinv : b.Inv) : ∃ ch, b.channels.lookup id = some ch ∧
      b'.spentOf id = (rolled b.ledger ch).spent_this_period + amount := by
  have hl : ∃ ch, b.channels.lookup id = some ch := by
    generalize hop : BookOp.debited id amount = op at h
    cases h with
    | debited hc _ =>
        cases hop
        exact ⟨_, hc⟩
    | _ => cases hop
  obtain ⟨ch, hl⟩ := hl
  obtain ⟨ch', hl', hstep⟩ := h.channel_step hinv hl
  refine ⟨ch, hl, ?_⟩
  rw [Book.spentOf, Map.valueAt_some hl', (hstep.debit amount rfl).result]

end

section

variable {P : Platform} {d : Deployment} {w w' w0 : State} {a : Action Call} {tr : List Tx}
  {id : Nat}

/-- A transaction that does not reset the period adds its debit to it. -/
theorem Refines.spentOf_add (h : Refines P d w a w') (hinv : (book w).Inv)
    (hreset : ¬ Tx.Resets id ⟨w, a, w'⟩) :
    (book w').spentOf id = (book w).spentOf id + Tx.debited id ⟨w, a, w'⟩ := by
  by_cases hop : ∃ amount, Tx.op ⟨w, a, w'⟩ = .debited id amount
  · obtain ⟨amount, hop⟩ := hop
    have hstep := h.step
    rw [show opOf a w'.events = .debited id amount from hop] at hstep
    obtain ⟨ch, hl, hspent⟩ := hstep.spentOf_debit hinv
    have hcurrent : ¬ (book w).ledger ≥ ch.period_start_ledger + ledgersPerPeriod ch.period :=
      fun hexpired => hreset ⟨amount, ch, hop, hl, hexpired⟩
    rw [hspent, (Tx.debited_of_op hop).1, Book.rolled, if_neg hcurrent, Book.spentOf,
      Map.valueAt_some hl]
  · have hne : ∀ amount, Tx.op ⟨w, a, w'⟩ ≠ .debited id amount := fun amount h => hop ⟨amount, h⟩
    rw [(Tx.debited_of_ne hne).1, add_zero]
    exact h.step.spentOf_keep hinv hne

/-- After any transaction its own debit is part of the period. -/
theorem Refines.debited_le (h : Refines P d w a w') (hinv : (book w).Inv) {log : DebitLog}
    (hholds : (book w).PeriodHolds id log) :
    Tx.debited id ⟨w, a, w'⟩ ≤ (book w').spentOf id := by
  by_cases hreset : Tx.Resets id ⟨w, a, w'⟩
  · obtain ⟨amount, ch, hop, hl, hexpired⟩ := hreset
    have hstep := h.step
    rw [show opOf a w'.events = .debited id amount from hop] at hstep
    obtain ⟨ch', hl', hspent⟩ := hstep.spentOf_debit hinv
    cases Eq.trans (Eq.symm hl) hl'
    have hexpired' : (book w).ledger ≥ ch.period_start_ledger + ledgersPerPeriod ch.period :=
      hexpired
    rw [hspent, (Tx.debited_of_op hop).1, Book.rolled, if_pos hexpired']
    exact (zero_add amount).ge
  · rw [h.spentOf_add hinv hreset]
    have := hholds.spentOf_nonneg
    omega

/-- The debits of a transaction and of those after it, up to the next reset. -/
theorem Runs.between_resets {first : Tx} {middle : List Tx} (hinv : (book first.pre).Inv)
    {log : DebitLog} (hholds : (book first.pre).PeriodHolds id log)
    (hst : Step P d first.pre first.act first.post) (h : Runs P d first.post middle w)
    (hmiddle : ∀ t ∈ middle, ¬ t.Resets id) :
    tally (Tx.debited id) (first :: middle) ≤ (book w).spentOf id := by
  have hrefines := step_refines hinv hst
  refine Runs.history_of (Q := fun middle w =>
    tally (Tx.debited id) (first :: middle) ≤ (book w).spentOf id) h hmiddle
    (hinv.step hrefines.step) ?_ (fun middle m a m' hI ih _ hR hkeeps => ?_)
  · rw [tally_singleton]
    exact hrefines.debited_le hinv hholds
  · rw [← List.cons_append, tally_append, tally_singleton, hR.spentOf_add hI hkeeps]
    omega

/-- Limit and period of a channel never change. -/
theorem Runs.plan_keep (h : Runs P d w tr w') (hinv : (book w).Inv) {ch : Channel}
    (hl : (loadChannels w).lookup id = some ch) :
    ∃ ch', (loadChannels w').lookup id = some ch' ∧
      ch'.limit_per_period = ch.limit_per_period ∧ ch'.period = ch.period := by
  refine Runs.history (Q := fun _ w' => ∃ ch', (loadChannels w').lookup id = some ch' ∧
    ch'.limit_per_period = ch.limit_per_period ∧ ch'.period = ch.period) h hinv
    ⟨ch, hl, rfl, rfl⟩ (fun _ m a m' hI ih _ hrefines => ?_)
  obtain ⟨c, hc, hlimit, hperiod⟩ := ih
  obtain ⟨c', hc', hstep⟩ := hrefines.step.channel_step hI hc
  exact ⟨c', hc', hstep.plan.1.trans hlimit, hstep.plan.2.trans hperiod⟩

/-- **The spend rate of a channel.** From any transaction up to the next reset of the period at
most the limit is debited, by all payment functions together; and in any window of one period
length at most twice the limit. -/
theorem spend_rate (h0 : Genesis w0) (h : Runs P d w0 tr w) {ch : Channel}
    (hl : (loadChannels w).lookup id = some ch) :
    (∀ (before : List Tx) (first : Tx) (middle after : List Tx),
      tr = before ++ first :: (middle ++ after) →
      (∀ t ∈ middle, ¬ t.Resets id) →
      tally (Tx.debited id) (first :: middle) ≤ ch.limit_per_period) ∧
    ∀ a, tally (fun t : Tx => if a ≤ t.pre.sequence ∧
        t.pre.sequence < a + ledgersPerPeriod ch.period then t.debited id else 0) tr
      ≤ 2 * ch.limit_per_period := by
  have hlimited := (h.periodHolds h0 id).1 ch hl
  constructor
  · rintro before first middle after rfl hmiddle
    obtain ⟨hbefore, hst, hrest⟩ := Run.around h
    obtain ⟨m, hrun, hafter⟩ := Run.split hrest
    have hinv : (book first.pre).Inv := (Runs.refines hbefore (genesis_inv h0)).2
    have hinvm : (book m).Inv := (Runs.refines hrun (hinv.step (step_refines hinv hst).step)).2
    have hholds : (book m).PeriodHolds id _ :=
      Runs.periodHolds h0 (Run.append hbefore (Run.append (Run.single hst) hrun)) id
    -- what stands in the record at the end of the stretch is below the limit, which never changes
    have hspent : (book m).spentOf id ≤ ch.limit_per_period := by
      unfold Book.spentOf
      cases hm : (book m).channels.lookup id with
      | none =>
          rw [Map.valueAt_none hm]
          exact hlimited.spent_nonneg.trans hlimited.spent_le
      | some c =>
          obtain ⟨c', hc', hlimit, _⟩ := Runs.plan_keep hafter hinvm hm
          cases hl.symm.trans hc'
          rw [Map.valueAt_some hm, hlimit]
          exact (hholds.1 c hm).spent_le
    calc tally (Tx.debited id) (first :: middle)
        ≤ (book m).spentOf id :=
          Runs.between_resets hinv (Runs.periodHolds h0 hbefore id) hst hrun hmiddle
      _ ≤ ch.limit_per_period := hspent
  · intro a
    rw [tally_window]
    exact hlimited.window a

end

/-! ## A full window -/

section

open Scenario

/-- The limit is spent at the end of one period and again at the start of the next. -/
def doubleSpendScript : List Move := [
  .invoke [owner] honestSwap (.openChannel owner agent usdc 300 100 .Hourly),
  .wait 719,
  .invoke [agent] honestSwap (.pay agent 1 recipient 100 []),
  .wait 1,
  .invoke [agent] honestSwap (.payWithConversion agent 1 recipient 100 usdc 100 [])]

/-- The bound of twice the limit is reached. -/
theorem spend_rate_double :
    tally (fun t : Tx => if 819 ≤ t.pre.sequence ∧ t.pre.sequence < 819 + 720
        then t.debited 1 else 0) (history doubleSpendScript) ≤ 2 * 100 ∧
      tally (fun t : Tx => if 819 ≤ t.pre.sequence ∧ t.pre.sequence < 819 + 720
        then t.debited 1 else 0) (history doubleSpendScript) = 200 := by
  have hplan : ((loadChannels (outcome doubleSpendScript)).lookup 1).map
      (fun ch => (ch.limit_per_period, ch.period)) = some (100, .Hourly) := by decide +kernel
  obtain ⟨ch, hl, hch⟩ := Option.map_eq_some_iff.mp hplan
  obtain ⟨hlimit, hperiod⟩ := Prod.mk.inj hch
  have hwindow :=
    (spend_rate start_genesis (script_runs doubleSpendScript (by decide +kernel)) hl).2 819
  rw [hlimit, hperiod] at hwindow
  exact ⟨hwindow, by decide +kernel⟩

end

end StellarAgent.PaymentChannel
