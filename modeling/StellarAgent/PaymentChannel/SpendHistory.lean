import StellarAgent.PaymentChannel.Payout
import StellarAgent.PaymentChannel.SpendRate
import StellarAgent.Zk.Prover

set_option autoImplicit false

/-! # Whether a channel can prove its solvency

The history of a channel lists what was spent from it, each amount with the number of period resets
so far. Payments keep to the limit of their period, and settled vouchers do not look at it. So the
prover takes the history exactly if no period in which a voucher was settled spends more than the
limit (`solvency_provable_iff`).
-/

namespace StellarAgent.PaymentChannel

open Lib Soroban Zk

/-! ## The history -/

/-- What an operation spends from channel `id` -/
def BookOp.spends (b : Book) (id : Nat) : BookOp → Option Int
  | .debited id' amount => if id' = id then some amount else none
  | .settled v penalty =>
      if v.channel_id = id then some (v.cumulative_amount + penalty - b.settledFor v.key) else none
  | _ => none

def BookOp.isVoucher : BookOp → Bool
  | .settled _ _ => true
  | _ => false

/-- The transaction restarts the period of channel `id`. -/
def Tx.resets (id : Nat) (t : Tx) : Bool :=
  match t.op with
  | .debited id' _ => id' = id && ((loadChannels t.pre).lookup id).any fun ch =>
      ch.period_start_ledger + ledgersPerPeriod ch.period ≤ t.pre.sequence
  | _ => false

/-- One amount spent -/
structure SpendEntry where
  amount : Nat
  period : Nat
  voucher : Bool

structure SpendHistory where
  entries : List SpendEntry
  resets : Nat

namespace SpendHistory

/-- One amount more, in the current period or in the next one -/
def add (history : SpendHistory) (amount period : Nat) (voucher : Bool) : SpendHistory :=
  { entries := history.entries ++ [⟨amount, period, voucher⟩], resets := period }

def after (id : Nat) (history : SpendHistory) (t : Tx) : SpendHistory :=
  match t.op.spends (book t.pre) id with
  | some amount =>
      history.add amount.toNat
        (if t.resets id then history.resets + 1 else history.resets) t.op.isVoucher
  | none => history

/-- The record that the owner hands to the prover -/
def record (history : SpendHistory) : List HistoryEntry :=
  history.entries.map fun entry => ⟨entry.amount, entry.period⟩

/-- What was spent in a period -/
def spentIn (history : SpendHistory) (period : Nat) : Nat :=
  groupSum period (history.entries.map fun entry => (entry.amount, entry.period))

/-- What the payment functions spent in a period -/
def paidIn (history : SpendHistory) (period : Nat) : Nat :=
  groupSum period ((history.entries.filter fun entry => !entry.voucher).map fun entry =>
    (entry.amount, entry.period))

/-- No period with a settled voucher spends more than the limit. -/
def VouchersFit (limit : Nat) (history : SpendHistory) : Prop :=
  ∀ entry ∈ history.entries, entry.voucher = true → history.spentIn entry.period ≤ limit

end SpendHistory

/-- The history of channel `id` in a run -/
def spendHistory (id : Nat) (tr : List Tx) : SpendHistory := tr.foldl (.after id) ⟨[], 0⟩

/-! ## What the contract and the prover should agree on -/

/-- `x as u128` -/
def asU128 (x : Int) : Nat := (x % 2 ^ 128).toNat

/-- The public inputs of `verify_solvency_proof` -/
def publicInputs (ch : Channel) : Fr × Fr :=
  ((asU128 ch.limit_per_period : Nat), (asU128 ch.total_spent : Nat))

/-- The prover takes the history, and proves it for the public inputs of the contract. -/
structure Provable {Proof : Type} (is_satisfied : List Constraint → Bool)
    (groth16 : List PrivatePayment → Fr × Fr → Proof) (ch : Channel) (history : List HistoryEntry) :
    Prop where
  total : (history_total history : Int) = ch.total_spent
  accepted : ∃ payments, build_witness history (asU128 ch.limit_per_period) = .ok payments ∧
    prove is_satisfied groth16 history (asU128 ch.limit_per_period) (asU128 ch.total_spent) =
      .ok (groth16 payments (publicInputs ch))

/-! ## What an operation adds to the total -/

/-- What channel `id` has spent; nothing if it does not exist. -/
def Book.totalOf (b : Book) (id : Nat) : Int :=
  Map.valueAt (fun _ ch => ch.total_spent) id b.channels

section

variable {V : BytesN 32 → Claim → Prop} {b b' : Book} {op : BookOp} {id : Nat}

theorem Book.totalOf_setChannel {ch ch' : Channel} (hl : b.channels.lookup id = some ch)
    (id' : Nat) : (b.setChannel id ch').totalOf id' = b.totalOf id' +
      if id = id' then ch'.total_spent - ch.total_spent else 0 := by
  rw [totalOf, setChannel_channels, Map.valueAt_insert]
  by_cases hid : id' = id
  · subst hid
    rw [if_pos rfl, if_pos rfl, totalOf, Map.valueAt_some hl]
    omega
  · rw [if_neg hid, if_neg (Ne.symm hid), add_zero]
    rfl

theorem Book.totalOf_keep {ch ch' : Channel} (hl : b.channels.lookup id = some ch)
    (htotal : ch'.total_spent = ch.total_spent) (id' : Nat) :
    (b.setChannel id ch').totalOf id' = b.totalOf id' := by
  rw [totalOf_setChannel hl, htotal, sub_self, ite_self, add_zero]

theorem Book.totalOf_payOut {v : Claim} {ch : Channel} {a : Allocation} {penalty : Int}
    (hl : b.channels.lookup v.channel_id = some ch) (ha : b.allocations.lookup v.key = some a)
    (id : Nat) : (b.payOut v ch a penalty).totalOf id = b.totalOf id +
      ((BookOp.settled v penalty).spends b id).getD 0 := by
  have hset := @Book.totalOf_setChannel (b.setAllocation v.key
    { amount := 0, settled := v.cumulative_amount + penalty }) v.channel_id ch
    { ch with
      allocated := ch.allocated - a.amount
      collateral := ch.collateral - (v.cumulative_amount - a.settled + penalty)
      total_spent := ch.total_spent + (v.cumulative_amount - a.settled + penalty) } hl id
  refine hset.trans ?_
  simp only [BookOp.spends, settledFor, reservation_eq ha]
  by_cases hid : v.channel_id = id
  · rw [if_pos hid, if_pos hid]
    show b.totalOf id + _ = b.totalOf id + (v.cumulative_amount + penalty - a.settled)
    omega
  · rw [if_neg hid, if_neg hid]
    rfl

/-- **One operation** adds to the total what it spends. -/
theorem Book.Step.totalOf (h : Step V b op b') (hinv : b.Inv) (id : Nat) :
    b'.totalOf id = b.totalOf id + (op.spends b id).getD 0 := by
  cases h with
  | @opened ch deposit hopen =>
      simp only [Book.totalOf, setChannel_channels, Map.valueAt_insert, BookOp.spends,
        Option.getD_none, add_zero]
      by_cases hid : id = b.count + 1
      · subst hid
        rw [if_pos rfl, hopen.total_spent, Map.valueAt_none hinv.no_fresh_channel]
      · rw [if_neg hid]
  | @debited id' ch ch' amount hl hdebit =>
      rw [totalOf_setChannel hl, hdebit.result]
      simp only [BookOp.spends]
      by_cases hid : id' = id
      · rw [if_pos hid, if_pos hid]
        show b.totalOf id + (ch.total_spent + amount - ch.total_spent) = b.totalOf id + amount
        omega
      · rw [if_neg hid, if_neg hid]
        rfl
  | funded hl _ =>
      rw [totalOf_keep hl]
      · exact (add_zero _).symm
      · rfl
  | refunded _ hl _ _ =>
      rw [totalOf_keep hl]
      · exact (add_zero _).symm
      · rfl
  | enabled hl _ =>
      rw [totalOf_keep hl]
      · exact (add_zero _).symm
      · rfl
  | reserved hl _ _ _ _ =>
      rw [(b.setAllocation _ _).totalOf_keep hl]
      · exact (add_zero _).symm
      · rfl
  | cooperative hp _ => exact totalOf_payOut hp.channel hp.allocation id
  | @finalized v _ _ _ hl _ ha _ _ _ => exact (b.dropSettlement v.key).totalOf_payOut hl ha id
  | idle _ => exact (add_zero _).symm
  | disputed _ _ => exact (add_zero _).symm
  | raised _ _ _ _ => exact (add_zero _).symm

/-- What is spent is positive, and from a channel that exists. -/
theorem Book.Step.spends_positive {amount : Int} (h : Step V b op b') (hinv : b.Inv)
    (hspends : op.spends b id = some amount) :
    0 < amount ∧ ∃ ch, b.channels.lookup id = some ch := by
  cases op with
  | debited id' amount' =>
      simp only [BookOp.spends, Option.ite_none_right_eq_some, Option.some.injEq] at hspends
      obtain ⟨rfl, rfl⟩ := hspends
      generalize hop : BookOp.debited id' amount' = op at h
      cases h with
      | debited hl hdebit =>
          cases hop
          exact ⟨hdebit.positive, _, hl⟩
      | _ => cases hop
  | settled v penalty =>
      simp only [BookOp.spends, Option.ite_none_right_eq_some, Option.some.injEq] at hspends
      obtain ⟨rfl, rfl⟩ := hspends
      obtain ⟨hfresh, hpenalty, _⟩ := h.settled_spec hinv
      refine ⟨by omega, ?_⟩
      generalize hop : BookOp.settled v penalty = op at h
      cases h with
      | cooperative hp _ =>
          cases hop
          exact ⟨_, hp.channel⟩
      | finalized hl _ _ _ _ _ =>
          cases hop
          exact ⟨_, hl⟩
      | _ => cases hop
  | _ => cases hspends

end

/-! ## The history and the record of the channel -/

section

variable {history : SpendHistory} {amount period : Nat} {voucher : Bool}

theorem SpendHistory.paidIn_payment (key : Nat) :
    (history.add amount period false).paidIn key
      = history.paidIn key + if period = key then amount else 0 := by
  simp [paidIn, add, groupSum_append]

theorem SpendHistory.paidIn_voucher (key : Nat) :
    (history.add amount period true).paidIn key = history.paidIn key := by
  simp [paidIn, add]

/-- What the history says of a channel: its total, and what its current period has spent. -/
structure Book.Recorded (b : Book) (id : Nat) (history : SpendHistory) : Prop where
  total : ((history.entries.map SpendEntry.amount).sum : Int) = b.totalOf id
  ordered : (history.entries.map SpendEntry.period).Pairwise (· ≤ ·)
  period_le : ∀ entry ∈ history.entries, entry.period ≤ history.resets
  resets_le : history.resets ≤ history.entries.length
  fresh : b.channels.lookup id = none → history = ⟨[], 0⟩
  payments : ∀ ch, b.channels.lookup id = some ch →
    (∀ key, (history.paidIn key : Int) ≤ ch.limit_per_period) ∧
      (history.paidIn history.resets : Int) = ch.spent_this_period

variable {b b' : Book} {id : Nat}

/-- Nothing has been spent in the periods to come. -/
theorem Book.Recorded.paidIn_later (h : b.Recorded id history) {key : Nat}
    (hkey : history.resets < key) : history.paidIn key = 0 := by
  refine groupSum_eq_zero ?_
  intro x hx hperiod
  obtain ⟨entry, hentry, rfl⟩ := List.mem_map.mp hx
  have hle := h.period_le entry (List.mem_filter.mp hentry).1
  exact absurd (hperiod ▸ hle) (not_le.mpr hkey)

theorem Book.Recorded.add (h : b.Recorded id history) (hlow : history.resets ≤ period)
    (hhigh : period ≤ history.resets + 1) (htotal : b'.totalOf id = b.totalOf id + amount)
    (hexists : b'.channels.lookup id ≠ none)
    (hpayments : ∀ ch, b'.channels.lookup id = some ch →
      (∀ key, ((history.add amount period voucher).paidIn key : Int) ≤ ch.limit_per_period) ∧
        ((history.add amount period voucher).paidIn period : Int) = ch.spent_this_period) :
    b'.Recorded id (history.add amount period voucher) := by
  refine ⟨?_, ?_, ?_, ?_, fun hnone => absurd hnone hexists, hpayments⟩
  · have hsum := h.total
    simp only [SpendHistory.add, List.map_append, List.sum_append, List.map_cons, List.map_nil,
      List.sum_singleton, Nat.cast_add, htotal]
    omega
  · simp only [SpendHistory.add, List.map_append, List.map_cons, List.map_nil]
    refine List.pairwise_append.mpr ⟨h.ordered, List.pairwise_singleton _ _, ?_⟩
    intro key hkey last hlast
    obtain ⟨entry, hentry, rfl⟩ := List.mem_map.mp hkey
    rw [List.mem_singleton.mp hlast]
    exact (h.period_le entry hentry).trans hlow
  · intro entry hentry
    obtain hentry | hlast := List.mem_append.mp hentry
    · exact (h.period_le entry hentry).trans hlow
    · rw [List.mem_singleton.mp hlast]
      exact le_refl period
  · have hlength := h.resets_le
    simp only [SpendHistory.add, List.length_append, List.length_singleton]
    omega

end

section

variable {P : Platform} {d : Deployment} {w w' w0 : State} {a : Action Call} {tr : List Tx}
  {id : Nat} {history : SpendHistory}

/-- What a payment does to the history -/
theorem Book.Debit.recorded {ch ch' : Channel} {amount : Int} {now : Nat}
    (hdebit : Book.Debit now ch amount ch') {b b' : Book} (h : b.Recorded id history)
    (hl : b.channels.lookup id = some ch) (hl' : b'.channels.lookup id = some ch')
    (htotal : b'.totalOf id = b.totalOf id + amount) :
    b'.Recorded id (history.add amount.toNat
      (if ch.period_start_ledger + ledgersPerPeriod ch.period ≤ now then history.resets + 1
        else history.resets) false) := by
  have hcast : (amount.toNat : Int) = amount := Int.toNat_of_nonneg hdebit.positive.le
  obtain ⟨hlimit, hspent⟩ := h.payments ch hl
  have hbound := hdebit.limit
  have hexists : b'.channels.lookup id ≠ none := by simp [hl']
  have hresult := hdebit.result
  split
  · rename_i hexpired
    rw [Book.rolled, if_pos hexpired] at hbound hresult
    dsimp only at hbound
    refine h.add (Nat.le_succ _) le_rfl (by rw [hcast]; exact htotal) hexists (fun c hc => ?_)
    cases hl'.symm.trans hc
    rw [hresult]
    have hlater := h.paidIn_later (Nat.lt_succ_self history.resets)
    constructor
    · intro key
      rw [SpendHistory.paidIn_payment]
      have hkey := hlimit key
      split
      · rename_i heq
        rw [← heq, hlater]
        push_cast
        omega
      · simpa using hkey
    · rw [SpendHistory.paidIn_payment, if_pos rfl, hlater]
      push_cast
      omega
  · rename_i hcurrent
    rw [Book.rolled, if_neg hcurrent] at hbound hresult
    refine h.add le_rfl (Nat.le_succ _) (by rw [hcast]; exact htotal) hexists (fun c hc => ?_)
    cases hl'.symm.trans hc
    rw [hresult]
    constructor
    · intro key
      rw [SpendHistory.paidIn_payment]
      have hkey := hlimit key
      split
      · rename_i heq
        rw [← heq]
        push_cast
        omega
      · simpa using hkey
    · rw [SpendHistory.paidIn_payment, if_pos rfl]
      push_cast
      omega

/-- **One transaction** and the history. -/
theorem Refines.recorded (h : Refines P d w a w') (hinv : (book w).Inv)
    (hrecorded : (book w).Recorded id history) :
    (book w').Recorded id (history.after id ⟨w, a, w'⟩) := by
  have hstep := h.step
  have htotal := hstep.totalOf hinv id
  have hop : Tx.op ⟨w, a, w'⟩ = opOf a w'.events := rfl
  rw [SpendHistory.after, hop]
  show Book.Recorded _ id (match (opOf a w'.events).spends (book w) id with
    | some amount => _
    | none => _)
  cases hspends : (opOf a w'.events).spends (book w) id with
  | none =>
      have hne : ∀ amount, opOf a w'.events ≠ .debited id amount := by
        intro amount heq
        rw [heq] at hspends
        simp [BookOp.spends] at hspends
      rw [hspends, Option.getD_none, add_zero] at htotal
      refine ⟨hrecorded.total.trans htotal.symm, hrecorded.ordered, hrecorded.period_le,
        hrecorded.resets_le, ?_, ?_⟩
      · intro hnone
        cases hl : (book w).channels.lookup id with
        | none => exact hrecorded.fresh hl
        | some ch =>
            obtain ⟨ch', hl', _⟩ := hstep.channel_step hinv hl
            cases hnone.symm.trans hl'
      · intro c hc
        cases hl : (book w).channels.lookup id with
        | none =>
            obtain ⟨deposit, _, hopening⟩ := hstep.channel_new hl hc
            rw [hrecorded.fresh hl, hopening.spent]
            exact ⟨fun key => hopening.limit, rfl⟩
        | some ch =>
            obtain ⟨ch', hl', hchannel⟩ := hstep.channel_step hinv hl
            cases hl'.symm.trans hc
            rw [hchannel.plan.1, (hchannel.spending hne).1]
            exact hrecorded.payments ch hl
  | some amount =>
      obtain ⟨hpositive, ch, hl⟩ := hstep.spends_positive hinv hspends
      obtain ⟨ch', hl', hchannel⟩ := hstep.channel_step hinv hl
      rw [hspends, Option.getD_some] at htotal
      have hkind : opOf a w'.events = .debited id amount ∨
          (opOf a w'.events).isVoucher = true := by
        cases hcase : opOf a w'.events with
        | debited id' amount' =>
            rw [hcase] at hspends
            simp only [BookOp.spends, Option.ite_none_right_eq_some, Option.some.injEq] at hspends
            obtain ⟨rfl, rfl⟩ := hspends
            exact .inl rfl
        | settled v penalty => exact .inr rfl
        | _ =>
            rw [hcase] at hspends
            cases hspends
      obtain hdebited | hvoucher := hkind
      · have hresets : Tx.resets id ⟨w, a, w'⟩ =
            decide (ch.period_start_ledger + ledgersPerPeriod ch.period ≤ w.sequence) := by
          have hlookup : (loadChannels w).lookup id = some ch := hl
          simp [Tx.resets, hop, hdebited, hlookup]
        rw [hresets, hdebited]
        simp only [decide_eq_true_eq]
        exact (hchannel.debit amount hdebited).recorded hrecorded hl hl' htotal
      · have hne : ∀ amount, opOf a w'.events ≠ .debited id amount := by
          intro amount heq
          rw [heq] at hvoucher
          cases hvoucher
        have hresets : Tx.resets id ⟨w, a, w'⟩ = false := by
          cases hcase : opOf a w'.events with
          | settled v penalty => simp [Tx.resets, hop, hcase]
          | _ =>
              rw [hcase] at hvoucher
              cases hvoucher
        rw [hresets, hvoucher]
        simp only [Bool.false_eq_true, if_false]
        have hexists : (book w').channels.lookup id ≠ none := by
          rw [hl']
          exact Option.some_ne_none ch'
        refine hrecorded.add le_rfl (Nat.le_succ _) ?_ hexists (fun c hc => ?_)
        · rw [Int.toNat_of_nonneg hpositive.le]
          exact htotal
        · cases hl'.symm.trans hc
          simp only [SpendHistory.paidIn_voucher]
          rw [hchannel.plan.1, (hchannel.spending hne).1]
          exact hrecorded.payments ch hl

theorem spendHistory_snoc (id : Nat) (tr : List Tx) (t : Tx) :
    spendHistory id (tr ++ [t]) = (spendHistory id tr).after id t := by
  simp [spendHistory, List.foldl_append]

/-- **The history of a run** says what the channel has spent. -/
theorem Runs.recorded (h0 : Genesis w0) (h : Runs P d w0 tr w) (id : Nat) :
    (book w).Recorded id (spendHistory id tr) := by
  refine Runs.history (Q := fun tr w => (book w).Recorded id (spendHistory id tr)) h
    (genesis_inv h0) ?_ (fun tr m a m' hinv ih _ hrefines => ?_)
  · rw [genesis_book h0]
    refine ⟨rfl, List.Pairwise.nil, ?_, le_rfl, fun _ => rfl, ?_⟩
    · intro entry hentry
      cases hentry
    · intro ch hch
      cases hch
  · rw [spendHistory_snoc]
    exact hrefines.recorded hinv ih

/-! ## The integers of the record -/

/-- Limit and total of channel `id` are values of their type. -/
def Book.Bounded (b : Book) (id : Nat) : Prop :=
  ∀ ch, b.channels.lookup id = some ch →
    ch.limit_per_period ≤ I128_MAX ∧ ch.total_spent ≤ I128_MAX

section

variable {env : Env} {r : Address}

theorem debit_bounded {ch ch' : Channel} {amount : Int} (h : debit ch amount = .ok ch') :
    ch'.total_spent ≤ I128_MAX := by
  simp only [debit, Result.bind_eq_ok, checkI128_eq_ok, Result.pure_eq_ok] at h
  obtain ⟨_, _, _, ⟨htotal, rfl⟩, _, _, rfl⟩ := h
  exact htotal.2

theorem pay_bounded {agent : Address} {amount : Int} {memo : Bytes}
    (h : pay env w agent id r amount memo = .ok w') :
    ∃ ch', (book w').channels.lookup id = some ch' ∧ ch'.total_spent ≤ I128_MAX := by
  simp only [pay, Result.bind_eq_ok, Result.pure_eq_ok] at h
  obtain ⟨_, _, _, _, _, _, _, _, _, _, _, _, _, _, _, _, _, _, ch', hdebit, rfl⟩ := h
  exact ⟨ch', Finmap.lookup_insert _, debit_bounded hdebit⟩

theorem payWithConversion_bounded {agent dest_token : Address}
    {amount min_received received : Int} {memo : Bytes}
    (h : payWithConversion env w agent id r amount dest_token min_received memo
      = .ok (received, w')) :
    ∃ ch', (book w').channels.lookup id = some ch' ∧ ch'.total_spent ≤ I128_MAX := by
  simp only [payWithConversion, Result.bind_eq_ok, Result.pure_eq_ok] at h
  obtain ⟨_, _, _, _, _, _, _, _, _, _, _, _, _, _, _, _, _, _, _, _, ch', hdebit, hw⟩ := h
  cases hw
  exact ⟨ch', Finmap.lookup_insert _, debit_bounded hdebit⟩

theorem payWithRoute_bounded {agent dest_token : Address} {amount min_received received : Int}
    {route : List SwapHop} {valid_until : Nat} {memo : Bytes}
    (h : payWithRoute env w agent id r amount dest_token route min_received valid_until memo
      = .ok (received, w')) :
    ∃ ch', (book w').channels.lookup id = some ch' ∧ ch'.total_spent ≤ I128_MAX := by
  simp only [payWithRoute, Result.bind_eq_ok, Result.pure_eq_ok] at h
  obtain ⟨_, _, _, _, _, _, _, _, _, _, _, _, _, _, _, _, _, _, _, _, _, _, ch', hdebit, hw⟩ := h
  cases hw
  exact ⟨ch', Finmap.lookup_insert _, debit_bounded hdebit⟩

theorem payOut_bounded {amount penalty : Int} (h : payOut env w id r amount penalty = .ok w') :
    ∃ ch', (book w').channels.lookup id = some ch' ∧ ch'.total_spent ≤ I128_MAX := by
  simp only [payOut, Result.bind_eq_ok, checkI128_eq_ok, Result.pure_eq_ok] at h
  obtain ⟨_, _, _, _, _, _, _, _, _, _, _, _, _, _, _, _, _, _, _, ⟨htotal, rfl⟩, _, _, rfl⟩ := h
  exact ⟨_, Finmap.lookup_insert _, htotal.2⟩

end

theorem closeCooperative_bounded {env : Env} {r : Address} {sequence : Nat} {c paid : Int}
    {signature : BytesN 64} (h : closeCooperative env w id r sequence c signature = .ok (paid, w')) :
    ∃ ch', (book w').channels.lookup id = some ch' ∧ ch'.total_spent ≤ I128_MAX := by
  simp only [closeCooperative, Result.bind_eq_ok, Result.pure_eq_ok] at h
  obtain ⟨_, _, _, _, _, _, _, _, _, _, _, _, next, hpay, hw⟩ := h
  cases hw
  obtain ⟨ch', hl', htotal⟩ := payOut_bounded hpay
  exact ⟨ch', hl', htotal⟩

theorem finalize_bounded {env : Env} {r : Address} {paid : Int}
    (h : finalize env w id r = .ok (paid, w')) :
    ∃ ch', (book w').channels.lookup id = some ch' ∧ ch'.total_spent ≤ I128_MAX := by
  simp only [finalize, Result.bind_eq_ok, Result.pure_eq_ok] at h
  obtain ⟨_, _, _, _, _, _, _, _, _, _, _, _, next, hpay, _, _, hw⟩ := h
  cases hw
  obtain ⟨ch', hl', htotal⟩ := payOut_bounded hpay
  exact ⟨ch', hl', htotal⟩

/-- After a spending the total is a value of its type. -/
theorem spends_bounded {amount : Int} (hst : Step P d w a w') (h : Refines P d w a w')
    (hspends : (opOf a w'.events).spends (book w) id = some amount) :
    ∃ ch', (book w').channels.lookup id = some ch' ∧ ch'.total_spent ≤ I128_MAX := by
  have hidle : opOf a w'.events ≠ .idle := by
    intro heq
    rw [heq] at hspends
    cases hspends
  obtain ⟨env, call, rfl, _, _, hexec⟩ := step_called hst hidle
  have hreported := h.reported
  cases hop : opOf (.invoke env call) w'.events with
  | debited id' amount' =>
      rw [hop] at hspends hreported
      simp only [BookOp.spends, Option.ite_none_right_eq_some] at hspends
      obtain ⟨rfl, _⟩ := hspends
      cases call with
      | pay agent channel_id recipient paid memo =>
          obtain ⟨rfl, _⟩ := hreported
          exact pay_bounded hexec
      | payWithConversion agent channel_id recipient paid dest_token min_received memo =>
          obtain ⟨rfl, _⟩ := hreported
          obtain ⟨⟨received, w1⟩, hcall, rfl⟩ := Result.map_eq_ok.mp hexec
          exact payWithConversion_bounded hcall
      | payWithRoute agent channel_id recipient paid dest_token route min_received valid memo =>
          obtain ⟨rfl, _⟩ := hreported
          obtain ⟨⟨received, w1⟩, hcall, rfl⟩ := Result.map_eq_ok.mp hexec
          exact payWithRoute_bounded hcall
      | _ => exact False.elim hreported
  | settled v penalty =>
      rw [hop] at hspends hreported
      simp only [BookOp.spends, Option.ite_none_right_eq_some] at hspends
      obtain ⟨rfl, _⟩ := hspends
      cases call with
      | closeCooperative channel_id recipient sequence c signature =>
          obtain ⟨rfl, _⟩ := hreported
          obtain ⟨⟨paid, w1⟩, hcall, rfl⟩ := Result.map_eq_ok.mp hexec
          exact closeCooperative_bounded hcall
      | finalize channel_id recipient =>
          obtain ⟨⟨paid, w1⟩, hcall, rfl⟩ := Result.map_eq_ok.mp hexec
          obtain ⟨hid, _⟩ := Prod.mk.inj hreported
          rw [hid]
          exact finalize_bounded hcall
      | _ => exact False.elim hreported
  | _ =>
      rw [hop] at hspends
      cases hspends

theorem openChannel_bounded {env : Env} {owner agent token : Address} {deposit limit : Int}
    {period : SpendPeriod} {new : Nat} (hlimit : limit ≤ I128_MAX)
    (h : openChannel env w owner agent token deposit limit period = .ok (new, w')) :
    ∃ ch', (book w').channels.lookup ((book w).count + 1) = some ch' ∧
      ch'.limit_per_period ≤ I128_MAX := by
  simp only [openChannel, nextId, Result.bind_eq_ok, Result.pure_eq_ok, checkU64_eq_ok,
    World.transfer_eq_ok] at h
  obtain ⟨_, _, _, _, _, _, _, _, w1, ⟨_, _, rfl⟩, ⟨next_id, w2⟩, ⟨n, ⟨_, rfl⟩, hn⟩, hw⟩ := h
  cases hn
  cases hw
  exact ⟨_, Finmap.lookup_insert _, hlimit⟩

theorem Book.Step.opened_id {V : BytesN 32 → Claim → Prop} {b b' : Book} {deposit : Int}
    (h : Step V b (.opened id deposit) b') : id = b.count + 1 := by
  generalize hop : BookOp.opened id deposit = op at h
  cases h with
  | opened _ =>
      cases hop
      rfl
  | _ => cases hop

/-- A channel is opened with a limit of its type. -/
theorem opened_bounded {deposit : Int} (hst : Step P d w a w')
    (h : Refines P d w a w') (hop : opOf a w'.events = .opened id deposit) :
    ∃ ch', (book w').channels.lookup id = some ch' ∧ ch'.limit_per_period ≤ I128_MAX := by
  have hidle : opOf a w'.events ≠ .idle := by simp [hop]
  obtain ⟨env, call, rfl, htyped, _, hexec⟩ := step_called hst hidle
  have hreported := h.reported
  have hstep := h.step
  rw [hop] at hreported hstep
  have hid := hstep.opened_id
  cases call with
  | openChannel owner agent token deposit' limit period =>
      obtain ⟨⟨new, w1⟩, hcall, rfl⟩ := Result.map_eq_ok.mp hexec
      have htypes : IsI128 deposit' ∧ IsI128 limit := htyped
      have hlimit : limit ≤ I128_MAX := htypes.2.2
      have hopened := openChannel_bounded hlimit hcall
      rw [book_quiet] at hopened
      rw [hid]
      exact hopened
  | _ => exact False.elim hreported

theorem step_bounded (hinv : (book w).Inv) (hst : Step P d w a w') (hbounded : (book w).Bounded id) :
    (book w').Bounded id := by
  have hrefines := step_refines hinv hst
  have hstep := hrefines.step
  intro c hc
  cases hl : (book w).channels.lookup id with
  | none =>
      obtain ⟨deposit, hop, hopening⟩ := hstep.channel_new hl hc
      obtain ⟨ch', hl', hlimit⟩ := opened_bounded hst hrefines hop
      cases hl'.symm.trans hc
      refine ⟨hlimit, ?_⟩
      rw [hopening.total_spent]
      decide
  | some ch =>
      obtain ⟨ch', hl', hchannel⟩ := hstep.channel_step hinv hl
      cases hl'.symm.trans hc
      obtain ⟨hlimit, htotal⟩ := hbounded ch hl
      rw [hchannel.plan.1]
      refine ⟨hlimit, ?_⟩
      cases hspends : (opOf a w'.events).spends (book w) id with
      | none =>
          have hsame := hstep.totalOf hinv id
          rw [hspends, Option.getD_none, add_zero, Book.totalOf, Map.valueAt_some hl', Book.totalOf,
            Map.valueAt_some hl] at hsame
          rw [hsame]
          exact htotal
      | some amount =>
          obtain ⟨c', hc', hspent⟩ := spends_bounded hst hrefines hspends
          cases hc.symm.trans hc'
          exact hspent

theorem Runs.bounded (h0 : Genesis w0) (h : Runs P d w0 tr w) (id : Nat) :
    (book w).Bounded id := by
  refine Runs.history (Q := fun _ w => (book w).Bounded id) h (genesis_inv h0) ?_
    (fun _ m a m' hinv ih hst _ => step_bounded hinv hst ih)
  rw [genesis_book h0]
  intro ch hch
  cases hch

end

/-! ## The prover -/

namespace SpendHistory

variable (history : SpendHistory)

theorem record_amounts :
    history.record.map HistoryEntry.amount = history.entries.map SpendEntry.amount := by
  rw [record, List.map_map]
  rfl

theorem record_grouped :
    grouped history.record = history.entries.map fun entry => (entry.amount, entry.period) := by
  rw [grouped, record, List.map_map]
  rfl

/-- A period without vouchers spends what the payment functions spend. -/
theorem spentIn_of_payments {key : Nat}
    (h : ∀ entry ∈ history.entries, entry.period = key → entry.voucher = false) :
    history.spentIn key = history.paidIn key := by
  unfold spentIn paidIn
  generalize history.entries = entries at h ⊢
  induction entries with
  | nil => rfl
  | cons entry entries ih =>
      have hrest := ih (fun e he => h e (List.mem_cons_of_mem entry he))
      rw [List.map_cons, groupSum_cons, hrest]
      cases hvoucher : entry.voucher with
      | false => rw [List.filter_cons_of_pos (by simp [hvoucher]), List.map_cons, groupSum_cons]
      | true =>
          have hkey : entry.period ≠ key := by
            intro heq
            rw [h entry List.mem_cons_self heq] at hvoucher
            cases hvoucher
          rw [List.filter_cons_of_neg (by simp [hvoucher]), if_neg hkey, zero_add]

end SpendHistory

theorem asU128_eq {x : Int} (hnonneg : 0 ≤ x) (hle : x ≤ I128_MAX) : asU128 x = x.toNat := by
  unfold I128_MAX at hle
  rw [asU128, Int.emod_eq_of_lt hnonneg (by omega)]

section

variable {P : Platform} {d : Deployment} {w w0 : State} {tr : List Tx} {id : Nat}
  {holds : Constraint → Prop} {is_satisfied : List Constraint → Bool} {Proof : Type}
  {groth16 : List PrivatePayment → Fr × Fr → Proof}

/-- **Which channels can prove their solvency.** The history of a channel with at most
`MAX_PAYMENTS` spendings sums up to its total, and is accepted and proved exactly if no period in
which a voucher was settled spends more than the limit. -/
theorem solvency_provable_iff (hgadgets : Gadgets holds)
    (hsatisfied : ∀ constraints, is_satisfied constraints = true ↔ ∀ c ∈ constraints, holds c)
    (h0 : Genesis w0) (h : Runs P d w0 tr w) {ch : Channel}
    (hl : (loadChannels w).lookup id = some ch)
    (hcount : (spendHistory id tr).entries.length ≤ MAX_PAYMENTS) :
    Provable is_satisfied groth16 ch (spendHistory id tr).record ↔
      (spendHistory id tr).VouchersFit ch.limit_per_period.toNat := by
  have hrecorded := h.recorded h0 id
  obtain ⟨hlimitMax, htotalMax⟩ := h.bounded h0 id ch hl
  generalize spendHistory id tr = history at *
  obtain ⟨hpayments, _⟩ := hrecorded.payments ch hl
  have hlimit : 0 ≤ ch.limit_per_period := (Int.natCast_nonneg _).trans (hpayments 0)
  have hlimitSmall : ch.limit_per_period.toNat < 2 ^ 127 := by
    unfold I128_MAX at hlimitMax
    omega
  have hsum : ((history.entries.map SpendEntry.amount).sum : Int) = ch.total_spent := by
    rw [hrecorded.total]
    exact Map.valueAt_some hl
  have hsumSmall : (history.record.map HistoryEntry.amount).sum < 2 ^ 128 := by
    rw [history.record_amounts]
    unfold I128_MAX at htotalMax
    omega
  have htotal : history_total history.record = ch.total_spent.toNat := by
    rw [history_total, Nat.mod_eq_of_lt hsumSmall, history.record_amounts, ← hsum]
    exact (Int.toNat_natCast _).symm
  have hlength : history.record.length ≤ MAX_PAYMENTS := by
    rwa [SpendHistory.record, List.length_map]
  have hordered : ((grouped history.record).map Prod.snd).Pairwise (· ≤ ·) := by
    rw [history.record_grouped, List.map_map]
    exact hrecorded.ordered
  have hasLimit := asU128_eq hlimit hlimitMax
  have hasTotal := asU128_eq (by omega) htotalMax
  constructor
  · rintro ⟨-, payments, hbuild, -⟩
    rw [hasLimit] at hbuild
    have hwithin := (build_witness_ok_iff hlimitSmall hlength hordered).mp ⟨payments, hbuild⟩
    intro entry _ _
    have hgroup := hwithin entry.period
    rwa [history.record_grouped] at hgroup
  · intro hfit
    have hwithin : ∀ key, groupSum key (grouped history.record) ≤ ch.limit_per_period.toNat := by
      intro key
      rw [history.record_grouped]
      by_cases hvoucher : ∃ entry ∈ history.entries, entry.period = key ∧ entry.voucher = true
      · obtain ⟨entry, hentry, rfl, hsettled⟩ := hvoucher
        exact hfit entry hentry hsettled
      · -- without a voucher the limit of the payment functions is the limit of the period
        have honly : history.spentIn key = history.paidIn key := by
          refine history.spentIn_of_payments (fun entry hentry hkey => ?_)
          by_contra hsettled
          exact hvoucher ⟨entry, hentry, hkey, by simpa using hsettled⟩
        have hpaid := hpayments key
        have hspent : history.spentIn key ≤ ch.limit_per_period.toNat := by
          rw [honly]
          omega
        exact hspent
    have hperiods : ∀ entry ∈ history.record, entry.period_index < 2 ^ 127 := by
      intro entry hentry
      obtain ⟨e, he, rfl⟩ := List.mem_map.mp hentry
      have hperiod := hrecorded.period_le e he
      have hresets := hrecorded.resets_le
      unfold MAX_PAYMENTS at hcount
      show e.period < 2 ^ 127
      omega
    obtain ⟨payments, hbuild, hprove⟩ : ∃ payments,
        build_witness history.record ch.limit_per_period.toNat = .ok payments ∧
        prove is_satisfied groth16 history.record ch.limit_per_period.toNat ch.total_spent.toNat =
          .ok (groth16 payments
            ((ch.limit_per_period.toNat : Nat), (ch.total_spent.toNat : Nat))) :=
      prove_ok hgadgets hsatisfied (hlimitSmall.trans (by norm_num)) hlength hordered hperiods
        htotal hsumSmall hwithin
    refine ⟨?_, payments, ?_, ?_⟩
    · rw [htotal]
      omega
    · rw [hasLimit]
      exact hbuild
    · rw [hasLimit, hasTotal, publicInputs, hasLimit, hasTotal]
      exact hprove

end

/-! ## A voucher above the limit -/

section

open Scenario

instance : DecidablePred Constraint.Rows
  | .enforce_cmp _ _ .lt true => inferInstanceAs (Decidable (_ ∧ _))
  | .enforce_cmp _ _ .lt false => inferInstanceAs (Decidable (_ ∧ _))
  | .enforce_cmp _ _ .gt true => inferInstanceAs (Decidable (_ ∧ _))
  | .enforce_cmp _ _ .gt false => inferInstanceAs (Decidable (_ ∧ _))
  | .enforce_cmp _ _ .eq _ => inferInstanceAs (Decidable False)
  | .is_eq _ _ _ => inferInstanceAs (Decidable (_ ↔ _))
  | .conditionally_select _ _ _ _ => inferInstanceAs (Decidable (_ = _))
  | .enforce_equal _ _ => inferInstanceAs (Decidable (_ = _))

/-- `is_satisfied` for the rows of the library's gadgets -/
def rowsSatisfied (constraints : List Constraint) : Bool := constraints.all fun c => decide c.Rows

theorem rowsSatisfied_iff (constraints : List Constraint) :
    rowsSatisfied constraints = true ↔ ∀ c ∈ constraints, c.Rows := by
  simp [rowsSatisfied]

/-- A channel with a limit of 50 and a reservation of 100 -/
def reservedScript : List Move := [
  .invoke [owner] honestSwap (.openChannel owner agent usdc 200 50 .Daily),
  .invoke [owner] honestSwap (.enableVouchers owner 1 voucherKey 720),
  .invoke [owner] honestSwap (.allocate owner 1 recipient 100)]

/-- A voucher of 90 is settled by both sides. -/
def overLimitScript : List Move := reservedScript ++ [
  .invoke [owner, recipient] honestSwap (.closeCooperative 1 recipient 3 90 signature90)]

/-- A payment of 30 and a voucher of 20 -/
def withinLimitScript : List Move := reservedScript ++ [
  .invoke [agent] honestSwap (.pay agent 1 stranger 30 []),
  .invoke [owner, recipient] honestSwap (.closeCooperative 1 recipient 1 20 signature20)]

/-- The prover refuses the history of the channel. -/
theorem voucher_unprovable :
    ¬ ∀ (P : Platform) (d : Deployment) (w0 w : State) (tr : List Tx) (id : Nat) (ch : Channel),
      Genesis w0 → Runs P d w0 tr w → (loadChannels w).lookup id = some ch →
      0 < ch.limit_per_period → (spendHistory id tr).entries.length ≤ MAX_PAYMENTS →
      Provable rowsSatisfied Prod.mk ch (spendHistory id tr).record := by
  intro h
  have hlimits : ((loadChannels (outcome overLimitScript)).lookup 1).map Channel.limit_per_period
      = some 50 := by decide +kernel
  obtain ⟨ch, hl, hlimit⟩ := Option.map_eq_some_iff.mp hlimits
  obtain ⟨-, payments, hbuild, -⟩ := h testnet deployed start (outcome overLimitScript)
    (history overLimitScript) 1 ch start_genesis (script_runs overLimitScript (by decide +kernel))
    hl (by rw [hlimit]; decide) (by decide +kernel)
  rw [hlimit] at hbuild
  have hrefused : (build_witness (spendHistory 1 (history overLimitScript)).record
      (asU128 50)).isOk = false := by decide +kernel
  rw [hbuild] at hrefused
  cases hrefused

theorem solvency_provable_iff_within :
    ∃ ch, (loadChannels (outcome withinLimitScript)).lookup 1 = some ch ∧ ch.total_spent = 50 ∧
      Provable rowsSatisfied Prod.mk ch (spendHistory 1 (history withinLimitScript)).record := by
  have hvalues : ((loadChannels (outcome withinLimitScript)).lookup 1).map
      (fun ch => (ch.limit_per_period, ch.total_spent)) = some (50, 50) := by decide +kernel
  obtain ⟨ch, hl, hch⟩ := Option.map_eq_some_iff.mp hvalues
  obtain ⟨hlimit, htotal⟩ := Prod.mk.inj hch
  refine ⟨ch, hl, htotal, ?_⟩
  refine (solvency_provable_iff rows_gadgets rowsSatisfied_iff start_genesis
    (script_runs withinLimitScript (by decide +kernel)) hl (by decide +kernel)).mpr ?_
  rw [hlimit]
  have hfits : ((spendHistory 1 (history withinLimitScript)).entries.all fun entry =>
      (spendHistory 1 (history withinLimitScript)).spentIn entry.period ≤ 50) = true := by
    decide +kernel
  intro entry hentry _
  simpa using List.all_eq_true.mp hfits entry hentry

end

end StellarAgent.PaymentChannel
