import StellarAgent.PaymentChannel.Refinement
import StellarAgent.PaymentChannel.Scenario

set_option autoImplicit false

/-! # What a recipient is paid in total

`settled` counts what a recipient has been paid, penalties included, and a later voucher is paid
only as far as it exceeds that counter. So the total is the last voucher plus the last penalty:
an earlier penalty is offset against the vouchers after it. The lifetime law, total = largest
voucher + all penalties, holds for exactly the runs in which no settlement follows a penalised
one (`lifetime_payout_iff`).
-/

namespace StellarAgent.PaymentChannel

open Lib Soroban

/-! ## The settled counter -/

/-- Finalizing the close of `key` now would impose a penalty: the owner or the agent closed with
less than the best voucher, and the best voucher is below the reservation. -/
def Book.Penalising (b : Book) (key : PairKey) : Prop :=
  ∃ s a, b.settlements.lookup key = some s ∧ b.allocations.lookup key = some a ∧ Penalised s a

namespace Book

variable {V : BytesN 32 → Claim → Prop} {b b' : Book} {op : BookOp}

theorem settledFor_setAllocation {key key' : PairKey} {a : Allocation} :
    (b.setAllocation key a).settledFor key' = if key' = key then a.settled else b.settledFor key'
    := by
  unfold settledFor reservation
  rw [setAllocation_allocations, Map.lookup_insert_eq_ite]
  split <;> rfl

theorem penaltyOf_pos_iff {s : Settlement} {a : Allocation} :
    0 < penaltyOf s a ↔ Penalised s a := by
  unfold penaltyOf Penalised
  split
  · rename_i hraised
    simp only [lt_min_iff, sub_pos, hraised.1, true_and]
  · rename_i hraised
    constructor
    · intro hlt
      exact absurd hlt (lt_irrefl 0)
    · rintro ⟨hpayer, hlt, _⟩
      exact absurd ⟨hpayer, hlt⟩ hraised

/-- Only a settlement of the pair moves its counter. -/
theorem Step.settledFor_keep {key : PairKey} (h : Step V b op b')
    (hop : ∀ v penalty, op = .settled v penalty → v.key ≠ key) :
    b'.settledFor key = b.settledFor key := by
  cases h with
  | @reserved id r ch amount _ _ _ _ _ =>
      show (b.setAllocation (id, r) _).settledFor key = b.settledFor key
      rw [settledFor_setAllocation]
      split
      · rename_i hkey
        rw [hkey]
        rfl
      · rfl
  | @cooperative v ch a _ _ =>
      show (b.setAllocation v.key _).settledFor key = b.settledFor key
      rw [settledFor_setAllocation, if_neg (Ne.symm (hop v 0 rfl))]
  | @finalized v ch a s _ _ _ _ _ _ =>
      show ((b.dropSettlement v.key).setAllocation v.key _).settledFor key = b.settledFor key
      rw [settledFor_setAllocation, if_neg (Ne.symm (hop v _ rfl))]
      rfl
  | _ => rfl

/-- **A settlement** exceeds what was settled before and moves the counter to the voucher plus
the penalty. -/
theorem Step.settled_spec {v : Claim} {penalty : Int} (h : Step V b (.settled v penalty) b')
    (hinv : b.Inv) :
    b.settledFor v.key < v.cumulative_amount ∧ 0 ≤ penalty ∧
      (0 < penalty ↔ b.Penalising v.key) ∧
      ∀ key, b'.settledFor key
        = if key = v.key then v.cumulative_amount + penalty else b.settledFor key := by
  generalize hop : BookOp.settled v penalty = op at h
  cases h with
  | @cooperative v' ch a hp hquiet =>
      cases hop
      refine ⟨?_, le_rfl, ?_, fun key => settledFor_setAllocation⟩
      · rw [settledFor, reservation_eq hp.allocation]
        exact hp.fresh
      · constructor
        · intro hlt
          exact absurd hlt (lt_irrefl 0)
        · rintro ⟨s, _, hs, _⟩
          rw [hquiet] at hs
          cases hs
  | @finalized v' ch a s hl hs ha _ _ hbest =>
      cases hop
      -- the close in flight is above what was settled, by the invariant of the books
      obtain ⟨x, hx, hfresh, hle, hcovered⟩ := hinv.disputes _ _ hs
      obtain rfl : a = x := Option.some.inj (ha.symm.trans hx)
      refine ⟨?_, (Inv.penaltyOf_bounds hcovered).1, ?_, fun key => settledFor_setAllocation⟩
      · rw [settledFor, reservation_eq ha]
        omega
      · rw [penaltyOf_pos_iff]
        constructor
        · intro hpenalised
          exact ⟨s, a, hs, ha, hpenalised⟩
        · rintro ⟨s', a', hs', ha', hpenalised⟩
          cases hs.symm.trans hs'
          cases ha.symm.trans ha'
          exact hpenalised
  | _ => cases hop

end Book

/-! ## Quantities of a history -/

/-- The transaction settles a voucher of the pair `key`. -/
def Tx.Settles (key : PairKey) (t : Tx) : Prop :=
  ∃ v penalty, t.op = .settled v penalty ∧ v.key = key

/-- The transaction finalizes the pair `key` with a penalty. -/
def Tx.Penalises (key : PairKey) (t : Tx) : Prop :=
  t.Settles key ∧ (book t.pre).Penalising key

/-- The tokens a settlement of `key` sends to the recipient. -/
def Tx.paidOut (d : Deployment) (key : PairKey) (t : Tx) : Int :=
  match t.op with
  | .settled v _ => if v.key = key then sentTo d v.recipient t.post.events else 0
  | _ => 0

/-- The penalty a settlement of `key` imposes. -/
def Tx.penalty (key : PairKey) (t : Tx) : Int :=
  match t.op with
  | .settled v penalty => if v.key = key then penalty else 0
  | _ => 0

/-- The cumulative amounts settled for `key`, oldest first. -/
def settledAmounts (key : PairKey) (tr : List Tx) : List Int :=
  tr.filterMap fun t =>
    match t.op with
    | .settled v _ => if v.key = key then some v.cumulative_amount else none
    | _ => none

/-- The largest cumulative amount settled for `key`; zero if there is none. -/
def largestSettled (key : PairKey) (tr : List Tx) : Int := (settledAmounts key tr).foldl max 0

section

variable {key : PairKey} {t : Tx} {tr : List Tx} {d : Deployment}

theorem Tx.quantities_of_settles (d : Deployment) (tr : List Tx) {v : Claim} {penalty : Int}
    (hop : t.op = .settled v penalty)
    (hkey : v.key = key) :
    t.paidOut d key = sentTo d v.recipient t.post.events ∧ t.penalty key = penalty ∧
      largestSettled key (tr ++ [t]) = max (largestSettled key tr) v.cumulative_amount := by
  refine ⟨?_, ?_, ?_⟩
  · simp [Tx.paidOut, hop, hkey]
  · simp [Tx.penalty, hop, hkey]
  · simp [largestSettled, settledAmounts, List.filterMap_append, hop, hkey]

theorem Tx.quantities_of_not_settles (d : Deployment) (tr : List Tx) (h : ¬ t.Settles key) :
    t.paidOut d key = 0 ∧ t.penalty key = 0 ∧
      largestSettled key (tr ++ [t]) = largestSettled key tr := by
  have hkey : ∀ v penalty, t.op = .settled v penalty → v.key ≠ key :=
    fun v penalty hop hv => h ⟨v, penalty, hop, hv⟩
  unfold Tx.paidOut Tx.penalty largestSettled settledAmounts
  rw [List.filterMap_append, List.filterMap_cons, List.filterMap_nil]
  cases hop : t.op with
  | settled v penalty => simp [hkey v penalty hop]
  | _ => simp

/-! ## The law over a run -/

/-- The counter of a pair against its history: the last settlement is the largest one and leaves
its penalty on the counter. -/
structure SettledLedger (d : Deployment) (key : PairKey) (tr : List Tx) (w : State)
    (last_penalty : Int) : Prop where
  paid : tally (Tx.paidOut d key) tr = (book w).settledFor key
  counter : (book w).settledFor key = largestSettled key tr + last_penalty
  nonneg : 0 ≤ last_penalty
  le_all : last_penalty ≤ tally (Tx.penalty key) tr
  /-- There are penalties exactly if some transaction penalises. -/
  none_iff : tally (Tx.penalty key) tr = 0 ↔ ∀ t ∈ tr, ¬ t.Penalises key
  /-- The last penalty is the only one exactly if nothing settles after a penalty. -/
  only_iff : tally (Tx.penalty key) tr = last_penalty ↔
    tr.Pairwise (fun earlier later => ¬ (earlier.Penalises key ∧ later.Settles key))

theorem SettledLedger.start {w : State} (h0 : Genesis w) : SettledLedger d key [] w 0 := by
  have hzero : (book w).settledFor key = 0 := by
    rw [genesis_book h0]
    rfl
  exact ⟨hzero.symm, hzero, le_rfl, le_rfl, by simp, by simp⟩

/-- A transaction that does not settle the pair. -/
theorem SettledLedger.skip {w w' : State} {last : Int} (h : SettledLedger d key tr w last)
    (hkeep : (book w').settledFor key = (book w).settledFor key) (ht : ¬ t.Settles key) :
    SettledLedger d key (tr ++ [t]) w' last := by
  obtain ⟨hpaid, hpenalty, hlargest⟩ := Tx.quantities_of_not_settles d tr ht
  have hpenalties : tally (Tx.penalty key) (tr ++ [t]) = tally (Tx.penalty key) tr := by
    rw [tally_append, tally_singleton, hpenalty, add_zero]
  have hnot : ¬ t.Penalises key := fun hp => ht hp.1
  refine ⟨?_, ?_, h.nonneg, ?_, ?_, ?_⟩
  · rw [tally_append, tally_singleton, hpaid, add_zero, hkeep, h.paid]
  · rw [hkeep, hlargest, h.counter]
  · rw [hpenalties]
    exact h.le_all
  · rw [hpenalties, h.none_iff, List.forall_mem_append, List.forall_mem_singleton]
    exact (and_iff_left hnot).symm
  · rw [hpenalties, h.only_iff, List.pairwise_append]
    simp [ht]

/-- A settlement of the pair. -/
theorem SettledLedger.settle {w w' : State} {last penalty : Int} {v : Claim}
    (h : SettledLedger d key tr w last) (hop : t.op = .settled v penalty) (hkey : v.key = key)
    (hreceipt : sentTo d v.recipient t.post.events
      = v.cumulative_amount + penalty - (book w).settledFor key)
    (hfresh : (book w).settledFor key < v.cumulative_amount) (hpos : 0 ≤ penalty)
    (hpenalises : 0 < penalty ↔ t.Penalises key)
    (hcounter : (book w').settledFor key = v.cumulative_amount + penalty) :
    SettledLedger d key (tr ++ [t]) w' penalty := by
  obtain ⟨hpaid, hpenalty, hlargest⟩ :=
    Tx.quantities_of_settles d tr hop hkey
  have hsettles : t.Settles key := ⟨v, penalty, hop, hkey⟩
  have hall := h.le_all
  have hlast := h.nonneg
  have hcount := h.counter
  have hpenalties : tally (Tx.penalty key) (tr ++ [t]) = tally (Tx.penalty key) tr + penalty := by
    rw [tally_append, tally_singleton, hpenalty]
  refine ⟨?_, ?_, hpos, ?_, ?_, ?_⟩
  · rw [tally_append, tally_singleton, hpaid, h.paid, hreceipt, hcounter]
    omega
  · rw [hcounter, hlargest, max_eq_right (by omega)]
  · omega
  · rw [List.forall_mem_append, List.forall_mem_singleton, ← h.none_iff, ← hpenalises]
    omega
  · rw [List.pairwise_append]
    -- this settlement makes a bad pair with every earlier penalty
    have hearlier : (∀ x ∈ tr, ∀ y ∈ [t], ¬ (x.Penalises key ∧ y.Settles key))
        ↔ tally (Tx.penalty key) tr = 0 := by
      simp [hsettles, h.none_iff]
    rw [hearlier, ← h.only_iff]
    simp only [List.pairwise_singleton, true_and]
    omega

theorem Runs.settledLedger (key : PairKey) {P : Platform} {w w' : State} (h0 : Genesis w)
    (h : Runs P d w tr w') : ∃ last, SettledLedger d key tr w' last := by
  refine Runs.history (Q := fun tr w' => ∃ last, SettledLedger d key tr w' last) h (genesis_inv h0)
    ⟨0, SettledLedger.start h0⟩ (fun tr m a m' hinv ih _ hrefines => ?_)
  obtain ⟨last, hledger⟩ := ih
  -- the counter moves in settlements of the pair only, and there by what the receipt says
  by_cases hsettles : Tx.Settles key ⟨m, a, m'⟩
  · obtain ⟨v, penalty, hop, hkey⟩ := hsettles
    have hop' : opOf a m'.events = .settled v penalty := hop
    have hstep := hrefines.step
    have hreceipt := hrefines.receipt
    rw [hop'] at hstep hreceipt
    obtain ⟨hfresh, hpos, hpenalises, hcounter⟩ := hstep.settled_spec hinv
    subst hkey
    refine ⟨penalty, hledger.settle hop rfl hreceipt hfresh hpos ?_ ?_⟩
    · rw [hpenalises]
      exact (and_iff_right ⟨v, penalty, hop, rfl⟩).symm
    · rw [hcounter, if_pos rfl]
  · refine ⟨last, hledger.skip (hrefines.step.settledFor_keep ?_) hsettles⟩
    intro v penalty hop hkey
    exact hsettles ⟨v, penalty, hop, hkey⟩

/-- **The lifetime payout.** After any run the recipient has been paid the largest voucher settled
plus all penalties if and only if no settlement of the pair follows one with a penalty. -/
theorem lifetime_payout_iff {P : Platform} {w w' : State} (h0 : Genesis w)
    (h : Runs P d w tr w') (id : Nat) (r : Address) :
    tally (Tx.paidOut d (id, r)) tr
        = largestSettled (id, r) tr + tally (Tx.penalty (id, r)) tr ↔
      tr.Pairwise (fun earlier later =>
        ¬ (earlier.Penalises (id, r) ∧ later.Settles (id, r))) := by
  obtain ⟨last, hledger⟩ := h.settledLedger (id, r) h0
  rw [← hledger.only_iff, hledger.paid, hledger.counter]
  omega

end

/-! ## A penalty that is taken back -/

section

open Scenario

/-- The agent closes with 20, the recipient challenges with 50: 80 are paid, 30 of them as a
penalty. Then 90 are settled cooperatively, and only 10 more are paid. -/
def offsetScript : List Move := [
  .invoke [owner] honestSwap (.openChannel owner agent usdc 300 100 .Daily),
  .invoke [owner] honestSwap (.enableVouchers owner 1 voucherKey 720),
  .invoke [owner] honestSwap (.allocate owner 1 recipient 100),
  .invoke [agent] honestSwap (.closeUnilateral agent 1 recipient 1 20 signature20),
  .invoke [] honestSwap (.challenge 1 recipient 2 50 signature50),
  .wait 720,
  .invoke [] honestSwap (.finalize 1 recipient),
  .invoke [owner] honestSwap (.allocate owner 1 recipient 100),
  .invoke [owner, recipient] honestSwap (.closeCooperative 1 recipient 3 90 signature90)]

/-- The script is legal, and after it the two sides of the payout law differ. -/
theorem offsetScript_executed :
    legal start offsetScript = true ∧
      tally (Tx.paidOut deployed (1, recipient)) (history offsetScript)
        ≠ largestSettled (1, recipient) (history offsetScript)
          + tally (Tx.penalty (1, recipient)) (history offsetScript) := by decide +kernel

theorem offsetScript_runs :
    Runs testnet deployed start (history offsetScript) (outcome offsetScript) :=
  script_runs offsetScript offsetScript_executed.1

/-- The recipient has got 90, and not the 90 of the last voucher plus the penalty of 30. -/
theorem penalty_offset_by_later_voucher :
    ¬ ∀ (P : Platform) (d : Deployment) (w w' : State) (tr : List Tx) (id : Nat) (r : Address),
      Genesis w → Runs P d w tr w' → tally (Tx.paidOut d (id, r)) tr
        = largestSettled (id, r) tr + tally (Tx.penalty (id, r)) tr := by
  intro h
  have hlaw := h testnet deployed start _ (history offsetScript) 1 recipient start_genesis
    offsetScript_runs
  exact absurd hlaw offsetScript_executed.2

theorem lifetime_payout_iff_offset :
    tally (Tx.paidOut deployed (1, recipient)) (history offsetScript)
        = largestSettled (1, recipient) (history offsetScript)
          + tally (Tx.penalty (1, recipient)) (history offsetScript) ↔
      (history offsetScript).Pairwise (fun earlier later =>
        ¬ (earlier.Penalises (1, recipient) ∧ later.Settles (1, recipient))) :=
  lifetime_payout_iff start_genesis offsetScript_runs 1 recipient

end

end StellarAgent.PaymentChannel
