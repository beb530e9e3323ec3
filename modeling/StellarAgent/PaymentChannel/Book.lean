import StellarAgent.Lib.Runs
import StellarAgent.PaymentChannel.Payments

set_option autoImplicit false

/-! # The escrow book

What the contract keeps books about, without its callers, its checks and its tokens: channels
that hold collateral, reservations of that collateral for single recipients, and closes in
flight. `Book.Step V b op b'` says what one operation does to the books; `V pk v` stands for
"key `pk` vouches for the claim `v`". `Refinement.lean` shows that every step of the contract
is such an operation.

* `Book.Inv` is the invariant of the books, and `Book.Inv.step` its preservation.
* The last sections say what an operation does to one channel (`ChannelStep`) and to one pair of
  channel and recipient.
-/

namespace StellarAgent.PaymentChannel

open Lib Soroban

/-- What a voucher says: `recipient` may have been paid `cumulative_amount` from the channel. -/
structure Claim where
  channel_id : Nat
  recipient : Address
  sequence : Nat
  cumulative_amount : Int
  deriving DecidableEq

/-- The pair a claim is about. -/
def Claim.key (v : Claim) : PairKey := (v.channel_id, v.recipient)

structure Book where
  ledger : Nat
  count : Nat
  channels : Map Nat Channel
  allocations : Map PairKey Allocation
  settlements : Map PairKey Settlement

inductive BookOp where
  /-- Nothing happens to the books. -/
  | idle
  | opened (channel_id : Nat) (deposit : Int)
  | debited (channel_id : Nat) (amount : Int)
  | funded (channel_id : Nat) (amount : Int)
  | refunded (channel_id : Nat) (amount : Int)
  | enabled (channel_id : Nat) (voucher_signer : BytesN 32) (dispute_ledgers : Nat)
  | reserved (channel_id : Nat) (recipient : Address) (amount : Int)
  | disputed (v : Claim)
  | raised (v : Claim)
  | settled (v : Claim) (penalty : Int)
  deriving DecidableEq

namespace Book

/-! ## Elementary updates -/

def setChannel (b : Book) (id : Nat) (ch : Channel) : Book :=
  { b with channels := b.channels.insert id ch }

def setAllocation (b : Book) (key : PairKey) (a : Allocation) : Book :=
  { b with allocations := b.allocations.insert key a }

def setSettlement (b : Book) (key : PairKey) (s : Settlement) : Book :=
  { b with settlements := b.settlements.insert key s }

def dropSettlement (b : Book) (key : PairKey) : Book :=
  { b with settlements := b.settlements.erase key }

/-- The reservation of a pair; nothing reserved and nothing settled where there is none. -/
def reservation (b : Book) (key : PairKey) : Allocation :=
  (b.allocations.lookup key).getD { amount := 0, settled := 0 }

/-- Pay `amount + penalty - a.settled` out of the channel and release the reservation `a`. -/
def payOut (b : Book) (v : Claim) (ch : Channel) (a : Allocation) (penalty : Int) : Book :=
  (b.setAllocation v.key { amount := 0, settled := v.cumulative_amount + penalty }).setChannel
    v.channel_id
    { ch with
      allocated := ch.allocated - a.amount
      collateral := ch.collateral - (v.cumulative_amount - a.settled + penalty)
      total_spent := ch.total_spent + (v.cumulative_amount - a.settled + penalty) }

/-! ## The conditions of the operations -/

/-- The channel after the period reset of a payment made at ledger `now`. -/
def rolled (now : Nat) (ch : Channel) : Channel :=
  if now ≥ ch.period_start_ledger + ledgersPerPeriod ch.period then
    { ch with spent_this_period := 0, period_start_ledger := now }
  else ch

/-- A channel record as `open_channel` writes it. -/
structure Opening (now : Nat) (deposit : Int) (ch : Channel) : Prop where
  positive : 0 < deposit
  collateral : ch.collateral = deposit
  limit : 0 ≤ ch.limit_per_period
  spent : ch.spent_this_period = 0
  start : ch.period_start_ledger = now
  total_spent : ch.total_spent = 0
  allocated : ch.allocated = 0

/-- A payment of `amount` at ledger `now` that turns the record `ch` into `ch'`. -/
structure Debit (now : Nat) (ch : Channel) (amount : Int) (ch' : Channel) : Prop where
  positive : 0 < amount
  limit : (rolled now ch).spent_this_period + amount ≤ ch.limit_per_period
  free : amount ≤ ch.collateral - ch.allocated
  result : ch' =
    { rolled now ch with
      spent_this_period := (rolled now ch).spent_this_period + amount
      total_spent := ch.total_spent + amount
      collateral := ch.collateral - amount }

/-- The claim `v` passes every check a voucher must pass. -/
structure Presented (V : BytesN 32 → Claim → Prop) (b : Book) (v : Claim) (ch : Channel)
    (a : Allocation) : Prop where
  channel : b.channels.lookup v.channel_id = some ch
  signed : ∃ pk, ch.voucher_signer = some pk ∧ V pk v
  allocation : b.allocations.lookup v.key = some a
  positive : 0 < v.cumulative_amount
  covered : v.cumulative_amount ≤ a.amount
  fresh : a.settled < v.cumulative_amount

theorem Presented.mono {V W : BytesN 32 → Claim → Prop} {b : Book} {v : Claim} {ch : Channel}
    {a : Allocation} (h : Presented V b v ch a) (hVW : ∀ pk, V pk v → W pk v) :
    Presented W b v ch a := by
  obtain ⟨pk, hpk, hsigned⟩ := h.signed
  exact ⟨h.channel, ⟨pk, hpk, hVW pk hsigned⟩, h.allocation, h.positive, h.covered, h.fresh⟩

/-- Whether finalizing `s` against the reservation `a` imposes a penalty at all. -/
def Penalised (s : Settlement) (a : Allocation) : Prop :=
  s.closed_by_payer = true ∧ s.opened_cumulative < s.best_cumulative ∧
    s.best_cumulative < a.amount

/-- What a payer-side close withheld, as far as the reservation still covers it. -/
def penaltyOf (s : Settlement) (a : Allocation) : Int :=
  if s.closed_by_payer = true ∧ s.best_cumulative > s.opened_cumulative then
    min (s.best_cumulative - s.opened_cumulative) (a.amount - s.best_cumulative)
  else 0

/-! ## The operations -/

inductive Step (V : BytesN 32 → Claim → Prop) : Book → BookOp → Book → Prop
  | idle {b : Book} {n : Nat} (later : b.ledger ≤ n) : Step V b .idle { b with ledger := n }
  | opened {b : Book} {ch : Channel} {deposit : Int} (opening : Opening b.ledger deposit ch) :
      Step V b (.opened (b.count + 1) deposit)
        ({ b with count := b.count + 1 }.setChannel (b.count + 1) ch)
  | debited {b : Book} {id : Nat} {ch ch' : Channel} {amount : Int}
      (channel : b.channels.lookup id = some ch) (debit : Debit b.ledger ch amount ch') :
      Step V b (.debited id amount) (b.setChannel id ch')
  | funded {b : Book} {id : Nat} {ch : Channel} {amount : Int}
      (channel : b.channels.lookup id = some ch) (positive : 0 < amount) :
      Step V b (.funded id amount)
        (b.setChannel id { ch with collateral := ch.collateral + amount })
  | refunded {b : Book} {id : Nat} {ch : Channel} {amount : Int} (active : Bool)
      (channel : b.channels.lookup id = some ch) (nonneg : 0 ≤ amount)
      (free : amount ≤ ch.collateral - ch.allocated) :
      Step V b (.refunded id amount)
        (b.setChannel id { ch with collateral := ch.collateral - amount, active })
  | enabled {b : Book} {id : Nat} {ch : Channel} {pk : BytesN 32} {window : Nat}
      (channel : b.channels.lookup id = some ch) (long : MIN_DISPUTE_LEDGERS ≤ window) :
      Step V b (.enabled id pk window)
        (b.setChannel id { ch with voucher_signer := some pk, dispute_ledgers := window })
  | reserved {b : Book} {id : Nat} {r : Address} {ch : Channel} {amount : Int}
      (channel : b.channels.lookup id = some ch) (signer : ch.voucher_signer ≠ none)
      (positive : 0 < amount) (free : amount ≤ ch.collateral - ch.allocated)
      (quiet : b.settlements.lookup (id, r) = none) :
      Step V b (.reserved id r amount)
        ((b.setAllocation (id, r)
            { b.reservation (id, r) with amount := (b.reservation (id, r)).amount + amount }
          ).setChannel id { ch with allocated := ch.allocated + amount })
  | disputed {b : Book} {v : Claim} {ch : Channel} {a : Allocation} {by_payer : Bool}
      (presented : Presented V b v ch a) (quiet : b.settlements.lookup v.key = none) :
      Step V b (.disputed v)
        (b.setSettlement v.key {
          best_sequence := v.sequence
          best_cumulative := v.cumulative_amount
          opened_cumulative := v.cumulative_amount
          opened_at_ledger := b.ledger
          closed_by_payer := by_payer })
  | raised {b : Book} {v : Claim} {ch : Channel} {a : Allocation} {s : Settlement}
      (presented : Presented V b v ch a) (flight : b.settlements.lookup v.key = some s)
      (open_window : b.ledger < s.opened_at_ledger + ch.dispute_ledgers)
      (better : s.best_cumulative < v.cumulative_amount) :
      Step V b (.raised v)
        (b.setSettlement v.key
          { s with best_sequence := v.sequence, best_cumulative := v.cumulative_amount })
  | cooperative {b : Book} {v : Claim} {ch : Channel} {a : Allocation}
      (presented : Presented V b v ch a) (quiet : b.settlements.lookup v.key = none) :
      Step V b (.settled v 0) (b.payOut v ch a 0)
  | finalized {b : Book} {v : Claim} {ch : Channel} {a : Allocation} {s : Settlement}
      (channel : b.channels.lookup v.channel_id = some ch)
      (flight : b.settlements.lookup v.key = some s)
      (allocation : b.allocations.lookup v.key = some a)
      (ended : s.opened_at_ledger + ch.dispute_ledgers ≤ b.ledger)
      (sequence : v.sequence = s.best_sequence)
      (best : v.cumulative_amount = s.best_cumulative) :
      Step V b (.settled v (penaltyOf s a)) ((b.dropSettlement v.key).payOut v ch a (penaltyOf s a))

/-! ## Reading the books after an update -/

section

variable {b : Book} {id id' : Nat} {ch ch' : Channel} {key key' : PairKey} {a a' : Allocation}
  {s : Settlement}

@[simp] theorem setChannel_ledger : (b.setChannel id ch).ledger = b.ledger := rfl
@[simp] theorem setChannel_count : (b.setChannel id ch).count = b.count := rfl
@[simp] theorem setChannel_channels :
    (b.setChannel id ch).channels = b.channels.insert id ch := rfl
@[simp] theorem setChannel_allocations :
    (b.setChannel id ch).allocations = b.allocations := rfl
@[simp] theorem setChannel_settlements :
    (b.setChannel id ch).settlements = b.settlements := rfl

@[simp] theorem setAllocation_ledger : (b.setAllocation key a).ledger = b.ledger := rfl
@[simp] theorem setAllocation_count : (b.setAllocation key a).count = b.count := rfl
@[simp] theorem setAllocation_channels : (b.setAllocation key a).channels = b.channels := rfl
@[simp] theorem setAllocation_allocations :
    (b.setAllocation key a).allocations = b.allocations.insert key a := rfl
@[simp] theorem setAllocation_settlements :
    (b.setAllocation key a).settlements = b.settlements := rfl

@[simp] theorem setSettlement_ledger : (b.setSettlement key s).ledger = b.ledger := rfl
@[simp] theorem setSettlement_count : (b.setSettlement key s).count = b.count := rfl
@[simp] theorem setSettlement_channels : (b.setSettlement key s).channels = b.channels := rfl
@[simp] theorem setSettlement_allocations :
    (b.setSettlement key s).allocations = b.allocations := rfl
@[simp] theorem setSettlement_settlements :
    (b.setSettlement key s).settlements = b.settlements.insert key s := rfl

@[simp] theorem dropSettlement_ledger : (b.dropSettlement key).ledger = b.ledger := rfl
@[simp] theorem dropSettlement_count : (b.dropSettlement key).count = b.count := rfl
@[simp] theorem dropSettlement_channels : (b.dropSettlement key).channels = b.channels := rfl
@[simp] theorem dropSettlement_allocations :
    (b.dropSettlement key).allocations = b.allocations := rfl
@[simp] theorem dropSettlement_settlements :
    (b.dropSettlement key).settlements = b.settlements.erase key := rfl

theorem reservation_eq (h : b.allocations.lookup key = some a) : b.reservation key = a := by
  simp [reservation, h]

end

/-! ## Period resets -/

section

variable (now : Nat) (ch : Channel)

@[simp] theorem rolled_limit : (rolled now ch).limit_per_period = ch.limit_per_period := by
  unfold rolled; split <;> rfl
@[simp] theorem rolled_period : (rolled now ch).period = ch.period := by
  unfold rolled; split <;> rfl
@[simp] theorem rolled_token : (rolled now ch).token = ch.token := by
  unfold rolled; split <;> rfl
@[simp] theorem rolled_agent : (rolled now ch).agent = ch.agent := by
  unfold rolled; split <;> rfl
@[simp] theorem rolled_owner : (rolled now ch).owner = ch.owner := by
  unfold rolled; split <;> rfl
@[simp] theorem rolled_collateral : (rolled now ch).collateral = ch.collateral := by
  unfold rolled; split <;> rfl
@[simp] theorem rolled_allocated : (rolled now ch).allocated = ch.allocated := by
  unfold rolled; split <;> rfl
@[simp] theorem rolled_total_spent : (rolled now ch).total_spent = ch.total_spent := by
  unfold rolled; split <;> rfl
@[simp] theorem rolled_voucher_signer : (rolled now ch).voucher_signer = ch.voucher_signer := by
  unfold rolled; split <;> rfl
@[simp] theorem rolled_dispute_ledgers :
    (rolled now ch).dispute_ledgers = ch.dispute_ledgers := by
  unfold rolled; split <;> rfl

end

theorem Step.ledger_le {V : BytesN 32 → Claim → Prop} {b b' : Book} {op : BookOp}
    (h : Step V b op b') : b.ledger ≤ b'.ledger := by
  cases h with
  | idle later => exact later
  | _ => exact le_rfl

/-! ## The invariant -/

/-- What a channel has reserved, added up over its recipients. -/
def reservedFor (b : Book) (id : Nat) : Int :=
  Map.total (fun key a => if key.1 = id then a.amount else 0) b.allocations

/-- The invariant of the books. -/
structure Inv (b : Book) : Prop where
  /-- Channel ids are handed out in order. -/
  ids : ∀ id ch, b.channels.lookup id = some ch → id ≤ b.count
  /-- A reservation belongs to a channel with a voucher key. -/
  home : ∀ id r a, b.allocations.lookup (id, r) = some a →
    ∃ ch, b.channels.lookup id = some ch ∧ ch.voucher_signer ≠ none
  amounts : ∀ key a, b.allocations.lookup key = some a → 0 ≤ a.amount ∧ 0 ≤ a.settled
  /-- The aggregate in the channel record is the sum of the reservations. -/
  aggregate : ∀ id ch, b.channels.lookup id = some ch → ch.allocated = b.reservedFor id
  covered : ∀ id ch, b.channels.lookup id = some ch → ch.allocated ≤ ch.collateral
  /-- A close in flight claims more than was settled and no more than is reserved. -/
  disputes : ∀ key s, b.settlements.lookup key = some s →
    ∃ a, b.allocations.lookup key = some a ∧ a.settled < s.opened_cumulative ∧
      s.opened_cumulative ≤ s.best_cumulative ∧ s.best_cumulative ≤ a.amount

namespace Inv

variable {b : Book} {id : Nat} {ch ch' : Channel} {key : PairKey} {a a' : Allocation}
  {s : Settlement}

theorem empty (n : Nat) : Inv ⟨n, 0, ∅, ∅, ∅⟩ where
  ids := by simp
  home := by simp
  amounts := by simp
  aggregate := by simp
  covered := by simp
  disputes := by simp

theorem reservedFor_nonneg (h : b.Inv) (id : Nat) : 0 ≤ b.reservedFor id := by
  refine Map.total_nonneg _ _ (fun key a hl => ?_)
  have hamount := (h.amounts key a hl).1
  split <;> omega

theorem allocated_nonneg (h : b.Inv) (hl : b.channels.lookup id = some ch) :
    0 ≤ ch.allocated := by
  rw [h.aggregate id ch hl]
  exact h.reservedFor_nonneg id

theorem no_fresh_channel (h : b.Inv) : b.channels.lookup (b.count + 1) = none := by
  cases hl : b.channels.lookup (b.count + 1) with
  | none => rfl
  | some ch =>
      have := h.ids _ ch hl
      omega

/-- No single reservation exceeds what its channel has allocated. -/
theorem amount_le_allocated (h : b.Inv) {r : Address} (hl : b.channels.lookup id = some ch)
    (ha : b.allocations.lookup (id, r) = some a) : a.amount ≤ ch.allocated := by
  rw [h.aggregate id ch hl]
  have hle := Map.le_total (fun key a => if key.1 = id then a.amount else 0)
    (m := b.allocations) (fun key a hl => by
      have hamount := (h.amounts key a hl).1
      split <;> omega) ha
  simpa [reservedFor] using hle

theorem reservation_nonneg (h : b.Inv) (key : PairKey) :
    0 ≤ (b.reservation key).amount ∧ 0 ≤ (b.reservation key).settled := by
  unfold reservation
  cases hl : b.allocations.lookup key with
  | none => simp
  | some a => simpa using h.amounts key a hl

/-! ### Preservation by the elementary updates -/

theorem withLedger (h : b.Inv) (n : Nat) : Inv { b with ledger := n } :=
  ⟨h.ids, h.home, h.amounts, h.aggregate, h.covered, h.disputes⟩

/-- A new record for an existing channel that leaves its reservations alone. -/
theorem setChannel (h : b.Inv) (hl : b.channels.lookup id = some ch)
    (hsigner : ch.voucher_signer ≠ none → ch'.voucher_signer ≠ none)
    (hallocated : ch'.allocated = ch.allocated) (hcovered : ch'.allocated ≤ ch'.collateral) :
    (b.setChannel id ch').Inv where
  ids := Map.forall_insert (fun id' c _ => h.ids id' c) (h.ids id ch hl)
  home := by
    intro id' r a ha
    obtain ⟨c, hc, hs⟩ := h.home id' r a ha
    rw [setChannel_channels, Map.lookup_insert_eq_ite]
    by_cases hid : id' = id
    · subst hid
      obtain rfl : ch = c := Option.some.inj (hl.symm.trans hc)
      exact ⟨ch', by simp, hsigner hs⟩
    · exact ⟨c, by rw [if_neg hid, hc], hs⟩
  amounts := h.amounts
  aggregate := Map.forall_insert (fun id' c _ => h.aggregate id' c)
    (hallocated.trans (h.aggregate id ch hl))
  covered := Map.forall_insert (fun id' c _ => h.covered id' c) hcovered
  disputes := h.disputes

/-- A new reservation for a pair without a close in flight, and the channel record that
accounts for it. -/
theorem rebook (h : b.Inv) {r : Address} (hl : b.channels.lookup id = some ch)
    (hquiet : b.settlements.lookup (id, r) = none) (hsigner : ch'.voucher_signer ≠ none)
    (hamount : 0 ≤ a'.amount) (hsettled : 0 ≤ a'.settled)
    (hallocated : ch'.allocated = ch.allocated - (b.reservation (id, r)).amount + a'.amount)
    (hcovered : ch'.allocated ≤ ch'.collateral) :
    ((b.setAllocation (id, r) a').setChannel id ch').Inv where
  ids := Map.forall_insert (fun id' c _ => h.ids id' c) (h.ids id ch hl)
  home := by
    intro id' r' x hx
    rw [setChannel_channels, setAllocation_channels, Map.lookup_insert_eq_ite]
    by_cases hid : id' = id
    · exact ⟨ch', by rw [if_pos hid], hsigner⟩
    · rw [setChannel_allocations, setAllocation_allocations, Map.lookup_insert_eq_ite,
        if_neg (by simp [hid])] at hx
      rw [if_neg hid]
      exact h.home id' r' x hx
  amounts := Map.forall_insert (fun key a _ => h.amounts key a) ⟨hamount, hsettled⟩
  aggregate := by
    -- only the sum of channel `id` moves, by the difference of the two reservations
    have htotal : ∀ id', ((b.setAllocation (id, r) a').setChannel id ch').reservedFor id'
        = b.reservedFor id'
          + (if id = id' then a'.amount - (b.reservation (id, r)).amount else 0) := by
      intro id'
      unfold reservedFor
      rw [setChannel_allocations, setAllocation_allocations, Map.total_insert]
      unfold Map.valueAt reservation
      cases b.allocations.lookup (id, r) with
      | none => dsimp only [Option.elim, Option.getD]; split <;> omega
      | some x => dsimp only [Option.elim, Option.getD]; split <;> omega
    refine Map.forall_insert (fun id' c hne hc => ?_) ?_
    · rw [htotal, h.aggregate _ c hc, if_neg hne.symm, add_zero]
    · rw [htotal, hallocated, h.aggregate _ ch hl, if_pos rfl]
      omega
  covered := Map.forall_insert (fun id' c _ => h.covered id' c) hcovered
  disputes := by
    intro key s hs
    obtain ⟨x, hx, hbounds⟩ := h.disputes key s hs
    refine ⟨x, ?_, hbounds⟩
    have hk : key ≠ (id, r) := by
      rintro rfl
      simp [hquiet] at hs
    rw [setChannel_allocations, setAllocation_allocations, Map.lookup_insert_eq_ite,
      if_neg hk, hx]

theorem setSettlement (h : b.Inv) (ha : b.allocations.lookup key = some a)
    (hfresh : a.settled < s.opened_cumulative) (hle : s.opened_cumulative ≤ s.best_cumulative)
    (hcovered : s.best_cumulative ≤ a.amount) : (b.setSettlement key s).Inv where
  ids := h.ids
  home := h.home
  amounts := h.amounts
  aggregate := h.aggregate
  covered := h.covered
  disputes := Map.forall_insert (fun key' s' _ => h.disputes key' s')
    ⟨a, ha, hfresh, hle, hcovered⟩

theorem dropSettlement (h : b.Inv) (key : PairKey) : (b.dropSettlement key).Inv where
  ids := h.ids
  home := h.home
  amounts := h.amounts
  aggregate := h.aggregate
  covered := h.covered
  disputes := Map.forall_erase (fun key' s' _ => h.disputes key' s')

/-- Nothing is reserved in the name of a channel that does not exist. -/
theorem reservedFor_absent (h : b.Inv) (hl : b.channels.lookup id = none) :
    b.reservedFor id = 0 := by
  refine le_antisymm ?_ (h.reservedFor_nonneg id)
  -- no entry counts, so the sum of the negated amounts is not negative either
  have hnonpos : 0 ≤ Map.total (fun key a => -(if key.1 = id then a.amount else 0))
      b.allocations := by
    refine Map.total_nonneg _ _ (fun key a ha => ?_)
    obtain ⟨c, hc, _⟩ := h.home key.1 key.2 a ha
    have hne : key.1 ≠ id := by
      intro heq
      rw [heq, hl] at hc
      cases hc
    simp [hne]
  rw [Map.total_neg] at hnonpos
  unfold reservedFor
  omega

/-- A new channel that reserves nothing. -/
theorem addChannel (h : b.Inv) (hallocated : ch.allocated = 0) (hcollateral : 0 ≤ ch.collateral) :
    ({ b with count := b.count + 1 }.setChannel (b.count + 1) ch).Inv where
  ids := Map.forall_insert (fun id c _ hc => (h.ids id c hc).trans (Nat.le_succ _)) le_rfl
  home := by
    intro id r a ha
    obtain ⟨c, hc, hs⟩ := h.home id r a ha
    have hne : id ≠ b.count + 1 := by
      rintro rfl
      rw [h.no_fresh_channel] at hc
      cases hc
    exact ⟨c, by rw [setChannel_channels, Map.lookup_insert_eq_ite, if_neg hne, hc], hs⟩
  amounts := h.amounts
  aggregate := Map.forall_insert (fun id c _ => h.aggregate id c)
    (hallocated.trans (h.reservedFor_absent h.no_fresh_channel).symm)
  covered := Map.forall_insert (fun id c _ => h.covered id c) (hallocated.trans_le hcollateral)
  disputes := h.disputes

/-- The penalty of a close in flight fits into what the reservation leaves. -/
theorem penaltyOf_bounds {s : Settlement} {a : Allocation} (hle : s.best_cumulative ≤ a.amount) :
    0 ≤ penaltyOf s a ∧ s.best_cumulative + penaltyOf s a ≤ a.amount := by
  unfold penaltyOf
  split <;> omega

/-- Paying out a claim that is fresh and covered by its reservation. -/
theorem payOut (h : b.Inv) {v : Claim} {penalty : Int}
    (hl : b.channels.lookup v.channel_id = some ch) (ha : b.allocations.lookup v.key = some a)
    (hquiet : b.settlements.lookup v.key = none) (hfresh : a.settled < v.cumulative_amount)
    (hpenalty : 0 ≤ penalty) (hcovered : v.cumulative_amount + penalty ≤ a.amount) :
    (b.payOut v ch a penalty).Inv := by
  obtain ⟨_, hsettled⟩ := h.amounts _ _ ha
  have hle := h.amount_le_allocated hl ha
  have hcov := h.covered _ _ hl
  obtain ⟨c, hc, hsigner⟩ := h.home v.channel_id v.recipient a ha
  obtain rfl : ch = c := Option.some.inj (hl.symm.trans hc)
  refine h.rebook hl hquiet hsigner le_rfl ?_ ?_ ?_
  · show 0 ≤ v.cumulative_amount + penalty
    omega
  · show ch.allocated - a.amount = ch.allocated - (b.reservation v.key).amount + 0
    rw [reservation_eq ha, add_zero]
  · show ch.allocated - a.amount
      ≤ ch.collateral - (v.cumulative_amount - a.settled + penalty)
    omega

/-- **Every operation keeps the books.** -/
theorem step {V : BytesN 32 → Claim → Prop} {op : BookOp} {b' : Book} (h : b.Inv)
    (hstep : Step V b op b') : b'.Inv := by
  cases hstep with
  | idle _ => exact h.withLedger _
  | opened hopen =>
      refine h.addChannel hopen.allocated ?_
      rw [hopen.collateral]
      exact hopen.positive.le
  | @debited id ch ch' amount hl hd =>
      have hcov := h.covered _ _ hl
      have hfree := hd.free
      rw [hd.result]
      refine h.setChannel hl ?_ ?_ ?_
      · simp
      · simp
      · simp only [rolled_allocated]
        omega
  | @funded id ch amount hl hpos =>
      have hcov := h.covered _ _ hl
      refine h.setChannel hl (fun hs => hs) rfl ?_
      show ch.allocated ≤ ch.collateral + amount
      omega
  | @refunded id ch amount active hl _ hfree =>
      refine h.setChannel hl (fun hs => hs) rfl ?_
      show ch.allocated ≤ ch.collateral - amount
      omega
  | enabled hl _ =>
      have hcov := h.covered _ _ hl
      exact h.setChannel hl (fun _ => by simp) rfl hcov
  | @reserved id r ch amount hl hsigner hpos hfree hquiet =>
      obtain ⟨hamount, hsettled⟩ := h.reservation_nonneg (id, r)
      refine h.rebook hl hquiet hsigner ?_ hsettled ?_ ?_
      · show 0 ≤ (b.reservation (id, r)).amount + amount
        omega
      · show ch.allocated + amount = ch.allocated - (b.reservation (id, r)).amount
          + ((b.reservation (id, r)).amount + amount)
        omega
      · show ch.allocated + amount ≤ ch.collateral
        omega
  | disputed hp hquiet => exact h.setSettlement hp.allocation hp.fresh le_rfl hp.covered
  | @raised v ch a s hp hflight _ hbetter =>
      obtain ⟨x, hx, hfresh, hle, _⟩ := h.disputes _ _ hflight
      obtain rfl : a = x := Option.some.inj (hp.allocation.symm.trans hx)
      exact h.setSettlement hp.allocation hfresh (hle.trans hbetter.le) hp.covered
  | cooperative hp hquiet =>
      refine h.payOut hp.channel hp.allocation hquiet hp.fresh le_rfl ?_
      rw [add_zero]
      exact hp.covered
  | @finalized v ch a s hl hflight ha _ _ hbest =>
      obtain ⟨x, hx, hfresh, hle, hcov⟩ := h.disputes _ _ hflight
      obtain rfl : a = x := Option.some.inj (ha.symm.trans hx)
      obtain ⟨hpos, hfit⟩ := penaltyOf_bounds hcov
      -- the close is dropped first, so the payout meets a quiet pair
      refine (h.dropSettlement v.key).payOut hl ha ?_ ?_ hpos ?_
      · simp
      · omega
      · rwa [hbest]

end Inv

/-! ## What an operation does to one channel -/

/-- Everything operation `op` at ledger `now` can do to the record of channel `id`. -/
structure ChannelStep (now : Nat) (op : BookOp) (id : Nat) (ch ch' : Channel) : Prop where
  parties : ch'.agent = ch.agent ∧ ch'.owner = ch.owner ∧ ch'.token = ch.token
  plan : ch'.limit_per_period = ch.limit_per_period ∧ ch'.period = ch.period
  /-- Window and key change only when vouchers are enabled anew. -/
  terms : (∀ pk window, op ≠ .enabled id pk window) →
    ch'.dispute_ledgers = ch.dispute_ledgers ∧ ch'.voucher_signer = ch.voucher_signer
  enabled : ∀ pk window, op = .enabled id pk window →
    ch'.dispute_ledgers = window ∧ ch'.voucher_signer = some pk
  /-- The period and what was spent in it change only in a payment. -/
  spending : (∀ amount, op ≠ .debited id amount) →
    ch'.spent_this_period = ch.spent_this_period ∧
      ch'.period_start_ledger = ch.period_start_ledger
  debit : ∀ amount, op = .debited id amount → Debit now ch amount ch'

section

variable {V : BytesN 32 → Claim → Prop} {b b' : Book} {op : BookOp} {id id' now : Nat}
  {ch ch' : Channel} {r : Address} {s : Settlement}

theorem ChannelStep.refl (hdebit : ∀ amount, op ≠ .debited id amount)
    (henabled : ∀ pk window, op ≠ .enabled id pk window) : ChannelStep now op id ch ch where
  parties := ⟨rfl, rfl, rfl⟩
  plan := ⟨rfl, rfl⟩
  terms := fun _ => ⟨rfl, rfl⟩
  enabled := fun pk window hop => absurd hop (henabled pk window)
  spending := fun _ => ⟨rfl, rfl⟩
  debit := fun amount hop => absurd hop (hdebit amount)

/-- The record of `id` after the record of `id'` was replaced. -/
theorem setChannel_step {c : Channel} (hl : b.channels.lookup id = some ch)
    (hl' : b.channels.lookup id' = some c) (hstep : ChannelStep now op id' c ch')
    (hother : id ≠ id' → (∀ amount, op ≠ .debited id amount) ∧
      ∀ pk window, op ≠ .enabled id pk window) :
    ∃ x, (b.setChannel id' ch').channels.lookup id = some x ∧ ChannelStep now op id ch x := by
  rw [setChannel_channels, Map.lookup_insert_eq_ite]
  by_cases hid : id = id'
  · subst hid
    obtain rfl : ch = c := Option.some.inj (hl.symm.trans hl')
    exact ⟨ch', if_pos rfl, hstep⟩
  · refine ⟨ch, by rw [if_neg hid, hl], .refl (hother hid).1 (hother hid).2⟩

/-- The two records differ in their money only. -/
structure SameSettings (ch ch' : Channel) : Prop where
  parties : ch'.agent = ch.agent ∧ ch'.owner = ch.owner ∧ ch'.token = ch.token
  plan : ch'.limit_per_period = ch.limit_per_period ∧ ch'.period = ch.period
  terms : ch'.dispute_ledgers = ch.dispute_ledgers ∧ ch'.voucher_signer = ch.voucher_signer
  spending : ch'.spent_this_period = ch.spent_this_period ∧
    ch'.period_start_ledger = ch.period_start_ledger

/-- A replacement by an operation that is neither a payment nor an enabling of vouchers. -/
theorem setChannel_step_plain {c : Channel} (hl : b.channels.lookup id = some ch)
    (hl' : b.channels.lookup id' = some c) (hsame : SameSettings c ch')
    (hop : (∀ id amount, op ≠ .debited id amount) ∧ ∀ id pk window, op ≠ .enabled id pk window) :
    ∃ x, (b.setChannel id' ch').channels.lookup id = some x ∧ ChannelStep now op id ch x := by
  refine setChannel_step hl hl' ⟨hsame.parties, hsame.plan, fun _ => hsame.terms, ?_,
    fun _ => hsame.spending, ?_⟩ (fun _ => ⟨hop.1 id, hop.2 id⟩)
  · exact fun pk window h => absurd h (hop.2 id' pk window)
  · exact fun amount h => absurd h (hop.1 id' amount)

/-- **A channel through an operation.** No channel disappears, and `ChannelStep` is all that can
happen to its record. -/
theorem Step.channel_step (h : Step V b op b') (hinv : b.Inv)
    (hl : b.channels.lookup id = some ch) :
    ∃ ch', b'.channels.lookup id = some ch' ∧ ChannelStep b.ledger op id ch ch' := by
  cases h with
  | opened _ =>
      -- ids in use are at most `count`, so the new one is another
      have hne : id ≠ b.count + 1 := by
        have := hinv.ids _ _ hl
        omega
      exact ⟨ch, by rw [setChannel_channels, Map.lookup_insert_eq_ite, if_neg hne, hl],
        .refl (by simp) (by simp)⟩
  | @debited id' c c' amount hl' hdebit =>
      refine setChannel_step hl hl' ⟨?_, ?_, fun _ => ?_, by simp, ?_, ?_⟩ (fun hne => ?_)
      · rw [hdebit.result]
        exact ⟨rolled_agent _ _, rolled_owner _ _, rolled_token _ _⟩
      · rw [hdebit.result]
        exact ⟨rolled_limit _ _, rolled_period _ _⟩
      · rw [hdebit.result]
        exact ⟨rolled_dispute_ledgers _ _, rolled_voucher_signer _ _⟩
      · intro hop
        exact absurd rfl (hop amount)
      · rintro amount' hop
        cases hop
        exact hdebit
      · simp [Ne.symm hne]
  | @enabled id' c pk window hl' _ =>
      refine setChannel_step hl hl' ⟨⟨rfl, rfl, rfl⟩, ⟨rfl, rfl⟩, ?_, ?_, fun _ => ⟨rfl, rfl⟩,
        by simp⟩ (fun hne => ?_)
      · intro hop
        exact absurd rfl (hop pk window)
      · rintro pk' window' hop
        cases hop
        exact ⟨rfl, rfl⟩
      · simp [Ne.symm hne]
  | funded hl' _ =>
      refine setChannel_step_plain hl hl' ?_ (by simp)
      exact ⟨⟨rfl, rfl, rfl⟩, ⟨rfl, rfl⟩, ⟨rfl, rfl⟩, ⟨rfl, rfl⟩⟩
  | refunded _ hl' _ _ =>
      refine setChannel_step_plain hl hl' ?_ (by simp)
      exact ⟨⟨rfl, rfl, rfl⟩, ⟨rfl, rfl⟩, ⟨rfl, rfl⟩, ⟨rfl, rfl⟩⟩
  | reserved hl' _ _ _ _ =>
      refine setChannel_step_plain (b := b.setAllocation _ _) hl hl' ?_ (by simp)
      exact ⟨⟨rfl, rfl, rfl⟩, ⟨rfl, rfl⟩, ⟨rfl, rfl⟩, ⟨rfl, rfl⟩⟩
  | cooperative hp _ =>
      refine setChannel_step_plain (b := b.setAllocation _ _) hl hp.channel ?_ (by simp)
      exact ⟨⟨rfl, rfl, rfl⟩, ⟨rfl, rfl⟩, ⟨rfl, rfl⟩, ⟨rfl, rfl⟩⟩
  | finalized hl' _ _ _ _ _ =>
      refine setChannel_step_plain (b := (b.dropSettlement _).setAllocation _ _) hl hl' ?_ (by simp)
      exact ⟨⟨rfl, rfl, rfl⟩, ⟨rfl, rfl⟩, ⟨rfl, rfl⟩, ⟨rfl, rfl⟩⟩
  | _ => exact ⟨ch, hl, .refl (by simp) (by simp)⟩

/-- A channel appears only by being opened. -/
theorem Step.channel_new (h : Step V b op b') (hl : b.channels.lookup id = none)
    (hl' : b'.channels.lookup id = some ch') :
    ∃ deposit, op = .opened id deposit ∧ Opening b.ledger deposit ch' := by
  have hset : ∀ {id' : Nat} {c c' : Channel}, b.channels.lookup id' = some c →
      (b.channels.insert id' c').lookup id = none := by
    intro id' c c' hc
    have hne : id ≠ id' := by
      rintro rfl
      rw [hl] at hc
      cases hc
    rw [Map.lookup_insert_eq_ite, if_neg hne, hl]
  cases h with
  | @opened c deposit hopen =>
      rw [setChannel_channels, Map.lookup_insert_eq_ite] at hl'
      by_cases hid : id = b.count + 1
      · rw [if_pos hid] at hl'
        cases hl'
        exact ⟨deposit, by rw [hid], hopen⟩
      · rw [if_neg hid, hl] at hl'
        cases hl'
  | debited hc _ => cases (hset hc).symm.trans hl'
  | funded hc _ => cases (hset hc).symm.trans hl'
  | refunded _ hc _ _ => cases (hset hc).symm.trans hl'
  | enabled hc _ => cases (hset hc).symm.trans hl'
  | reserved hc _ _ _ _ => cases (hset hc).symm.trans hl'
  | cooperative hp _ => cases (hset hp.channel).symm.trans hl'
  | finalized hc _ _ _ _ _ => cases (hset hc).symm.trans hl'
  | _ => cases hl.symm.trans hl'

/-! ## What an operation does to one pair -/

/-- While a close is in flight, only settling it touches the reservation. -/
theorem Step.allocation_keep (h : Step V b op b') (hs : b.settlements.lookup (id, r) = some s)
    (hsettle : ∀ v penalty, op = .settled v penalty → v.key ≠ (id, r)) :
    b'.allocations.lookup (id, r) = b.allocations.lookup (id, r) := by
  cases h with
  | @reserved id' r' _ _ _ _ _ _ hquiet =>
      have hkey : (id, r) ≠ (id', r') := by
        rintro hkey
        rw [hkey, hquiet] at hs
        cases hs
      rw [setChannel_allocations, setAllocation_allocations, Map.lookup_insert_eq_ite,
        if_neg hkey]
  | @cooperative v _ _ _ _ =>
      exact (Map.lookup_insert_eq_ite _ _ _ _).trans (if_neg (Ne.symm (hsettle v _ rfl)))
  | @finalized v _ _ _ _ _ _ _ _ _ =>
      exact (Map.lookup_insert_eq_ite _ _ _ _).trans (if_neg (Ne.symm (hsettle v _ rfl)))
  | _ => rfl

/-- A close in flight stays as it is, is raised by a better voucher, or is settled. -/
theorem Step.settlement_cases (h : Step V b op b')
    (hs : b.settlements.lookup (id, r) = some s)
    (hsettle : ∀ v penalty, op = .settled v penalty → v.key ≠ (id, r)) :
    b'.settlements.lookup (id, r) = some s ∨
    ∃ v, op = .raised v ∧ v.key = (id, r) ∧ s.best_cumulative < v.cumulative_amount ∧
      b'.settlements.lookup (id, r) = some
        { s with best_sequence := v.sequence, best_cumulative := v.cumulative_amount } := by
  cases h with
  | @disputed v _ _ _ _ hquiet =>
      have hkey : (id, r) ≠ v.key := by
        intro hkey
        rw [hkey, hquiet] at hs
        cases hs
      left
      rw [setSettlement_settlements, Map.lookup_insert_eq_ite, if_neg hkey, hs]
  | @raised v _ _ s' _ hs' _ hbetter =>
      by_cases hkey : v.key = (id, r)
      · rw [hkey, hs] at hs'
        cases hs'
        refine .inr ⟨v, rfl, hkey, hbetter, ?_⟩
        rw [setSettlement_settlements, hkey, Finmap.lookup_insert]
      · left
        rw [setSettlement_settlements, Map.lookup_insert_eq_ite, if_neg (Ne.symm hkey), hs]
  | @finalized v _ _ _ _ _ _ _ _ _ =>
      left
      show (b.settlements.erase v.key).lookup (id, r) = some s
      rw [Map.lookup_erase_eq_ite, if_neg (Ne.symm (hsettle v _ rfl)), hs]
  | _ => exact .inl hs

/-- A close in flight is settled only after its window. -/
theorem Step.settled_late {v : Claim} {penalty : Int} (h : Step V b (.settled v penalty) b')
    (hs : b.settlements.lookup v.key = some s)
    (hl : b.channels.lookup v.channel_id = some ch) :
    s.opened_at_ledger + ch.dispute_ledgers ≤ b.ledger := by
  generalize hop : BookOp.settled v penalty = op at h
  cases h with
  | cooperative _ hquiet =>
      cases hop
      cases hquiet.symm.trans hs
  | finalized hl' hs' _ hended _ _ =>
      cases hop
      cases hl.symm.trans hl'
      cases hs.symm.trans hs'
      exact hended
  | _ => cases hop

end

end Book

end StellarAgent.PaymentChannel
