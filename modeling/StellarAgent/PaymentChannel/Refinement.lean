import StellarAgent.PaymentChannel.AdminEffects
import StellarAgent.PaymentChannel.System

set_option autoImplicit false

/-! # The contract keeps the escrow book

`Tx.op` reads off the events of a transaction which operation on the books it was. The main
results:

* `step_refines`: every step of the contract is that operation, and the tokens it moved are
  those of the operation (`Receipt`);
* `Runs.refines`: every run of the contract from a `Genesis` world is a run of the book, and
  its last state satisfies `Book.Inv`.
-/

namespace StellarAgent.PaymentChannel

open Lib Soroban

/-! ## The operation of a transaction -/

/-- The sequence number of the voucher that `close_unilateral` was called with, which its event
does not repeat. -/
def closingSequence : Action Call → Nat
  | .invoke _ (.closeUnilateral _ _ _ sequence _ _) => sequence
  | _ => 0

/-- What an event says happened to the books. -/
def bookOp (a : Action Call) : HostEvent Event → Option BookOp
  | .published (.opened id _ _ deposit) => some (.opened id deposit)
  | .published (.paid id _ _ amount _) => some (.debited id amount)
  | .published (.convpaid id _ _ amount _ _ _) => some (.debited id amount)
  | .published (.routepay id _ _ amount _ _ _ _) => some (.debited id amount)
  | .published (.topup id _ amount) => some (.funded id amount)
  | .published (.closed id _ refund) => some (.refunded id refund)
  | .published (.withdrew id _ free) => some (.refunded id free)
  | .published (.enabled id pk window) => some (.enabled id pk window)
  | .published (.allocated id r amount _) => some (.reserved id r amount)
  | .published (.coopclose id r sequence c) => some (.settled ⟨id, r, sequence, c⟩ 0)
  | .published (.closing id r _ c _) => some (.disputed ⟨id, r, closingSequence a, c⟩)
  | .published (.challenge id r sequence c) => some (.raised ⟨id, r, sequence, c⟩)
  | .published (.finalized id r sequence c penalty) => some (.settled ⟨id, r, sequence, c⟩ penalty)
  | _ => none

@[simp] theorem bookOp_transfer (a : Action Call) (token source dest : Address) (amount : Int) :
    bookOp a (.transfer token source dest amount) = none := rfl

@[simp] theorem bookOp_stateChannel (a : Action Call) (id : Nat) (ch : Channel) :
    bookOp a (.published (.stateChannel id ch)) = none := rfl

/-- The operation that a list of events reports. -/
def opOf (a : Action Call) (events : List (HostEvent Event)) : BookOp :=
  (events.findSome? (bookOp a)).getD .idle

@[simp] theorem opOf_nil (a : Action Call) : opOf a [] = .idle := rfl

@[simp] theorem opOf_cons (a : Action Call) (e : HostEvent Event)
    (events : List (HostEvent Event)) :
    opOf a (e :: events) = (bookOp a e).getD (opOf a events) := by
  unfold opOf
  rw [List.findSome?_cons]
  cases bookOp a e <;> rfl

/-- The operation of a transaction on the books. -/
def Tx.op (t : Tx) : BookOp := opOf t.act t.post.events

/-! ## The tokens of a transaction -/

/-- What a list of events sends from the contract to `r`. -/
def sentTo (d : Deployment) (r : Address) (events : List (HostEvent Event)) : Int :=
  (events.map fun
    | .transfer _ source dest amount => if source = d.address ∧ dest = r then amount else 0
    | .published _ => 0).sum

/-- What a list of events sends from the contract. -/
def sent (d : Deployment) (events : List (HostEvent Event)) : Int :=
  (events.map fun
    | .transfer _ source _ amount => if source = d.address then amount else 0
    | .published _ => 0).sum

/-- What a list of events sends to the contract. -/
def received (d : Deployment) (events : List (HostEvent Event)) : Int :=
  (events.map fun
    | .transfer _ _ dest amount => if dest = d.address then amount else 0
    | .published _ => 0).sum

/-- What a recipient has been paid for vouchers so far. -/
def Book.settledFor (b : Book) (key : PairKey) : Int := (b.reservation key).settled

/-- The tokens that go with an operation. -/
def Receipt (d : Deployment) (w : State) (events : List (HostEvent Event)) : BookOp → Prop
  | .opened _ deposit => received d events = deposit
  | .funded _ amount => received d events = amount
  | .refunded _ amount => sent d events = amount
  | .settled v penalty => sentTo d v.recipient events
      = v.cumulative_amount + penalty - (book w).settledFor v.key
  | _ => True

/-- Which calls report which operation, with which arguments. -/
def Reported : Action Call → BookOp → Prop
  | _, .idle => True
  | .invoke _ (.openChannel _ _ _ deposit' _ _), .opened _ deposit => deposit = deposit'
  | .invoke _ (.pay _ id' _ amount' _), .debited id amount => id = id' ∧ amount = amount'
  | .invoke _ (.payWithConversion _ id' _ amount' _ _ _), .debited id amount =>
      id = id' ∧ amount = amount'
  | .invoke _ (.payWithRoute _ id' _ amount' _ _ _ _ _), .debited id amount =>
      id = id' ∧ amount = amount'
  | .invoke _ (.topUp _ id' amount'), .funded id amount => id = id' ∧ amount = amount'
  | .invoke _ (.closeChannel _ id'), .refunded id _ => id = id'
  | .invoke _ (.withdrawFree _ id'), .refunded id _ => id = id'
  | .invoke _ (.enableVouchers _ id' pk' window'), .enabled id pk window =>
      id = id' ∧ pk = pk' ∧ window = window'
  | .invoke _ (.allocate _ id' r' amount'), .reserved id r amount =>
      id = id' ∧ r = r' ∧ amount = amount'
  | .invoke _ (.closeUnilateral _ id r sequence c _), .disputed v => v = ⟨id, r, sequence, c⟩
  | .invoke _ (.challenge id r sequence c _), .raised v => v = ⟨id, r, sequence, c⟩
  | .invoke _ (.closeCooperative id r sequence c _), .settled v penalty =>
      v = ⟨id, r, sequence, c⟩ ∧ penalty = 0
  | .invoke _ (.finalize id r), .settled v _ => v.key = (id, r)
  | _, _ => False

/-- The step from `w` to `w'` by action `a` is the operation its events report. -/
structure Refines (P : Platform) (d : Deployment) (w : State) (a : Action Call) (w' : State) :
    Prop where
  step : Book.Step (Vouched P d) (book w) (opOf a w'.events) (book w')
  receipt : Receipt d w w'.events (opOf a w'.events)
  reported : Reported a (opOf a w'.events)

section

variable {P : Platform} {d : Deployment} {env : Env} {w w' : State} {a : Action Call}

theorem Refines.of_step (op : BookOp) (hstep : Book.Step (Vouched P d) (book w) op (book w'))
    (hop : opOf a w'.events = op) (hreceipt : Receipt d w w'.events op)
    (hreported : Reported a op) : Refines P d w a w' := by
  subst hop
  exact ⟨hstep, hreceipt, hreported⟩

theorem Refines.idle (hop : opOf a w'.events = .idle) (hledger : w.sequence ≤ w'.sequence)
    (hbook : book w' = { book w with ledger := w'.sequence }) : Refines P d w a w' := by
  have hreported : Reported a .idle := by unfold Reported; trivial
  refine .of_step _ ?_ hop trivial hreported
  rw [hbook]
  exact .idle hledger

theorem Refines.of_booksKept (hop : opOf a w'.events = .idle) (hk : BooksKept w w') :
    Refines P d w a w' := by
  have hledger : w'.sequence = w.sequence := congrArg Book.ledger hk.book_eq
  refine .idle hop hledger.ge ?_
  rw [hledger, hk.book_eq]
  rfl

/-- Token transfers before the first published event do not report anything. -/
theorem TokensMoved.opOf_append (h : TokensMoved w w') (hev : w.events = [])
    (evs : List (HostEvent Event)) : opOf a (w'.events ++ evs) = opOf a evs := by
  obtain ⟨ts, he, hts⟩ := h.events
  have hnone : ts.findSome? (bookOp a) = none := by
    rw [List.findSome?_eq_none_iff]
    intro e hmem
    obtain ⟨_, _, _, _, rfl⟩ := hts e hmem
    rfl
  unfold opOf
  rw [he, hev, List.nil_append, List.findSome?_append, hnone, Option.none_or]

/-! ## One lemma for each entry point -/

theorem openChannel_refines {owner agent token : Address} {deposit limit : Int}
    {period : SpendPeriod} {new : Nat} (hd : env.contract = d) (hev : w.events = [])
    (h : openChannel env w owner agent token deposit limit period = .ok (new, w')) :
    Refines P d w (.invoke env (.openChannel owner agent token deposit limit period)) w' := by
  obtain ⟨ch, next, hauth, hopen, _, _, rfl, hnext, _, _, hevents, rfl⟩ := openChannel_ok h
  subst hd
  refine .of_step (.opened ((book w).count + 1) deposit) ?_ ?_ ?_ rfl
  · rw [book_publish, book_publish, book_storeChannel, hnext]
    exact .opened hopen
  · simp [hevents, hev, bookOp]
  · simp [Receipt, received, hevents, hev, Env.self]

/-- The three payment functions: tokens go out, and the record is debited. -/
theorem payment_refines {id : Nat} {ch ch' : Channel} {amount : Int} {paid : State} {e : Event}
    (hev : w.events = []) (hmoved : TokensMoved w paid)
    (hl : (book w).channels.lookup id = some ch) (hdebit : Book.Debit w.sequence ch amount ch')
    (hop : bookOp a (.published e) = some (.debited id amount))
    (hreported : Reported a (.debited id amount)) :
    Refines P d w a (((storeChannel paid id ch').publish e).publish (.stateChannel id ch')) := by
  refine .of_step (.debited id amount) ?_ ?_ trivial hreported
  · rw [book_publish, book_publish, book_storeChannel, hmoved.book_eq]
    exact .debited hl hdebit
  · show opOf a ((paid.events ++ [.published e]) ++ [.published (.stateChannel id ch')]) = _
    rw [List.append_assoc, hmoved.opOf_append hev]
    simp [hop]

theorem pay_refines {agent r : Address} {id : Nat} {amount : Int} {memo : Bytes}
    (hev : w.events = []) (h : pay env w agent id r amount memo = .ok w') :
    Refines P d w (.invoke env (.pay agent id r amount memo)) w' := by
  obtain ⟨ch, ch', hl, hdebit, rfl⟩ := pay_ok h
  exact payment_refines hev (TokensMoved.moved _ _ _ _ _) hl hdebit rfl ⟨rfl, rfl⟩

theorem payWithConversion_refines {agent r dest_token : Address} {id : Nat}
    {amount min_received out : Int} {memo : Bytes} (hev : w.events = [])
    (h : payWithConversion env w agent id r amount dest_token min_received memo
      = .ok (out, w')) :
    Refines P d w (.invoke env
      (.payWithConversion agent id r amount dest_token min_received memo)) w' := by
  obtain ⟨ch, ch', paid, hl, hdebit, hpaid, rfl⟩ := payWithConversion_ok h
  have hmoved : TokensMoved w paid := by
    rcases hpaid with ⟨_, rfl⟩ | hconversion
    · exact TokensMoved.moved _ _ _ _ _
    · obtain ⟨amm, delivered, _, rfl⟩ := executeConversion_ok hconversion
      exact (TokensMoved.moved _ _ _ _ _).trans (TokensMoved.moved _ _ _ _ _)
  exact payment_refines hev hmoved hl hdebit rfl ⟨rfl, rfl⟩

theorem payWithRoute_refines {agent r dest_token : Address} {id : Nat}
    {amount min_received out : Int} {route : List SwapHop} {valid_until : Nat} {memo : Bytes}
    (hev : w.events = [])
    (h : payWithRoute env w agent id r amount dest_token route min_received valid_until memo
      = .ok (out, w')) :
    Refines P d w (.invoke env
      (.payWithRoute agent id r amount dest_token route min_received valid_until memo)) w' := by
  obtain ⟨ch, ch', paid, hl, hdebit, hpaid, rfl⟩ := payWithRoute_ok h
  have hmoved : TokensMoved w paid := by
    rcases hpaid with ⟨_, _, rfl⟩ | hroute
    · exact TokensMoved.moved _ _ _ _ _
    · exact runHops_moved (executeRoute_ok hroute).2.2
  exact payment_refines hev hmoved hl hdebit rfl ⟨rfl, rfl⟩

theorem topUp_refines {owner : Address} {id : Nat} {amount : Int} (hd : env.contract = d)
    (hev : w.events = []) (h : topUp env w owner id amount = .ok w') :
    Refines P d w (.invoke env (.topUp owner id amount)) w' := by
  obtain ⟨ch, _, hl, hpos, rfl⟩ := topUp_ok h
  subst hd
  refine .of_step _ (.funded hl hpos) ?_ ?_ ⟨rfl, rfl⟩
  · simp [hev, bookOp]
  · simp [hev, Receipt, received, Env.self]

theorem closeChannel_refines {owner : Address} {id : Nat} (hd : env.contract = d)
    (hinv : (book w).Inv) (hev : w.events = []) (h : closeChannel env w owner id = .ok w') :
    Refines P d w (.invoke env (.closeChannel owner id)) w' := by
  obtain ⟨ch, ch', paid, refund, _, hl, _, hrefund, hcases, rfl⟩ := closeChannel_ok h
  have hcov := hinv.covered _ _ hl
  subst hd
  rcases hcases with ⟨hpos, rfl, rfl⟩ | ⟨hzero, rfl, rfl⟩
  · refine .of_step _ (.refunded false hl hpos.le hrefund.le) ?_ ?_ rfl
    · simp [hev, bookOp]
    · simp [hev, Receipt, sent, Env.self]
  · obtain rfl : refund = 0 := by omega
    refine .of_step (.refunded id 0) ?_ ?_ ?_ rfl
    · simpa using Book.Step.refunded false hl le_rfl hrefund.le
    · simp [hev, bookOp]
    · simp [hev, Receipt, sent]

theorem withdrawFree_refines {owner : Address} {id : Nat} {free : Int} (hd : env.contract = d)
    (hev : w.events = []) (h : withdrawFree env w owner id = .ok (free, w')) :
    Refines P d w (.invoke env (.withdrawFree owner id)) w' := by
  obtain ⟨ch, _, hl, _, rfl | ⟨hpos, hfree, rfl⟩⟩ := withdrawFree_ok h
  · exact .idle (by rw [hev]; rfl) le_rfl rfl
  · subst hd
    refine .of_step _ (.refunded ch.active hl hpos.le hfree.le) ?_ ?_ rfl
    · simp [hev, bookOp]
    · simp [hev, Receipt, sent, Env.self]

theorem enableVouchers_refines {owner : Address} {id : Nat} {pk : BytesN 32} {window : Nat}
    (hev : w.events = []) (h : enableVouchers env w owner id pk window = .ok w') :
    Refines P d w (.invoke env (.enableVouchers owner id pk window)) w' := by
  obtain ⟨ch, _, hl, _, hlong, rfl⟩ := enableVouchers_ok h
  refine .of_step _ (.enabled hl hlong) ?_ trivial ⟨rfl, rfl, rfl⟩
  simp [hev, bookOp]

theorem allocate_refines {owner r : Address} {id : Nat} {amount : Int}
    (hev : w.events = []) (h : allocate env w owner id r amount = .ok w') :
    Refines P d w (.invoke env (.allocate owner id r amount)) w' := by
  obtain ⟨ch, hl, hsigner, hpos, hfree, hquiet, rfl⟩ := allocate_ok h
  refine .of_step _ (.reserved hl hsigner hpos hfree hquiet) ?_ trivial ⟨rfl, rfl, rfl⟩
  simp [hev, bookOp]

/-- Both ways to settle pay out what the book says, in one transfer. -/
theorem payOut_refines (start : State) {v : Claim} {penalty : Int} {ch : Channel}
    {x : Allocation} {e : Event} (hd : env.contract = d) (hev : w.events = [])
    (hstart : start.events = w.events) (ha : (book w).allocations.lookup v.key = some x)
    (hstep : ∀ b', b' = (book start).payOut v ch x penalty →
      Book.Step (Vouched P d) (book w) (.settled v penalty) b')
    (hl : (book start).channels.lookup v.channel_id = some ch)
    (hx : allocation start v.channel_id v.recipient = some x)
    (h : payOut env start v.channel_id v.recipient v.cumulative_amount penalty = .ok w')
    (hop : bookOp a (.published e) = some (.settled v penalty))
    (hreported : Reported a (.settled v penalty)) :
    Refines P d w a (w'.publish e) := by
  obtain ⟨ch', x', due, hl', hx', hdue, _, rfl⟩ := payOut_ok h
  obtain rfl : ch = ch' := Option.some.inj (hl.symm.trans hl')
  obtain rfl : x = x' := Option.some.inj (hx.symm.trans hx')
  subst hdue hd
  refine .of_step _ (hstep _ rfl) ?_ ?_ hreported
  · simp [hstart, hev, hop]
  · have hsettled : (book w).settledFor v.key = x.settled := by
      rw [Book.settledFor, Book.reservation_eq ha]
    -- the receipt counts from what was settled before this payout
    simp only [Receipt, hsettled]
    simp [hstart, hev, sentTo, Env.self]
    omega

theorem closeCooperative_refines {v : Claim} {signature : BytesN 64} {paid : Int}
    (hP : env.platform = P) (hd : env.contract = d) (htyped : v.Typed) (hev : w.events = [])
    (h : closeCooperative env w v.channel_id v.recipient v.sequence v.cumulative_amount signature
      = .ok (paid, w')) :
    Refines P d w (.invoke env (.closeCooperative v.channel_id v.recipient v.sequence
      v.cumulative_amount signature)) w' := by
  obtain ⟨ch, x, next, hp, hquiet, hpay, rfl⟩ := closeCooperative_ok h htyped
  subst hP
  refine payOut_refines w hd hev rfl hp.allocation ?_ hp.channel hp.allocation hpay rfl ⟨rfl, rfl⟩
  rintro _ rfl
  exact .cooperative (hd ▸ hp.mono fun _ => SignedBy.vouched) hquiet

theorem closeUnilateral_refines {closer : Address} {v : Claim} {signature : BytesN 64}
    (hP : env.platform = P) (hd : env.contract = d) (htyped : v.Typed) (hev : w.events = [])
    (h : closeUnilateral env w closer v.channel_id v.recipient v.sequence v.cumulative_amount
      signature = .ok w') :
    Refines P d w (.invoke env (.closeUnilateral closer v.channel_id v.recipient v.sequence
      v.cumulative_amount signature)) w' := by
  obtain ⟨ch, x, hp, hquiet, rfl⟩ := closeUnilateral_ok h htyped
  subst hP hd
  refine .of_step _ (.disputed (hp.mono fun _ => SignedBy.vouched) hquiet) ?_ trivial rfl
  simp [hev, bookOp, closingSequence]

theorem challenge_refines {v : Claim} {signature : BytesN 64}
    (hP : env.platform = P) (hd : env.contract = d) (htyped : v.Typed) (hev : w.events = [])
    (h : challenge env w v.channel_id v.recipient v.sequence v.cumulative_amount signature
      = .ok w') :
    Refines P d w (.invoke env (.challenge v.channel_id v.recipient v.sequence
      v.cumulative_amount signature)) w' := by
  obtain ⟨ch, x, s, hp, hs, hopen, hbetter, rfl⟩ := challenge_ok h htyped
  subst hP hd
  refine .of_step _ (.raised (hp.mono fun _ => SignedBy.vouched) hs hopen hbetter) ?_ trivial rfl
  simp [hev, bookOp]

theorem finalize_refines {id : Nat} {r : Address} {paid : Int} (hd : env.contract = d)
    (hev : w.events = []) (h : finalize env w id r = .ok (paid, w')) :
    Refines P d w (.invoke env (.finalize id r)) w' := by
  obtain ⟨ch, s, x, next, hl, hs, ha, _, hended, hpay, rfl⟩ := finalize_ok h
  refine payOut_refines (removeSettlement w id r)
    (v := ⟨id, r, s.best_sequence, s.best_cumulative⟩) hd hev rfl ha ?_ hl ha hpay rfl rfl
  rintro _ rfl
  exact .finalized hl hs ha hended rfl rfl

/-! ## Admin calls -/

/-- An admin call reports no operation on the books. -/
theorem admin_refines (evs : List (HostEvent Event)) (hev : w.events = [])
    (hop : opOf a evs = .idle) (h : BooksKept w w' ∧ w'.events = w.events ++ evs) :
    Refines P d w a w' := by
  refine .of_booksKept ?_ h.1
  rw [h.2, hev, List.nil_append, hop]

theorem propose_refines {owner : Address} {key : ProposalKey} {e : Event} (hev : w.events = [])
    (hop : bookOp a (.published e) = none) (h : propose env w owner key e = .ok w') :
    Refines P d w a w' :=
  admin_refines _ hev (by simp [hop]) (propose_booksKept h)

theorem setWiredContract_refines {admin value : Address} {key : WiredKey} {admin_key : AdminKey}
    {refusal : String} (hev : w.events = [])
    (h : setWiredContract env w admin key value admin_key refusal = .ok w') :
    Refines P d w a w' :=
  admin_refines [] hev rfl (by simpa using setWiredContract_booksKept h)

end

/-! ## Steps and runs -/

theorem exec_refines {P : Platform} {d : Deployment} {env : Env} {w w' : State} {call : Call}
    (hP : env.platform = P) (hd : env.contract = d) (htyped : call.WellTyped)
    (hinv : (book w).Inv) (hev : w.events = []) (h : exec env w call = .ok w') :
    Refines P d w (.invoke env call) w' := by
  cases call with
  | openChannel owner agent token deposit limit period =>
      obtain ⟨⟨new, w1⟩, hcall, rfl⟩ := Result.map_eq_ok.mp h
      exact openChannel_refines hd hev hcall
  | pay agent id r amount memo => exact pay_refines hev h
  | payWithConversion agent id r amount dest_token min_received memo =>
      obtain ⟨⟨out, w1⟩, hcall, rfl⟩ := Result.map_eq_ok.mp h
      exact payWithConversion_refines hev hcall
  | payWithRoute agent id r amount dest_token route min_received valid_until memo =>
      obtain ⟨⟨out, w1⟩, hcall, rfl⟩ := Result.map_eq_ok.mp h
      exact payWithRoute_refines hev hcall
  | topUp owner id amount => exact topUp_refines hd hev h
  | closeChannel owner id => exact closeChannel_refines hd hinv hev h
  | setMultisigConfig caller owners threshold window =>
      exact admin_refines _ hev rfl (setMultisigConfig_booksKept h)
  | proposeMultisigConfig owner => exact propose_refines hev rfl h
  | proposeCircuitBreaker owner circuit_breaker => exact propose_refines hev rfl h
  | setCircuitBreaker admin circuit_breaker => exact setWiredContract_refines hev h
  | proposePriceOracle owner price_oracle => exact propose_refines hev rfl h
  | setPriceOracle admin price_oracle => exact setWiredContract_refines hev h
  | proposeAmm owner amm => exact propose_refines hev rfl h
  | setAmm admin amm => exact setWiredContract_refines hev h
  | enableVouchers owner id pk window => exact enableVouchers_refines hev h
  | allocate owner id r amount => exact allocate_refines hev h
  | withdrawFree owner id =>
      obtain ⟨⟨free, w1⟩, hcall, rfl⟩ := Result.map_eq_ok.mp h
      exact withdrawFree_refines hd hev hcall
  | closeCooperative id r sequence c signature =>
      obtain ⟨⟨paid, w1⟩, hcall, rfl⟩ := Result.map_eq_ok.mp h
      exact closeCooperative_refines (v := ⟨id, r, sequence, c⟩) hP hd ⟨htyped.1, htyped.2.2⟩ hev
        hcall
  | closeUnilateral closer id r sequence c signature =>
      exact closeUnilateral_refines (v := ⟨id, r, sequence, c⟩) hP hd ⟨htyped.1, htyped.2.2⟩ hev h
  | challenge id r sequence c signature =>
      exact challenge_refines (v := ⟨id, r, sequence, c⟩) hP hd ⟨htyped.1, htyped.2.2⟩ hev h
  | finalize id r =>
      obtain ⟨⟨paid, w1⟩, hcall, rfl⟩ := Result.map_eq_ok.mp h
      exact finalize_refines hd hev hcall
  | proposeSolvencyVk owner vk => exact admin_refines _ hev rfl (proposeSolvencyVk_booksKept h)
  | setSolvencyVk admin vk =>
      exact admin_refines [] hev rfl (by simpa using setSolvencyVk_booksKept h)

@[simp] theorem book_quiet (w : State) : book w.quiet = book w := rfl

/-- **Every step of the contract is the book operation that its events report.** -/
theorem step_refines {P : Platform} {d : Deployment} {w w' : State} {a : Action Call}
    (hinv : (book w).Inv) (h : Step P d w a w') : Refines P d w a w' := by
  cases step_outcome h with
  | closedLedgers _ => exact .idle rfl (Nat.le_add_right _ _) rfl
  | foreign _ => exact .idle rfl le_rfl rfl
  | panicked _ _ _ => exact .idle rfl le_rfl rfl
  | returned hP hd htyped hexec =>
      obtain ⟨hstep, hreceipt, hreported⟩ := exec_refines (w := w.quiet) hP hd htyped hinv rfl hexec
      exact ⟨hstep, hreceipt, hreported⟩

/-- Only a call that returns reports an operation. -/
theorem step_called {P : Platform} {d : Deployment} {w w' : State} {a : Action Call}
    (hst : Step P d w a w') (hop : opOf a w'.events ≠ .idle) :
    ∃ env call, a = .invoke env call ∧ call.WellTyped ∧ Tx.Calls ⟨w, a, w'⟩ env call := by
  cases step_outcome hst with
  | closedLedgers _ => exact absurd rfl hop
  | foreign _ => exact absurd rfl hop
  | panicked _ _ _ => exact absurd rfl hop
  | returned _ _ htyped hexec => exact ⟨_, _, rfl, htyped, rfl, hexec⟩

theorem genesis_book {w : State} (h : Genesis w) : book w = ⟨w.sequence, 0, ∅, ∅, ∅⟩ := by
  unfold book loadChannels
  rw [h.storage]
  rfl

theorem genesis_inv {w : State} (h : Genesis w) : (book w).Inv := by
  rw [genesis_book h]
  exact Book.Inv.empty _

/-- A run of the book: the operations it performs and the books between them. -/
abbrev Book.Runs (V : BytesN 32 → Claim → Prop) :
    Book → List (Transition Book BookOp) → Book → Prop := Run (Book.Step V)

/-- A transaction as the book sees it. -/
def Tx.entry (t : Tx) : Transition Book BookOp := t.map book Tx.op

/-- **A run of the contract is a run of the book.** -/
theorem Runs.refines {P : Platform} {d : Deployment} {w w' : State} {tr : List Tx}
    (h : Runs P d w tr w') (hinv : (book w).Inv) :
    Book.Runs (Vouched P d) (book w) (tr.map Tx.entry) (book w') ∧ (book w').Inv := by
  refine Run.simulate (I := fun w => (book w).Inv) h hinv (fun m a m' hI hst => ?_)
  have hrefines := step_refines hI hst
  exact ⟨hrefines.step, hI.step hrefines.step⟩

/-- **The history rule for the contract.** Like `Run.history`, with the invariant of the books
before each step and the operation that the step is. -/
theorem Runs.history {P : Platform} {d : Deployment} {w w' : State} {tr : List Tx}
    {Q : List Tx → State → Prop} (h : Runs P d w tr w') (hinv : (book w).Inv) (h0 : Q [] w)
    (hstep : ∀ tr m a m', (book m).Inv → Q tr m → Step P d m a m' → Refines P d m a m' →
      Q (tr ++ [⟨m, a, m'⟩]) m') : Q tr w' := by
  refine Run.history h h0 (fun tr m a m' hr hQ hst => ?_)
  have hI : (book m).Inv := (Runs.refines hr hinv).2
  exact hstep tr m a m' hI hQ hst (step_refines hI hst)

/-- The same for runs all of whose transactions meet a condition. -/
theorem Runs.history_of {P : Platform} {d : Deployment} {w w' : State} {tr : List Tx}
    {C : Tx → Prop} {Q : List Tx → State → Prop} (h : Runs P d w tr w') (hC : ∀ x ∈ tr, C x)
    (hinv : (book w).Inv) (h0 : Q [] w)
    (hstep : ∀ tr m a m', (book m).Inv → Q tr m → Step P d m a m' → Refines P d m a m' →
      C ⟨m, a, m'⟩ → Q (tr ++ [⟨m, a, m'⟩]) m') : Q tr w' := by
  refine Run.history_of h hC h0 (fun tr m a m' hr hQ hst hmeets => ?_)
  have hI : (book m).Inv := (Runs.refines hr hinv).2
  exact hstep tr m a m' hI hQ hst (step_refines hI hst) hmeets

end StellarAgent.PaymentChannel
