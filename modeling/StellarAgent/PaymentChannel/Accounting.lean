import StellarAgent.PaymentChannel.Refinement
import StellarAgent.PaymentChannel.Scenario

set_option autoImplicit false

/-! # Channel accounting

Every unit that is paid into a channel is still its collateral, has been spent from it, or was
refunded to its owner (`Book.Step.accountValue`, and `Runs.conserves` for whole runs). Together
with the invariant of the books this is the accounting invariant of the contract,
`channel_accounting`.
-/

namespace StellarAgent.PaymentChannel

open Lib Soroban

/-! ## What an operation adds to a channel and takes out of it -/

/-- The collateral that an operation pays into channel `id`. -/
def BookOp.paidIn (id : Nat) : BookOp → Int
  | .opened id' deposit => if id' = id then deposit else 0
  | .funded id' amount => if id' = id then amount else 0
  | _ => 0

/-- The collateral that an operation hands back to the owner of channel `id`. -/
def BookOp.refund (id : Nat) : BookOp → Int
  | .refunded id' amount => if id' = id then amount else 0
  | _ => 0

/-- What channel `id` holds and has spent; nothing if it does not exist. -/
def Book.accountValue (b : Book) (id : Nat) : Int :=
  Map.valueAt (fun _ ch => ch.collateral + ch.total_spent) id b.channels

theorem Book.accountValue_setChannel {b : Book} {id : Nat} {ch ch' : Channel}
    (hl : b.channels.lookup id = some ch) (id' : Nat) :
    (b.setChannel id ch').accountValue id' = b.accountValue id' +
      if id = id' then ch'.collateral + ch'.total_spent - (ch.collateral + ch.total_spent)
      else 0 := by
  rw [accountValue, setChannel_channels, Map.valueAt_insert]
  by_cases hid : id' = id
  · subst hid
    rw [if_pos rfl, if_pos rfl, accountValue, Map.valueAt_some hl]
    omega
  · rw [if_neg hid, if_neg (Ne.symm hid), add_zero]
    rfl

/-- Replacing a record by one of the same value changes no account. -/
theorem Book.accountValue_keep {b : Book} {id : Nat} {ch ch' : Channel}
    (hl : b.channels.lookup id = some ch)
    (hvalue : ch'.collateral + ch'.total_spent = ch.collateral + ch.total_spent) (id' : Nat) :
    (b.setChannel id ch').accountValue id' = b.accountValue id' := by
  rw [accountValue_setChannel hl, hvalue, sub_self, ite_self, add_zero]

theorem Book.accountValue_payOut {b : Book} {v : Claim} {ch : Channel} {a : Allocation}
    {penalty : Int} (hl : b.channels.lookup v.channel_id = some ch) (id : Nat) :
    (b.payOut v ch a penalty).accountValue id = b.accountValue id := by
  refine (b.setAllocation v.key _).accountValue_keep hl ?_ id
  dsimp only
  omega

/-- **Conservation in one operation.** -/
theorem Book.Step.accountValue {V : BytesN 32 → Claim → Prop} {b b' : Book} {op : BookOp}
    (h : Step V b op b') (hinv : b.Inv) (id : Nat) :
    b'.accountValue id = b.accountValue id + op.paidIn id - op.refund id := by
  cases h with
  | idle _ => simp [Book.accountValue, BookOp.paidIn, BookOp.refund]
  | @opened ch deposit hopen =>
      have hvalue : ch.collateral + ch.total_spent = deposit := by
        rw [hopen.collateral, hopen.total_spent, add_zero]
      simp only [Book.accountValue, setChannel_channels, Map.valueAt_insert, hvalue,
        BookOp.paidIn, BookOp.refund]
      by_cases hid : id = b.count + 1
      · subst hid
        rw [if_pos rfl, if_pos rfl, Map.valueAt_none hinv.no_fresh_channel]
        omega
      · rw [if_neg hid, if_neg (Ne.symm hid)]
        omega
  | debited hl hdebit =>
      -- what leaves the collateral is counted as spent
      rw [accountValue_keep hl]
      · simp [BookOp.paidIn, BookOp.refund]
      · rw [hdebit.result]
        dsimp only
        omega
  | funded hl _ =>
      rw [accountValue_setChannel hl]
      simp only [BookOp.paidIn, BookOp.refund]
      split <;> omega
  | refunded _ hl _ _ =>
      rw [accountValue_setChannel hl]
      simp only [BookOp.paidIn, BookOp.refund]
      split <;> omega
  | enabled hl _ =>
      rw [accountValue_keep hl]
      · simp [BookOp.paidIn, BookOp.refund]
      · rfl
  | reserved hl _ _ _ _ =>
      rw [(b.setAllocation _ _).accountValue_keep hl]
      · simp [Book.accountValue, BookOp.paidIn, BookOp.refund]
      · rfl
  | disputed _ _ => simp [Book.accountValue, BookOp.paidIn, BookOp.refund]
  | raised _ _ _ _ => simp [Book.accountValue, BookOp.paidIn, BookOp.refund]
  | cooperative hp _ =>
      rw [accountValue_payOut hp.channel]
      simp [BookOp.paidIn, BookOp.refund]
  | @finalized v _ _ _ hl _ _ _ _ _ =>
      rw [(b.dropSettlement v.key).accountValue_payOut hl]
      simp [Book.accountValue, BookOp.paidIn, BookOp.refund]

/-! ## Whole runs -/

/-- The tokens a transaction pays into channel `id`: the deposit of `open_channel`, or the
amount of `top_up`. -/
def Tx.paidIn (d : Deployment) (id : Nat) (t : Tx) : Int :=
  match t.op with
  | .opened id' _ => if id' = id then received d t.post.events else 0
  | .funded id' _ => if id' = id then received d t.post.events else 0
  | _ => 0

/-- The tokens a transaction pays out as a refund from channel `id`, by `close_channel` or
`withdraw_free`. -/
def Tx.refund (d : Deployment) (id : Nat) (t : Tx) : Int :=
  match t.op with
  | .refunded id' _ => if id' = id then sent d t.post.events else 0
  | _ => 0

section

variable {P : Platform} {d : Deployment} {w w' : State} {a : Action Call} {tr : List Tx}

theorem Refines.paidIn (h : Refines P d w a w') (id : Nat) :
    Tx.paidIn d id ⟨w, a, w'⟩ = (opOf a w'.events).paidIn id := by
  have hr := h.receipt
  simp only [Tx.paidIn, Tx.op]
  cases hop : opOf a w'.events <;> simp_all [Receipt, BookOp.paidIn]

theorem Refines.refund (h : Refines P d w a w') (id : Nat) :
    Tx.refund d id ⟨w, a, w'⟩ = (opOf a w'.events).refund id := by
  have hr := h.receipt
  simp only [Tx.refund, Tx.op]
  cases hop : opOf a w'.events <;> simp_all [Receipt, BookOp.refund]

/-- **Conservation over a run**: what was paid in is held, spent or refunded. -/
theorem Runs.conserves (h : Runs P d w tr w') (h0 : Genesis w) (id : Nat) :
    (book w').accountValue id = tally (Tx.paidIn d id) tr - tally (Tx.refund d id) tr := by
  refine Runs.history (Q := fun tr w' => (book w').accountValue id
    = tally (Tx.paidIn d id) tr - tally (Tx.refund d id) tr) h (genesis_inv h0) ?_ ?_
  · rw [genesis_book h0]
    rfl
  · intro tr m a m' hinv ih _ hrefines
    rw [hrefines.step.accountValue hinv id, tally_append, tally_append, tally_singleton,
      tally_singleton, hrefines.paidIn, hrefines.refund, ih]
    omega

/-- **The accounting invariant.** In every reachable state and for every channel: the
reservations are non-negative, add up to `allocated` and are covered by the collateral; a close
in flight lies between what was settled and what is reserved; and what was paid in equals what
is held, spent and refunded. -/
theorem channel_accounting (h0 : Genesis w) (h : Runs P d w tr w') {id : Nat} {ch : Channel}
    (hl : (loadChannels w').lookup id = some ch) :
    (ch.allocated = (book w').reservedFor id ∧
      (∀ r a, allocation w' id r = some a → 0 ≤ a.amount) ∧
      0 ≤ ch.allocated ∧ ch.allocated ≤ ch.collateral) ∧
    (∀ r s, settlement w' id r = some s → ∃ a, allocation w' id r = some a ∧
      a.settled < s.opened_cumulative ∧ s.opened_cumulative ≤ s.best_cumulative ∧
      s.best_cumulative ≤ a.amount) ∧
    tally (Tx.paidIn d id) tr
      = ch.collateral + ch.total_spent + tally (Tx.refund d id) tr := by
  have hinv : (book w').Inv := (h.refines (genesis_inv h0)).2
  refine ⟨⟨hinv.aggregate id ch hl, fun r a ha => (hinv.amounts (id, r) a ha).1,
    hinv.allocated_nonneg hl, hinv.covered id ch hl⟩, fun r s hs => hinv.disputes (id, r) s hs, ?_⟩
  have hvalue : (book w').accountValue id = ch.collateral + ch.total_spent :=
    Map.valueAt_some hl
  calc tally (Tx.paidIn d id) tr
      = (book w').accountValue id + tally (Tx.refund d id) tr := by
        have hconserves := h.conserves h0 id
        omega
    _ = ch.collateral + ch.total_spent + tally (Tx.refund d id) tr := by rw [hvalue]

end

section

open Scenario

/-- A channel with a close in flight whose owner has withdrawn what was free. -/
def escrowScript : List Move := [
  .invoke [owner] honestSwap (.openChannel owner agent usdc 200 100 .Daily),
  .invoke [owner] honestSwap (.enableVouchers owner 1 voucherKey 720),
  .invoke [owner] honestSwap (.allocate owner 1 recipient 100),
  .invoke [agent] honestSwap (.pay agent 1 stranger 30 []),
  .invoke [agent] honestSwap (.closeUnilateral agent 1 recipient 1 20 signature20),
  .invoke [owner] honestSwap (.withdrawFree owner 1)]

theorem channel_accounting_escrow :
    ∃ ch, (loadChannels (outcome escrowScript)).lookup 1 = some ch ∧
      ch.allocated = (book (outcome escrowScript)).reservedFor 1 ∧
      ch.collateral = 100 ∧ (settlement (outcome escrowScript) 1 recipient).isSome ∧
      tally (Tx.paidIn deployed 1) (history escrowScript)
        = ch.collateral + ch.total_spent
          + tally (Tx.refund deployed 1) (history escrowScript) := by
  have hcollateral : ((loadChannels (outcome escrowScript)).lookup 1).map Channel.collateral
      = some 100 := by decide +kernel
  obtain ⟨ch, hl, hch⟩ := Option.map_eq_some_iff.mp hcollateral
  obtain ⟨⟨hsum, _⟩, _, hvalue⟩ :=
    channel_accounting start_genesis (script_runs escrowScript (by decide +kernel)) hl
  exact ⟨ch, hl, hsum, hch, by decide +kernel, hvalue⟩

end

end StellarAgent.PaymentChannel
