import StellarAgent.Escrow.Effects
import StellarAgent.PaymentChannel.AdminEffects
import StellarAgent.PaymentChannel.Scenario

set_option autoImplicit false

/-! # The emergency stop

While the wired circuit breaker reports `paused`, `pay`, `pay_with_conversion`, `pay_with_route`,
the two closes, `release` and `resolve_dispute` are refused. The other entry points do not ask.
Four of them send tokens: `close_channel`, `withdraw_free` and `finalize` of the PaymentChannel, and
`refund` of the escrow; `Drains` says when, from the arguments and the state before the call.
-/

namespace StellarAgent.Soroban

/-! ## Paying out -/

section

variable {E : Type} {self : Address}

/-- Tokens leave `self`. -/
def HostEvent.PaysOut (self : Address) : HostEvent E → Prop
  | .transfer _ source dest amount => source = self ∧ dest ≠ self ∧ 0 < amount
  | .published _ => False

def PaysOut (self : Address) (events : List (HostEvent E)) : Prop := ∃ e ∈ events, e.PaysOut self

@[simp] theorem HostEvent.paysOut_published {event : E} :
    ¬ (HostEvent.published event).PaysOut self := id

@[simp] theorem HostEvent.paysOut_transfer {token source dest : Address} {amount : Int} :
    (HostEvent.transfer token source dest amount : HostEvent E).PaysOut self ↔
      source = self ∧ dest ≠ self ∧ 0 < amount := Iff.rfl

@[simp] theorem paysOut_nil : ¬ PaysOut self ([] : List (HostEvent E)) := by
  simp [PaysOut]

@[simp] theorem paysOut_cons {e : HostEvent E} {es : List (HostEvent E)} :
    PaysOut self (e :: es) ↔ e.PaysOut self ∨ PaysOut self es := by
  simp [PaysOut]

@[simp] theorem paysOut_append {xs ys : List (HostEvent E)} :
    PaysOut self (xs ++ ys) ↔ PaysOut self xs ∨ PaysOut self ys := by
  simp only [PaysOut, List.mem_append, or_and_right, exists_or]

instance : DecidablePred (HostEvent.PaysOut self : HostEvent E → Prop)
  | .transfer .. => inferInstanceAs (Decidable (_ ∧ _))
  | .published _ => inferInstanceAs (Decidable False)

instance (events : List (HostEvent E)) : Decidable (PaysOut self events) :=
  inferInstanceAs (Decidable (∃ e ∈ events, _))

end

/-- A call that never pays out. -/
theorem silent_iff {S E : Type} {self : Address} {r : Result (World S E)}
    (h : ∀ w', r = .ok w' → ¬ PaysOut self w'.events) :
    (∃ w', r = .ok w' ∧ PaysOut self w'.events) ↔ False := by
  constructor
  · rintro ⟨w', hr, hpays⟩
    exact h w' hr hpays
  · exact False.elim

/-- A call that does not panic leaves the next world. -/
theorem Contract.exec_next {S E C : Type} (K : Contract S E C) (w : World S E) (env : Env)
    (call : C) (h : (K.exec env w.quiet call).isOk = true) :
    K.exec env w.quiet call = .ok (K.next w (.invoke env call)) := by
  obtain ⟨w', hexec⟩ := Result.exists_of_isOk h
  rw [hexec, K.next_ok hexec]

end StellarAgent.Soroban

/-! ## PaymentChannel -/

namespace StellarAgent.PaymentChannel

open Lib Soroban

/-- The wired circuit breaker reports that the system is paused. -/
def Paused (env : Env) (w : State) : Prop :=
  ∃ circuit_breaker, w.storage.wired .cb = some circuit_breaker ∧
    env.is_paused circuit_breaker = some true

/-- The owner of the channel asks for free collateral, and there is some. -/
structure FreeDue (env : Env) (w : State) (owner : Address) (id : Nat) (ch : Channel) :
    Prop where
  channel : (loadChannels w).lookup id = some ch
  authorized : env.authorized owner = true
  owner_eq : ch.owner = owner
  positive : 0 < ch.collateral - ch.allocated
  funded : ch.collateral - ch.allocated ≤ w.balance ch.token env.self
  fits : IsI128 (ch.collateral - ch.allocated) ∧ IsI128 ch.allocated

/-- What a close in flight still owes its recipient. -/
def dueTo (s : Settlement) (a : Allocation) : Int :=
  s.best_cumulative - a.settled + Book.penaltyOf s a

/-- A close in flight has run out, and its recipient is owed tokens. -/
structure SettlementDue (env : Env) (w : State) (id : Nat) (r : Address) (ch : Channel)
    (s : Settlement) (a : Allocation) : Prop where
  channel : (loadChannels w).lookup id = some ch
  flight : settlement w id r = some s
  allocation : allocation w id r = some a
  ended : s.opened_at_ledger + ch.dispute_ledgers ≤ min U32_MAX w.sequence
  other : r ≠ env.self
  positive : 0 < dueTo s a
  covered : dueTo s a ≤ ch.collateral
  funded : dueTo s a ≤ w.balance ch.token env.self
  penalty_fits : s.closed_by_payer = true → s.opened_cumulative < s.best_cumulative →
    IsI128 (s.best_cumulative - s.opened_cumulative) ∧ IsI128 (a.amount - s.best_cumulative)
  fits : IsI128 (s.best_cumulative - a.settled) ∧ IsI128 (dueTo s a) ∧
    IsI128 (ch.allocated - a.amount) ∧ IsI128 (ch.collateral - dueTo s a) ∧
    IsI128 (ch.total_spent + dueTo s a) ∧ IsI128 (s.best_cumulative + Book.penaltyOf s a)

/-- The call is one of those that send tokens without asking the circuit breaker, and it is due. -/
def Call.Drains (env : Env) (w : State) : Call → Prop
  | .closeChannel owner id => ∃ ch, FreeDue env w owner id ch
  | .withdrawFree owner id => ∃ ch, FreeDue env w owner id ch
  | .finalize id r => ∃ ch s a, SettlementDue env w id r ch s a
  | _ => False

section

variable {env : Env} {w w' : State} {owner r : Address} {id : Nat}

theorem requireNotPaused_paused {u : Unit} (h : Paused env w) : requireNotPaused env w ≠ .ok u := by
  obtain ⟨circuit_breaker, hwired, hpaused⟩ := h
  simp only [requireNotPaused, hwired, ne_eq, Result.bind_eq_ok, invokeContract_eq_ok,
    panicIf_eq_ok]
  rintro ⟨is_paused, ⟨_, hreply⟩, hnot⟩
  exact hnot (Option.some.inj (hreply.symm.trans hpaused))

@[simp] theorem quiet_events (w : State) : w.quiet.events = [] := rfl

/-- What `close_channel` and `withdraw_free` compute when there is free collateral. -/
theorem FreeDue.computes {ch : Channel} (h : FreeDue env w owner id ch) :
    checkI128 (ch.collateral - ch.allocated) = .ok (ch.collateral - ch.allocated) ∧
      checkI128 (ch.collateral - (ch.collateral - ch.allocated)) = .ok ch.allocated ∧
      w.quiet.transfer ch.token env.self owner (ch.collateral - ch.allocated)
        = .ok (w.quiet.moved ch.token env.self owner (ch.collateral - ch.allocated)) := by
  refine ⟨checkI128_eq_ok.mpr ⟨h.fits.1, rfl⟩, ?_, ?_⟩
  · rw [sub_sub_cancel]
    exact checkI128_eq_ok.mpr ⟨h.fits.2, rfl⟩
  · exact World.transfer_eq_ok.mpr ⟨h.positive.le, h.funded, rfl⟩

theorem closeChannel_paysOut :
    (∃ w', closeChannel env w.quiet owner id = .ok w' ∧ PaysOut env.self w'.events) ↔
      ∃ ch, FreeDue env w owner id ch := by
  constructor
  · rintro ⟨w', h, hpays⟩
    simp only [closeChannel, Result.bind_eq_ok, Result.pure_eq_ok, requireAuth_eq_ok,
      panicIf_eq_ok, unwrapChannel_eq_ok, checkI128_eq_ok] at h
    obtain ⟨_, hauth, ch, hl, _, howner, _, ⟨hfits, rfl⟩, ⟨ch1, paid⟩, hpaid, hw⟩ := h
    subst hw
    split at hpaid
    · rename_i hpos
      simp only [Result.bind_eq_ok, World.transfer_eq_ok, checkI128_eq_ok, Result.pure_eq_ok]
        at hpaid
      obtain ⟨w1, ⟨_, hfunded, rfl⟩, _, ⟨hleft, rfl⟩, hpaid⟩ := hpaid
      rw [sub_sub_cancel] at hleft
      exact ⟨ch, hl, hauth, not_not.mp howner, hpos, hfunded, hfits, hleft⟩
    · cases Result.pure_eq_ok.mp hpaid
      simp at hpays
  · rintro ⟨ch, h⟩
    have hne : owner ≠ env.self := ne_self_of_authorized h.authorized
    have hauth : requireAuth env owner = .ok () := requireAuth_eq_ok.mpr h.authorized
    have hl : unwrapChannel w.quiet id = .ok ch := unwrapChannel_eq_ok.mpr h.channel
    have howner : panicIf (ch.owner ≠ owner) "not the channel owner" = .ok () :=
      panicIf_eq_ok.mpr (not_not.mpr h.owner_eq)
    obtain ⟨hfree, hleft, hsend⟩ := h.computes
    simp only [closeChannel, hauth, hl, howner, hfree, gt_iff_lt, h.positive, if_true, hsend, hleft,
      bind, Except.bind, pure, Except.pure]
    refine ⟨_, rfl, ?_⟩
    simpa [hne] using h.positive

theorem withdrawFree_paysOut :
    (∃ free w', withdrawFree env w.quiet owner id = .ok (free, w') ∧ PaysOut env.self w'.events) ↔
      ∃ ch, FreeDue env w owner id ch := by
  constructor
  · rintro ⟨free, w', h, hpays⟩
    simp only [withdrawFree, Result.bind_eq_ok, requireAuth_eq_ok, loadChannel_eq_ok,
      panicIf_eq_ok, checkI128_eq_ok] at h
    obtain ⟨_, hauth, ch, hl, _, howner, _, ⟨hfits, rfl⟩, h⟩ := h
    split at h
    · cases Result.pure_eq_ok.mp h
      simp at hpays
    · rename_i hpos
      simp only [Result.bind_eq_ok, World.transfer_eq_ok, checkI128_eq_ok] at h
      obtain ⟨w1, ⟨_, hfunded, rfl⟩, _, ⟨hleft, rfl⟩, _⟩ := h
      rw [sub_sub_cancel] at hleft
      exact ⟨ch, hl, hauth, not_not.mp howner, not_le.mp hpos, hfunded, hfits, hleft⟩
  · rintro ⟨ch, h⟩
    have hne : owner ≠ env.self := ne_self_of_authorized h.authorized
    have hauth : requireAuth env owner = .ok () := requireAuth_eq_ok.mpr h.authorized
    have hl : loadChannel w.quiet id = .ok ch := loadChannel_eq_ok.mpr h.channel
    have howner : panicIf (ch.owner ≠ owner) "not the channel owner" = .ok () :=
      panicIf_eq_ok.mpr (not_not.mpr h.owner_eq)
    obtain ⟨hfree, hleft, hsend⟩ := h.computes
    simp only [withdrawFree, hauth, hl, howner, hfree, not_le.mpr h.positive, if_false, hsend,
      hleft, bind, Except.bind, pure, Except.pure]
    refine ⟨_, _, rfl, ?_⟩
    simpa [hne] using h.positive

/-- `penaltyFor` computes the penalty if its two differences are `i128`. -/
theorem penaltyFor_eq_ok {s : Settlement} {a : Allocation} {penalty : Int} :
    penaltyFor s a = .ok penalty ↔ penalty = Book.penaltyOf s a ∧
      (s.closed_by_payer = true → s.opened_cumulative < s.best_cumulative →
        IsI128 (s.best_cumulative - s.opened_cumulative) ∧
          IsI128 (a.amount - s.best_cumulative)) := by
  constructor
  · intro h
    refine ⟨penaltyFor_ok h, fun hpayer hraised => ?_⟩
    simp only [penaltyFor, hpayer, gt_iff_lt, hraised, and_self, if_true, Result.bind_eq_ok,
      checkI128_eq_ok] at h
    obtain ⟨_, ⟨hwithheld, _⟩, _, ⟨hleft, _⟩, _⟩ := h
    exact ⟨hwithheld, hleft⟩
  · rintro ⟨rfl, hfits⟩
    unfold penaltyFor Book.penaltyOf
    split
    · rename_i hraised
      obtain ⟨hwithheld, hleft⟩ := hfits hraised.1 hraised.2
      simp only [checkI128, hwithheld, hleft, if_true, bind, Except.bind]
      rw [min_def]
      split <;> split <;> first | rfl | (congr 1; omega)
    · rfl

theorem finalize_paysOut :
    (∃ paid w', finalize env w.quiet id r = .ok (paid, w') ∧ PaysOut env.self w'.events) ↔
      ∃ ch s a, SettlementDue env w id r ch s a := by
  constructor
  · rintro ⟨paid, w', h, hpays⟩
    simp only [finalize, payOut, Result.bind_eq_ok, loadChannel_eq_ok, expect_eq_ok,
      checkU32_eq_ok, checkI128_eq_ok, panicIf_eq_ok, World.transfer_eq_ok,
      Result.pure_eq_ok] at h
    obtain ⟨ch, hl, s, hs, _, ⟨hu32, rfl⟩, _, hended, a, ha, penalty, hpenalty, w1, hpay, _, hbest,
      hw⟩ := h
    obtain ⟨rfl, hpenalty⟩ := penaltyFor_eq_ok.mp hpenalty
    obtain ⟨ch', hl', a', ha', _, ⟨howed, rfl⟩, _, ⟨hdue, rfl⟩, _, _, _, hcovered, w2,
      ⟨_, hfunded, rfl⟩, _, ⟨hallocated, rfl⟩, _, ⟨hcollateral, rfl⟩, _, ⟨hspent, rfl⟩, _,
      ⟨_, rfl⟩, rfl⟩ := hpay
    cases hl.symm.trans hl'
    cases ha.symm.trans ha'
    cases hw
    simp at hpays
    obtain ⟨hother, hpos⟩ := hpays
    exact ⟨ch, s, a, hl, hs, ha, le_min hu32 (not_lt.mp hended), hother, hpos, not_lt.mp hcovered,
      hfunded, (penaltyFor_eq_ok.mp hpenalty).2, howed, hdue, hallocated, hcollateral, hspent,
      hbest.1⟩
  · rintro ⟨ch, s, a, h⟩
    obtain ⟨howed, hdue, hallocated, hcollateral, hspent, hbest⟩ := h.fits
    have hpenalty : penaltyFor s a = .ok (Book.penaltyOf s a) :=
      penaltyFor_eq_ok.mpr ⟨rfl, h.penalty_fits⟩
    obtain ⟨hu32, hended⟩ := le_min_iff.mp h.ended
    have hl : (loadChannels w.quiet).lookup id = some ch := h.channel
    have hs : settlement w.quiet id r = some s := h.flight
    have ha : allocation w.quiet id r = some a := h.allocation
    have hpay : ∃ w1, payOut env (removeSettlement w.quiet id r) id r s.best_cumulative
        (Book.penaltyOf s a) = .ok w1 ∧ PaysOut env.self w1.events := by
      have hl' : loadChannel (removeSettlement w.quiet id r) id = .ok ch :=
        loadChannel_eq_ok.mpr h.channel
      have ha' : allocation (removeSettlement w.quiet id r) id r = some a := h.allocation
      have hsend : (removeSettlement w.quiet id r).transfer ch.token env.self r (dueTo s a)
          = .ok ((removeSettlement w.quiet id r).moved ch.token env.self r (dueTo s a)) :=
        World.transfer_eq_ok.mpr ⟨h.positive.le, h.funded, rfl⟩
      have hdue' : s.best_cumulative - a.settled + Book.penaltyOf s a = dueTo s a := rfl
      simp only [payOut, hl', ha', expect, checkI128, howed, hdue', hdue, hallocated, hcollateral,
        hspent, hbest, if_true, panicIf, not_lt.mpr h.positive.le, not_lt.mpr h.covered,
        if_false, hsend, bind, Except.bind, pure, Except.pure]
      refine ⟨_, rfl, ?_⟩
      simpa using ⟨h.other, h.positive⟩
    obtain ⟨w1, hpay, hpays⟩ := hpay
    simp only [finalize, loadChannel_eq_ok.mpr hl, hs, ha, expect, checkU32, hu32, if_true, panicIf,
      quiet_sequence, not_lt.mpr hended, if_false, hpenalty, hpay, checkI128, hbest, bind,
      Except.bind, pure, Except.pure]
    refine ⟨_, _, rfl, ?_⟩
    simpa using hpays

/-- A dispatched call that also returns a number. -/
theorem exists_map_iff {x : Result (Int × State)} {Q : State → Prop} :
    (∃ w', (Prod.snd <$> x : Result State) = .ok w' ∧ Q w') ↔ ∃ n w', x = .ok (n, w') ∧ Q w' := by
  simp only [Result.map_eq_ok, Prod.exists]
  constructor
  · rintro ⟨_, ⟨n, w', hx, rfl⟩, hQ⟩
    exact ⟨n, w', hx, hQ⟩
  · rintro ⟨n, w', hx, hQ⟩
    exact ⟨w', ⟨n, w', hx, rfl⟩, hQ⟩

/-- An admin call publishes one event or none. -/
theorem not_paysOut_of_published (h : w'.events = w.quiet.events ∨
    ∃ event, w'.events = w.quiet.events ++ [.published event]) : ¬ PaysOut env.self w'.events := by
  rcases h with h | ⟨event, h⟩
  · simp [h]
  · simp [h]

theorem paused_absurd {α : Type} {f : Unit → Result α} {x : α} (h : Paused env w)
    (hok : (requireNotPaused env w.quiet >>= f) = .ok x) : False := by
  obtain ⟨_, hnot, _⟩ := Result.bind_eq_ok.mp hok
  exact requireNotPaused_paused (w := w.quiet) h hnot

/-- **The PaymentChannel while it is paused**: a call pays out if and only if it drains. -/
theorem exec_paysOut {call : Call} (hpaused : Paused env w) :
    (∃ w', exec env w.quiet call = .ok w' ∧ PaysOut env.self w'.events) ↔ call.Drains env w := by
  cases call with
  | closeChannel owner id => exact closeChannel_paysOut
  | withdrawFree owner id =>
      rw [Call.Drains, ← withdrawFree_paysOut]
      exact exists_map_iff
  | finalize id r =>
      rw [Call.Drains, ← finalize_paysOut]
      exact exists_map_iff
  -- these ask the circuit breaker first
  | pay agent id r amount memo =>
      exact silent_iff (fun w' h _ => paused_absurd hpaused h)
  | payWithConversion agent id r amount dest_token min_received memo =>
      refine silent_iff (fun w' h _ => ?_)
      obtain ⟨_, hpay, _⟩ := Result.map_eq_ok.mp h
      exact paused_absurd hpaused hpay
  | payWithRoute agent id r amount dest_token route min_received valid_until memo =>
      refine silent_iff (fun w' h _ => ?_)
      obtain ⟨_, hpay, _⟩ := Result.map_eq_ok.mp h
      exact paused_absurd hpaused hpay
  | closeCooperative id r sequence c signature =>
      refine silent_iff (fun w' h _ => ?_)
      obtain ⟨_, hclose, _⟩ := Result.map_eq_ok.mp h
      exact paused_absurd hpaused hclose
  | closeUnilateral closer id r sequence c signature =>
      exact silent_iff (fun w' h _ => paused_absurd hpaused h)
  -- these take tokens in
  | openChannel owner agent token deposit limit period =>
      refine silent_iff (fun w' h hpays => ?_)
      obtain ⟨⟨new, w1⟩, hopen, rfl⟩ := Result.map_eq_ok.mp h
      obtain ⟨ch, next, hauth, _, _, _, _, _, _, _, hevents, rfl⟩ := openChannel_ok hopen
      have hne : owner ≠ env.self := ne_self_of_authorized hauth
      simp [hevents, hne] at hpays
  | topUp owner id amount =>
      refine silent_iff (fun w' h hpays => ?_)
      obtain ⟨ch, hauth, _, _, rfl⟩ := topUp_ok h
      have hne : owner ≠ env.self := ne_self_of_authorized hauth
      simp [hne] at hpays
  -- and these move none
  | enableVouchers owner id pk window =>
      refine silent_iff (fun w' h hpays => ?_)
      obtain ⟨ch, _, _, _, _, rfl⟩ := enableVouchers_ok h
      simp at hpays
  | allocate owner id r amount =>
      refine silent_iff (fun w' h hpays => ?_)
      obtain ⟨ch, _, _, _, _, _, rfl⟩ := allocate_ok h
      simp at hpays
  | challenge id r sequence c signature =>
      refine silent_iff (fun w' h hpays => ?_)
      simp only [exec, challenge, Result.bind_eq_ok, Result.pure_eq_ok] at h
      obtain ⟨_, _, _, _, _, _, _, _, _, _, _, _, rfl⟩ := h
      simp at hpays
  | setMultisigConfig caller owners threshold window =>
      refine silent_iff (fun w' h hpays => ?_)
      exact not_paysOut_of_published (.inr ⟨_, (setMultisigConfig_booksKept h).2⟩) hpays
  | proposeMultisigConfig owner =>
      refine silent_iff (fun w' h hpays => ?_)
      exact not_paysOut_of_published (.inr ⟨_, (propose_booksKept h).2⟩) hpays
  | proposeCircuitBreaker owner circuit_breaker =>
      refine silent_iff (fun w' h hpays => ?_)
      exact not_paysOut_of_published (.inr ⟨_, (propose_booksKept h).2⟩) hpays
  | setCircuitBreaker admin circuit_breaker =>
      refine silent_iff (fun w' h hpays => ?_)
      exact not_paysOut_of_published (.inl (setWiredContract_booksKept h).2) hpays
  | proposePriceOracle owner price_oracle =>
      refine silent_iff (fun w' h hpays => ?_)
      exact not_paysOut_of_published (.inr ⟨_, (propose_booksKept h).2⟩) hpays
  | setPriceOracle admin price_oracle =>
      refine silent_iff (fun w' h hpays => ?_)
      exact not_paysOut_of_published (.inl (setWiredContract_booksKept h).2) hpays
  | proposeAmm owner amm =>
      refine silent_iff (fun w' h hpays => ?_)
      exact not_paysOut_of_published (.inr ⟨_, (propose_booksKept h).2⟩) hpays
  | setAmm admin amm =>
      refine silent_iff (fun w' h hpays => ?_)
      exact not_paysOut_of_published (.inl (setWiredContract_booksKept h).2) hpays
  | proposeSolvencyVk owner vk =>
      refine silent_iff (fun w' h hpays => ?_)
      exact not_paysOut_of_published (.inr ⟨_, (proposeSolvencyVk_booksKept h).2⟩) hpays
  | setSolvencyVk admin vk =>
      refine silent_iff (fun w' h hpays => ?_)
      exact not_paysOut_of_published (.inl (setSolvencyVk_booksKept h).2) hpays

end

end StellarAgent.PaymentChannel

/-! ## Escrow -/

namespace StellarAgent.Escrow

open Lib Soroban

/-- The wired circuit breaker reports that the system is paused. -/
def Paused (env : Env) (w : State) : Prop :=
  ∃ circuit_breaker, w.storage.cb = some circuit_breaker ∧
    env.is_paused circuit_breaker = some true

/-- The requester asks for the payment of a live job back, and has waited for its deadline. -/
structure RefundDue (env : Env) (w : State) (requester : Address) (id : Nat) (job : Job) :
    Prop where
  stored : (jobs w).lookup id = some job
  authorized : env.authorized requester = true
  requester_eq : job.requester = requester
  live : job.Live
  disputed : job.status = .Disputed →
    ∃ dispute_deadline, job.dispute_deadline_ledger = some dispute_deadline ∧
      dispute_deadline < w.sequence
  taken : job.status ≠ .Disputed → job.status ≠ .Open → job.deadline_ledger ≤ w.sequence
  positive : 0 < job.amount
  funded : job.amount ≤ w.balance job.token env.self

def Call.Drains (env : Env) (w : State) : Call → Prop
  | .refund requester id => ∃ job, RefundDue env w requester id job
  | _ => False

section

variable {env : Env} {w : State} {requester : Address} {id : Nat}

theorem requireDeadline_eq_ok {job : Job} {u : Unit} :
    requireDeadline w job = .ok u ↔
      (job.status = .Disputed → ∃ dispute_deadline,
        job.dispute_deadline_ledger = some dispute_deadline ∧ dispute_deadline < w.sequence) ∧
      (job.status ≠ .Disputed → job.status ≠ .Open → job.deadline_ledger ≤ w.sequence) := by
  unfold requireDeadline
  by_cases hdisputed : job.status = .Disputed
  · simp [hdisputed]
  · rw [if_neg hdisputed, panicIf_eq_ok]
    simp only [hdisputed, not_false_iff, forall_const, false_imp_iff, true_and, ne_eq]
    constructor
    · intro h hopen
      exact not_lt.mp fun hlt => h ⟨hlt, hopen⟩
    · rintro h ⟨hlt, hopen⟩
      exact absurd (h hopen) (not_le.mpr hlt)

theorem refund_paysOut :
    (∃ w', refund env w.quiet requester id = .ok w' ∧ PaysOut env.self w'.events) ↔
      ∃ job, RefundDue env w requester id job := by
  constructor
  · rintro ⟨w', h, hpays⟩
    simp only [refund, Result.bind_eq_ok, requireAuth_eq_ok, loadJob_eq_ok, panicIf_eq_ok,
      World.transfer_eq_ok, Result.pure_eq_ok, not_not] at h
    obtain ⟨_, hauth, job, hjob, _, hrequester, _, hrefundable, _, hdeadline, _, ⟨_, hfunded, rfl⟩,
      rfl⟩ := h
    obtain ⟨hdisputed, htaken⟩ := requireDeadline_eq_ok.mp hdeadline
    have hpos : 0 < job.amount := by
      simp [announce, saveJob] at hpays
      exact hpays.2
    exact ⟨job, hjob, hauth, hrequester, refundable_live hrefundable, hdisputed, htaken, hpos,
      hfunded⟩
  · rintro ⟨job, h⟩
    have hne : requester ≠ env.self := ne_self_of_authorized h.authorized
    have hauth : requireAuth env requester = .ok () := requireAuth_eq_ok.mpr h.authorized
    have hjob : loadJob w.quiet id = .ok job := loadJob_eq_ok.mpr h.stored
    have hrefundable : refundable job = true := decide_eq_true h.live
    have hdeadline : requireDeadline w.quiet job = .ok () :=
      requireDeadline_eq_ok.mpr ⟨h.disputed, h.taken⟩
    have hsend : w.quiet.transfer job.token env.self requester job.amount
        = .ok (w.quiet.moved job.token env.self requester job.amount) :=
      World.transfer_eq_ok.mpr ⟨h.positive.le, h.funded, rfl⟩
    simp only [refund, hauth, hjob, h.requester_eq, ne_eq, not_true_eq_false, panicIf, if_false,
      hrefundable, Bool.true_eq_false, hdeadline, hsend, bind, Except.bind, pure, Except.pure]
    refine ⟨_, rfl, ?_⟩
    simpa [announce, saveJob, hne] using h.positive

theorem paused_absurd {α : Type} {f : Unit → Result α} {x : α} (h : Paused env w)
    (hok : (requireNotPaused env w.quiet >>= f) = .ok x) : False := by
  obtain ⟨circuit_breaker, hwired, hpaused⟩ := h
  simp only [requireNotPaused, World.quiet_storage, hwired, Result.bind_eq_ok,
    invokeContract_eq_ok, panicIf_eq_ok] at hok
  obtain ⟨_, ⟨is_paused, ⟨_, hreply⟩, hnot⟩, _⟩ := hok
  exact hnot (Option.some.inj (hreply.symm.trans hpaused))

/-- **The escrow while it is paused**: a call pays out if and only if it drains. -/
theorem exec_paysOut {call : Call} (hpaused : Paused env w) :
    (∃ w', exec env w.quiet call = .ok w' ∧ PaysOut env.self w'.events) ↔ call.Drains env w := by
  cases call with
  | refund requester id => exact refund_paysOut
  -- these ask the circuit breaker first
  | release releaser id => exact silent_iff (fun w' h _ => paused_absurd hpaused h)
  | resolveDispute arbiter id favor_worker =>
      exact silent_iff (fun w' h _ => paused_absurd hpaused h)
  -- this takes tokens in
  | createJob requester token amount task_description deadline_ledger arbiter =>
      refine silent_iff (fun w' h hpays => ?_)
      simp only [exec, createJob, nextId, Result.map_eq_ok, Result.bind_eq_ok, requireAuth_eq_ok,
        panicIf_eq_ok, World.transfer_eq_ok, checkU64_eq_ok, Result.pure_eq_ok] at h
      obtain ⟨_, ⟨_, hauth, _, _, _, _, w1, ⟨_, _, rfl⟩, _, ⟨_, _, rfl⟩, rfl⟩, rfl⟩ := h
      have hne : requester ≠ env.self := ne_self_of_authorized hauth
      simp [announce, saveJob, hne] at hpays
  -- and these move none
  | acceptJob worker id =>
      refine silent_iff (fun w' h hpays => ?_)
      simp only [exec, acceptJob, Result.bind_eq_ok, Result.pure_eq_ok] at h
      obtain ⟨_, _, job, _, _, _, _, _, rfl⟩ := h
      simp [announce, saveJob] at hpays
  | submitResult worker id result =>
      refine silent_iff (fun w' h hpays => ?_)
      simp only [exec, submitResult, Result.bind_eq_ok, Result.pure_eq_ok] at h
      obtain ⟨_, _, job, _, _, _, _, _, _, _, rfl⟩ := h
      simp [announce, saveJob] at hpays
  | dispute requester id =>
      refine silent_iff (fun w' h hpays => ?_)
      simp only [exec, dispute, Result.bind_eq_ok, Result.pure_eq_ok] at h
      obtain ⟨_, _, job, _, _, _, _, _, _, _, _, _, rfl⟩ := h
      simp [announce, saveJob] at hpays
  | setMultisigConfig caller owners threshold window =>
      refine silent_iff (fun w' h hpays => ?_)
      simp only [exec, setMultisigConfig, Result.bind_eq_ok, Result.pure_eq_ok] at h
      obtain ⟨_, _, _, _, _, _, _, _, m, hgate, rfl⟩ := h
      simp [(configGate_ok hgate).events_eq] at hpays
  | proposeCircuitBreaker owner circuit_breaker =>
      refine silent_iff (fun w' h hpays => ?_)
      simp only [exec, proposeCircuitBreaker, Result.bind_eq_ok, Result.pure_eq_ok] at h
      obtain ⟨_, _, _, _, rfl⟩ := h
      simp [setCbProposals] at hpays
  | setCircuitBreaker admin circuit_breaker =>
      refine silent_iff (fun w' h hpays => ?_)
      simp only [exec, setCircuitBreaker, Result.bind_eq_ok, Result.pure_eq_ok] at h
      obtain ⟨_, _, m, hgate, rfl⟩ := h
      simp [(breakerGate_ok hgate).events_eq] at hpays

end

end StellarAgent.Escrow

/-! ## Both contracts -/

namespace StellarAgent

open Soroban

/-- **The emergency stop.** While the wired circuit breaker reports paused, a call of the
PaymentChannel or of the escrow sends no tokens out if and only if it does not drain. -/
theorem emergency_stop (env : Env) :
    (∀ (w : PaymentChannel.State) (call : PaymentChannel.Call), PaymentChannel.Paused env w →
      ((∀ w', PaymentChannel.exec env w.quiet call = .ok w' → ¬ PaysOut env.self w'.events) ↔
        ¬ call.Drains env w)) ∧
    (∀ (w : Escrow.State) (call : Escrow.Call), Escrow.Paused env w →
      ((∀ w', Escrow.exec env w.quiet call = .ok w' → ¬ PaysOut env.self w'.events) ↔
        ¬ call.Drains env w)) := by
  constructor
  · intro w call hpaused
    rw [← PaymentChannel.exec_paysOut hpaused, not_exists]
    simp only [not_and]
  · intro w call hpaused
    rw [← Escrow.exec_paysOut hpaused, not_exists]
    simp only [not_and]

/-! ## Payments while paused -/

namespace EmergencyStop

/-- A funded channel, with a circuit breaker wired. -/
def channelWorld : PaymentChannel.State :=
  open PaymentChannel.Scenario in
  outcome [
    .invoke [owner] honestSwap (.openChannel owner agent usdc 300 100 .Daily),
    .invoke [owner] honestSwap (.setCircuitBreaker owner venue)]

/-- A call of the channel's owner while the circuit breaker reports paused. -/
def pausedOwner : Env :=
  open PaymentChannel.Scenario in
  { callBy [owner] honestSwap with is_paused := fun _ => some true }

/-- An open job, with a circuit breaker wired. -/
def jobWorld : Escrow.State :=
  open LocalNet in
  Escrow.escrow.outcome (start Escrow.Event Escrow.Storage.fresh) [
    signed [account 1] (.createJob (account 1) token 100 [] 500 none),
    signed [account 1] (.setCircuitBreaker (account 1) breaker)]

/-- A call of the requester while the circuit breaker reports paused. -/
def pausedRequester : Env := LocalNet.callBy [LocalNet.account 1] true

def withdraws : PaymentChannel.Call := .withdrawFree PaymentChannel.Scenario.owner 1

def refunds : Escrow.Call := .refund (LocalNet.account 1) 1

end EmergencyStop

open EmergencyStop

/-- The owner takes the free collateral out, and the requester the payment of the open job. -/
theorem paused_contracts_pay_out :
    (¬ ∀ (env : Env) (w : PaymentChannel.State) (call : PaymentChannel.Call),
      PaymentChannel.Paused env w → ∀ w', PaymentChannel.exec env w.quiet call = .ok w' →
        ¬ PaysOut env.self w'.events) ∧
    (¬ ∀ (env : Env) (w : Escrow.State) (call : Escrow.Call),
      Escrow.Paused env w → ∀ w', Escrow.exec env w.quiet call = .ok w' →
        ¬ PaysOut env.self w'.events) := by
  constructor
  · intro h
    have hexec : PaymentChannel.exec pausedOwner channelWorld.quiet withdraws
        = .ok (PaymentChannel.paymentChannel.next channelWorld (.invoke pausedOwner withdraws)) :=
      PaymentChannel.paymentChannel.exec_next channelWorld pausedOwner withdraws (by decide +kernel)
    have hpaused : PaymentChannel.Paused pausedOwner channelWorld :=
      ⟨PaymentChannel.Scenario.venue, by decide +kernel, rfl⟩
    exact h _ _ _ hpaused _ hexec (by decide +kernel)
  · intro h
    have hexec : Escrow.exec pausedRequester jobWorld.quiet refunds
        = .ok (Escrow.escrow.next jobWorld (.invoke pausedRequester refunds)) :=
      Escrow.escrow.exec_next jobWorld pausedRequester refunds (by decide +kernel)
    have hpaused : Escrow.Paused pausedRequester jobWorld :=
      ⟨LocalNet.breaker, by decide +kernel, rfl⟩
    exact h _ _ _ hpaused _ hexec (by decide +kernel)

theorem emergency_stop_gated :
    (∀ w', PaymentChannel.exec pausedOwner channelWorld.quiet
        (.topUp PaymentChannel.Scenario.owner 1 50) = .ok w' →
      ¬ PaysOut pausedOwner.self w'.events) ∧
    (∀ w', Escrow.exec pausedRequester jobWorld.quiet
        (.release (LocalNet.account 1) 1) = .ok w' →
      ¬ PaysOut pausedRequester.self w'.events) :=
  ⟨((emergency_stop pausedOwner).1 channelWorld _
      ⟨PaymentChannel.Scenario.venue, by decide +kernel, rfl⟩).mpr id,
    ((emergency_stop pausedRequester).2 jobWorld _
      ⟨LocalNet.breaker, by decide +kernel, rfl⟩).mpr id⟩

end StellarAgent
