import StellarAgent.PaymentChannel.Refinement
import StellarAgent.PaymentChannel.Scenario

set_option autoImplicit false

/-! # The challenge window of a close in flight

The settlement record remembers the ledger at which a close was opened; how long it can be
challenged is read from the channel on every call, and `enable_vouchers` may rewrite it there. As
long as no such call shortens the window, the close stays in flight until its window has run
out, and can be challenged until then (`window_holds`).
-/

namespace StellarAgent.PaymentChannel

open Lib Soroban

/-! ## A close in flight through the operations of the book -/

/-- A close of `(id, r)` is in flight since ledger `o`, with a window of at least `D`. -/
def Book.InFlight (b : Book) (id : Nat) (r : Address) (o D : Nat) : Prop :=
  ∃ ch s, b.channels.lookup id = some ch ∧ b.settlements.lookup (id, r) = some s ∧
    s.opened_at_ledger = o ∧ D ≤ ch.dispute_ledgers

/-- **One operation.** Before the window is over nothing but a shorter window can end a close
in flight. -/
theorem Book.Step.inFlight {V : BytesN 32 → Claim → Prop} {b b' : Book} {op : BookOp} {id o D : Nat}
    {r : Address} (h : Step V b op b') (hinv : b.Inv) (hflight : b.InFlight id r o D)
    (hearly : b.ledger < o + D)
    (hkeeps : ∀ pk window, op = .enabled id pk window → D ≤ window) : b'.InFlight id r o D := by
  obtain ⟨ch, s, hl, hs, ho, hD⟩ := hflight
  have hsettle : ∀ v penalty, op = .settled v penalty → v.key ≠ (id, r) := by
    rintro v penalty rfl hkey
    obtain ⟨rfl, rfl⟩ := Prod.mk.inj hkey
    have := h.settled_late hs hl
    omega
  obtain ⟨ch', hl', hstep⟩ := h.channel_step hinv hl
  have hD' : D ≤ ch'.dispute_ledgers := by
    by_cases henabled : ∃ pk window, op = .enabled id pk window
    · obtain ⟨pk, window, hop⟩ := henabled
      rw [(hstep.enabled pk window hop).1]
      exact hkeeps pk window hop
    · rw [(hstep.terms (fun pk window hop => henabled ⟨pk, window, hop⟩)).1]
      exact hD
  rcases h.settlement_cases hs hsettle with hsame | ⟨v, _, _, _, hraised⟩
  · exact ⟨ch', s, hl', hsame, ho, hD'⟩
  · exact ⟨ch', _, hl', hraised, ho, hD'⟩

/-! ## What the contract checks -/

section

variable {env : Env} {w w' : State} {id : Nat} {r : Address}

/-- `challenge` gives this refusal only when the window has run out. -/
theorem challenge_closed {sequence : Nat} {c : Int} {signature : BytesN 64}
    (h : challenge env w id r sequence c signature
      = .error (.msg "the challenge window has closed")) :
    ∃ ch s, (book w).channels.lookup id = some ch ∧ settlement w id r = some s ∧
      s.opened_at_ledger + ch.dispute_ledgers ≤ w.sequence := by
  simp only [challenge, loadChannel, verifyVoucher, Result.bind_eq_error, expect_eq_error,
    expect_eq_ok, panicIf_eq_error, checkU32_eq_error, checkU32_eq_ok, panicIf_eq_ok,
    Result.pure_eq_error, Panic.msg.injEq, String.reduceEq, reduceCtorEq, and_false, false_or,
    or_false, exists_false] at h
  obtain ⟨ch, hl, hverify | ⟨_, _, s, hs, _, ⟨_, rfl⟩, hclosed, _⟩⟩ := h
  · obtain ⟨_, _, _, _, _, _, _, _, _, _, hsignature⟩ := hverify
    cases requireValidSignature_eq_error hsignature
  · exact ⟨ch, s, hl, hs, hclosed⟩

/-- The window of the close of `(id, r)` has not run out in `w`: no call can finalize it, and no
challenge comes too late. -/
def StillOpen (w : State) (id : Nat) (r : Address) : Prop :=
  (∀ env w', exec env w.quiet (.finalize id r) ≠ .ok w') ∧
    ∀ env sequence c signature, exec env w.quiet (.challenge id r sequence c signature)
      ≠ .error (.msg "the challenge window has closed")

theorem stillOpen_of_inFlight {o D : Nat} (h : (book w).InFlight id r o D)
    (hearly : w.sequence < o + D) : StillOpen w id r := by
  obtain ⟨ch, s, hl, hs, ho, hD⟩ := h
  constructor
  · intro env w' hexec
    obtain ⟨⟨paid, w1⟩, hfinal, _⟩ := Result.map_eq_ok.mp hexec
    obtain ⟨ch', s', a, next, hl', hs', _, _, hended, _, _⟩ := finalize_ok hfinal
    cases hl.symm.trans hl'
    cases hs.symm.trans hs'
    rw [quiet_sequence] at hended
    omega
  · intro env sequence c signature hrefused
    obtain ⟨ch', s', hl', hs', hended⟩ := challenge_closed hrefused
    cases hl.symm.trans hl'
    cases hs.symm.trans hs'
    rw [quiet_sequence] at hended
    omega

end

/-! ## Runs -/

/-- The transaction opens a close of `(id, r)` at ledger `o`, while the channel's window is `D`
ledgers. -/
structure OpensClose (t : Tx) (id : Nat) (r : Address) (o D : Nat) : Prop where
  calls : ∃ env closer sequence c signature,
    t.Calls env (.closeUnilateral closer id r sequence c signature)
  ledger : t.pre.sequence = o
  window : ∃ ch, (loadChannels t.pre).lookup id = some ch ∧ ch.dispute_ledgers = D

/-- The transaction does not shorten the window of channel `id` below `D` before ledger `last`. -/
def KeepsWindow (id last D : Nat) (t : Tx) : Prop :=
  ∀ env owner pk window, t.Calls env (.enableVouchers owner id pk window) →
    t.pre.sequence < last → D ≤ window

section

variable {P : Platform} {d : Deployment} {w w' : State} {a : Action Call} {id o D : Nat}
  {r : Address}

/-- Only `enable_vouchers` reports that vouchers were enabled. -/
theorem Refines.enabled_calls {pk : BytesN 32} {window : Nat} (hst : Step P d w a w')
    (h : Refines P d w a w') (hop : opOf a w'.events = .enabled id pk window) :
    ∃ env owner, Tx.Calls ⟨w, a, w'⟩ env (.enableVouchers owner id pk window) := by
  obtain ⟨env, call, rfl, _, hcalls⟩ := step_called hst (by rw [hop]; nofun)
  have hreported := h.reported
  rw [hop] at hreported
  cases call with
  | enableVouchers owner id' pk' window' =>
      obtain ⟨rfl, rfl, rfl⟩ := hreported
      exact ⟨env, owner, hcalls⟩
  | _ => exact hreported.elim

theorem step_sequence_le (hinv : (book w).Inv) (h : Step P d w a w') :
    w.sequence ≤ w'.sequence := (step_refines hinv h).step.ledger_le

/-- The close that a transaction has opened is in flight. -/
theorem OpensClose.inFlight {t : Tx} (hclose : OpensClose t id r o D)
    (hst : Step P d t.pre t.act t.post) : (book t.post).InFlight id r o D := by
  obtain ⟨env, closer, sequence, c, signature, hact, hexec⟩ := hclose.calls
  obtain ⟨ch, hl, hD⟩ := hclose.window
  have hallowed := hst.1
  rw [hact] at hallowed
  obtain ⟨_, _, htyped⟩ := hallowed
  obtain ⟨ch', _, _, _, hpost⟩ :=
    closeUnilateral_ok (v := ⟨id, r, sequence, c⟩) hexec ⟨htyped.1, htyped.2.2⟩
  rw [hpost, book_publish, book_persistSettlement]
  exact ⟨ch, _, hl, Finmap.lookup_insert _, hclose.ledger, hD.ge⟩

/-- **The window of a close.** After a close was opened at ledger `o` with a window of `D`, in
every run whose calls of `enable_vouchers` do not shorten it, the window is open until ledger
`o + D`. -/
theorem window_holds {w0 : State} {before after : List Tx} {t : Tx} (h0 : Genesis w0)
    (h : Runs P d w0 (before ++ t :: after) w) (hclose : OpensClose t id r o D)
    (hkeeps : ∀ x ∈ after, KeepsWindow id (o + D) D x) (hearly : w.sequence < o + D) :
    StillOpen w id r := by
  obtain ⟨hbefore, hst, hafter⟩ := Run.around h
  have hinv : (book t.pre).Inv := (Runs.refines hbefore (genesis_inv h0)).2
  have hinv' : (book t.post).Inv := hinv.step (step_refines hinv hst).step
  -- by the history since the close: as long as it is early, the close is in flight
  suffices hflight : w.sequence < o + D → (book w).InFlight id r o D from
    stillOpen_of_inFlight (hflight hearly) hearly
  refine Runs.history_of (Q := fun _ w => w.sequence < o + D → (book w).InFlight id r o D) hafter
    hkeeps hinv' (fun _ => hclose.inFlight hst)
    (fun after m a m' hI ih hstep hrefines hkeep hlate => ?_)
  have hm : m.sequence < o + D := (step_sequence_le hI hstep).trans_lt hlate
  refine hrefines.step.inFlight hI (ih hm) hm (fun pk window hop => ?_)
  obtain ⟨env, owner, hcalls⟩ := hrefines.enabled_calls hstep hop
  exact hkeep env owner pk window hcalls hm

end

/-! ## A shortened window -/

section

open Scenario

/-- A channel with the default window of 17280 ledgers and 100 reserved. -/
def defaultWindow : List Move := [
  .invoke [owner] honestSwap (.openChannel owner agent usdc 200 100 .Daily),
  .invoke [owner] honestSwap (.enableVouchers owner 1 voucherKey 17280),
  .invoke [owner] honestSwap (.allocate owner 1 recipient 100)]

/-- The agent closes with a stale voucher. -/
def staleClose : Move :=
  .invoke [agent] honestSwap (.closeUnilateral agent 1 recipient 1 20 signature20)

/-- The owner rewrites the window, and 720 ledgers pass. -/
def rewriteWindow (window : Nat) : List Move := [
  .invoke [owner] honestSwap (.enableVouchers owner 1 voucherKey window),
  .wait 720]

/-- The close returns, at ledger 100 and with the default window. -/
theorem staleClose_executed :
    (exec (callBy [agent] honestSwap) (outcome defaultWindow).quiet
        (.closeUnilateral agent 1 recipient 1 20 signature20)).isOk = true ∧
      (outcome defaultWindow).sequence = 100 ∧
      ((loadChannels (outcome defaultWindow)).lookup 1).map Channel.dispute_ledgers
        = some 17280 := by decide +kernel

/-- The script with the short window is legal, it ends before the window of the close, and
`finalize` returns after it. -/
theorem shortened_executed :
    legal start (defaultWindow ++ staleClose :: rewriteWindow 720) = true ∧
      (outcome (defaultWindow ++ staleClose :: rewriteWindow 720)).sequence < 100 + 17280 ∧
      (exec (callBy [] honestSwap)
        (outcome (defaultWindow ++ staleClose :: rewriteWindow 720)).quiet
        (.finalize 1 recipient)).isOk = true := by decide +kernel

theorem staleClose_opens : OpensClose (txAfter defaultWindow staleClose) 1 recipient 100 17280 where
  calls := ⟨_, _, _, _, _, txAfter_calls staleClose_executed.1⟩
  ledger := staleClose_executed.2.1
  window := Option.map_eq_some_iff.mp staleClose_executed.2.2

/-- The window is cut from 17280 to 720 ledgers while the close is in flight, and the stale
close is finalized after 720. -/
theorem shortened_window_finalizes :
    ¬ ∀ (P : Platform) (d : Deployment) (w0 w : State) (before after : List Tx) (t : Tx)
      (id : Nat) (r : Address) (o D : Nat), Genesis w0 →
      Runs P d w0 (before ++ t :: after) w → OpensClose t id r o D →
      w.sequence < o + D → StillOpen w id r := by
  intro h
  obtain ⟨hlegal, hearly, hok⟩ := shortened_executed
  obtain ⟨hfinal, _⟩ := h testnet deployed start _ _ _ _ 1 recipient 100 17280 start_genesis
    (script_runs_split defaultWindow staleClose (rewriteWindow 720) hlegal)
    staleClose_opens hearly
  obtain ⟨w', hexec⟩ := Result.exists_of_isOk hok
  exact hfinal _ w' hexec

theorem lengthened_executed :
    legal start (defaultWindow ++ staleClose :: rewriteWindow 20000) = true ∧
      (outcome (defaultWindow ++ staleClose :: rewriteWindow 20000)).sequence < 100 + 17280 := by
  decide +kernel

theorem window_holds_lengthened :
    StillOpen (outcome (defaultWindow ++ staleClose :: rewriteWindow 20000)) 1 recipient := by
  obtain ⟨hlegal, hearly⟩ := lengthened_executed
  refine window_holds start_genesis
    (script_runs_split defaultWindow staleClose (rewriteWindow 20000) hlegal)
    staleClose_opens ?_ hearly
  intro x hx env owner pk window hcalls _
  rcases List.mem_cons.mp hx with rfl | hx
  · cases hcalls.1
    decide
  · rcases List.mem_cons.mp hx with rfl | hx
    · cases hcalls.1
    · cases hx

end

end StellarAgent.PaymentChannel
