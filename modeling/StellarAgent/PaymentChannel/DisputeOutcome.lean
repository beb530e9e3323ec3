import StellarAgent.PaymentChannel.ChallengeWindow
import StellarAgent.PaymentChannel.Payout

set_option autoImplicit false

/-! # How a dispute ends

From the close that opens a dispute to the call that finalizes it, the settlement record holds the
greatest amount among the voucher it was opened with and the correctly signed vouchers submitted
in the window (`DisputeState`, kept by every transaction). The outcome of the dispute,
`dispute_outcome`, is read off that record.
-/

namespace StellarAgent.PaymentChannel

open Lib Soroban

/-! ## Disputes -/

/-- What a dispute is about: the pair; the channel record, the reservation and the ledger when it
was opened; the amount it was opened with; and whether the payer's side opened it. -/
structure Dispute where
  id : Nat
  recipient : Address
  channel : Channel
  reservation : Allocation
  opened_at : Nat
  opened_with : Int
  by_payer : Bool

namespace Dispute

/-- The transaction opens the dispute with a unilateral close. -/
def Opens (D : Dispute) (t : Tx) : Prop :=
  ∃ env closer sequence signature,
    t.Calls env (.closeUnilateral closer D.id D.recipient sequence D.opened_with signature) ∧
    (loadChannels t.pre).lookup D.id = some D.channel ∧
    allocation t.pre D.id D.recipient = some D.reservation ∧ t.pre.sequence = D.opened_at ∧
    D.by_payer = decide (closer = D.channel.owner ∨ closer = D.channel.agent)

/-- The transaction, successful or not, submits a voucher over `c` to the dispute: correctly
signed, above what was settled and within the reservation, and inside the window. -/
def Submits (D : Dispute) (c : Int) (x : Tx) : Prop :=
  ∃ env sequence signature pk,
    x.act = .invoke env (.challenge D.id D.recipient sequence c signature) ∧
    D.channel.voucher_signer = some pk ∧
    env.platform.ed25519_verify pk (preimage env.platform env.contract D.id D.recipient sequence c)
      signature = true ∧
    D.reservation.settled < c ∧ c ≤ D.reservation.amount ∧
    x.pre.sequence < D.opened_at + D.channel.dispute_ledgers

/-- The amounts submitted in a history. -/
def submissions (D : Dispute) (tr : List Tx) : Set Int := { c | ∃ x ∈ tr, D.Submits c x }

/-- Window and key of a channel are the same in both records. -/
def SameTerms (ch ch' : Channel) : Prop :=
  ch'.dispute_ledgers = ch.dispute_ledgers ∧ ch'.voucher_signer = ch.voucher_signer

/-- The transaction is no part of another dispute or channel setting: it neither settles the pair
nor changes window or key of the channel. -/
def Undisturbed (D : Dispute) (x : Tx) : Prop :=
  ¬ x.Settles (D.id, D.recipient) ∧
    ∀ env owner pk window, ¬ x.Calls env (.enableVouchers owner D.id pk window)

/-- The state of a dispute after the history `tr` since its opening. -/
structure Holds (D : Dispute) (tr : List Tx) (w : State) : Prop where
  terms : ∃ ch, (book w).channels.lookup D.id = some ch ∧ SameTerms D.channel ch
  reserved : allocation w D.id D.recipient = some D.reservation
  flight : ∃ s, settlement w D.id D.recipient = some s ∧ s.opened_at_ledger = D.opened_at ∧
    s.opened_cumulative = D.opened_with ∧ s.closed_by_payer = D.by_payer ∧
    (D.opened_at + D.channel.dispute_ledgers ≤ U32_MAX →
      IsGreatest (insert D.opened_with (D.submissions tr)) s.best_cumulative)

theorem submissions_nil (D : Dispute) : D.submissions [] = ∅ := by
  simp [submissions]

theorem submissions_append (D : Dispute) (tr : List Tx) (x : Tx) :
    D.submissions (tr ++ [x]) = D.submissions tr ∪ { c | D.Submits c x } := by
  ext c
  simp [submissions, or_and_right, exists_or]

/-- A transaction that submits nothing better leaves the greatest amount where it is. -/
theorem isGreatest_keep {D : Dispute} {tr : List Tx} {x : Tx} {best : Int}
    (h : IsGreatest (insert D.opened_with (D.submissions tr)) best)
    (hle : ∀ c, D.Submits c x → c ≤ best) :
    IsGreatest (insert D.opened_with (D.submissions (tr ++ [x]))) best := by
  rw [submissions_append]
  constructor
  · rcases h.1 with heq | hmem
    · exact .inl heq
    · exact .inr (.inl hmem)
  · rintro c (heq | hmem | hmem)
    · exact h.2 (.inl heq)
    · exact h.2 (.inr hmem)
    · exact hle c hmem

/-- A transaction that submits a better voucher. -/
theorem isGreatest_raise {D : Dispute} {tr : List Tx} {x : Tx} {best c : Int}
    (h : IsGreatest (insert D.opened_with (D.submissions tr)) best) (hlt : best < c)
    (hsubmits : D.Submits c x) :
    IsGreatest (insert D.opened_with (D.submissions (tr ++ [x]))) c := by
  rw [submissions_append]
  refine ⟨.inr (.inr hsubmits), ?_⟩
  rintro c' (heq | hmem | hmem)
  · exact (h.2 (.inl heq)).trans hlt.le
  · exact (h.2 (.inr hmem)).trans hlt.le
  · obtain ⟨_, _, _, _, hact, _⟩ := hsubmits
    obtain ⟨_, _, _, _, hact', _⟩ := hmem
    rw [hact] at hact'
    cases hact'
    exact le_rfl

end Dispute

section

variable {P : Platform} {d : Deployment} {env : Env} {w w' : State} {id : Nat} {r : Address}

/-- Every better voucher that passes the checks inside the window is accepted. -/
theorem challenge_succeeds {ch : Channel} {s : Settlement} {sequence : Nat} {c : Int}
    {signature : BytesN 64} {u : Unit} (hl : (book w).channels.lookup id = some ch)
    (hverify : verifyVoucher env w ch id r sequence c signature = .ok u)
    (hs : settlement w id r = some s)
    (hu32 : s.opened_at_ledger + ch.dispute_ledgers ≤ U32_MAX)
    (hopen : w.sequence < s.opened_at_ledger + ch.dispute_ledgers)
    (hbetter : s.best_cumulative < c) :
    challenge env w id r sequence c signature = .ok ((persistSettlement w id r
      { s with best_sequence := sequence, best_cumulative := c }).publish
        (.challenge id r sequence c)) := by
  simp only [challenge, Result.bind_eq_ok, loadChannel_eq_ok, expect_eq_ok, checkU32_eq_ok,
    panicIf_eq_ok, Result.pure_eq_ok]
  refine ⟨ch, hl, u, hverify, s, hs, _, ⟨hu32, rfl⟩, (), not_le.mpr hopen, (), ?_, rfl⟩
  simp [supersedes, hbetter]

/-- An accepted challenge passed the checks of `verify_voucher` with its own signature. -/
theorem challenge_verified {sequence : Nat} {c : Int} {signature : BytesN 64}
    (h : challenge env w id r sequence c signature = .ok w') :
    ∃ ch s, (book w).channels.lookup id = some ch ∧ settlement w id r = some s ∧
      verifyVoucher env w ch id r sequence c signature = .ok () ∧
      w.sequence < s.opened_at_ledger + ch.dispute_ledgers := by
  simp only [challenge, Result.bind_eq_ok, loadChannel_eq_ok, expect_eq_ok, checkU32_eq_ok,
    panicIf_eq_ok] at h
  obtain ⟨ch, hl, _, hverify, s, hs, _, ⟨_, rfl⟩, _, hopen, _⟩ := h
  exact ⟨ch, s, hl, hs, hverify, not_le.mp hopen⟩

/-- Only `challenge` reports that a close was raised. -/
theorem Refines.raised_calls {a : Action Call} {v : Claim} (hst : Step P d w a w')
    (h : Refines P d w a w') (hop : opOf a w'.events = .raised v) :
    ∃ env signature, Tx.Calls ⟨w, a, w'⟩ env
      (.challenge v.channel_id v.recipient v.sequence v.cumulative_amount signature) := by
  obtain ⟨env, call, rfl, _, hcalls⟩ := step_called hst (by rw [hop]; nofun)
  have hreported := h.reported
  rw [hop] at hreported
  cases call with
  | challenge id r sequence c signature =>
      obtain rfl := hreported
      exact ⟨env, signature, hcalls⟩
  | _ => exact hreported.elim

namespace Dispute

variable {D : Dispute} {tr : List Tx} {a : Action Call} {ch : Channel} {s : Settlement}

/-- If a submission does not move the record, it is no better than the best. -/
theorem submits_le (hinv : (book w).Inv) (hst : Step P d w a w')
    (hl : (book w).channels.lookup D.id = some ch) (hterms : SameTerms D.channel ch)
    (hreserved : allocation w D.id D.recipient = some D.reservation)
    (hs : settlement w D.id D.recipient = some s) (hat : s.opened_at_ledger = D.opened_at)
    (hu32 : D.opened_at + D.channel.dispute_ledgers ≤ U32_MAX)
    (hsame : settlement w' D.id D.recipient = some s) {c : Int}
    (hsubmits : D.Submits c ⟨w, a, w'⟩) : c ≤ s.best_cumulative := by
  by_contra hlt
  obtain ⟨env, sequence, signature, pk, hact, hpk, hsig, hfresh, hcovered, hopen⟩ := hsubmits
  obtain ⟨hwindow, hsigner⟩ := hterms
  have hsettled := (hinv.amounts (D.id, D.recipient) _ hreserved).2
  -- a better submission would have passed every check, so the record would have moved
  have hverify : verifyVoucher env w.quiet ch D.id D.recipient sequence c signature = .ok () :=
    verifyVoucher_eq_ok.mpr ⟨pk, D.reservation, hsigner.trans hpk, hreserved, by omega, hcovered,
      hfresh, hsig⟩
  have hexec := challenge_succeeds (w := w.quiet) hl hverify hs (by omega)
    (by rw [hat, hwindow]; exact hopen) (not_le.mp hlt)
  have hnext : paymentChannel.next w
      (.invoke env (.challenge D.id D.recipient sequence c signature)) = _ :=
    paymentChannel.next_ok hexec
  have hraised : settlement w' D.id D.recipient
      = some { s with best_sequence := sequence, best_cumulative := c } := by
    rw [hst.2, show a = _ from hact, hnext]
    exact Finmap.lookup_insert _
  have hbest := congrArg Settlement.best_cumulative (Option.some.inj (hsame.symm.trans hraised))
  exact hlt hbest.ge

/-- The voucher that raises the record is a submission. -/
theorem raised_submits (hst : Step P d w a w') (hrefines : Refines P d w a w') {v : Claim}
    (hop : opOf a w'.events = .raised v) (hkey : v.key = (D.id, D.recipient))
    (hl : (book w).channels.lookup D.id = some ch) (hterms : SameTerms D.channel ch)
    (hreserved : allocation w D.id D.recipient = some D.reservation)
    (hs : settlement w D.id D.recipient = some s) (hat : s.opened_at_ledger = D.opened_at) :
    D.Submits v.cumulative_amount ⟨w, a, w'⟩ := by
  obtain ⟨env, signature, hact, hexec⟩ := hrefines.raised_calls hst hop
  obtain ⟨hid, hr⟩ := Prod.mk.inj hkey
  rw [hid, hr] at hact hexec
  obtain ⟨ch', s', hl', hs', hverify, hopen⟩ := challenge_verified hexec
  cases hl.symm.trans hl'
  cases hs.symm.trans hs'
  obtain ⟨pk, x, hpk, hx, _, hcovered, hfresh, hsig⟩ := verifyVoucher_eq_ok.mp hverify
  cases hreserved.symm.trans hx
  refine ⟨env, v.sequence, signature, pk, hact, hterms.2.symm.trans hpk, hsig, hfresh, hcovered, ?_⟩
  rw [← hat, ← hterms.1]
  exact hopen

/-- **One transaction** of a dispute. -/
theorem Holds.step (h : D.Holds tr w) (hinv : (book w).Inv) (hst : Step P d w a w')
    (hrefines : Refines P d w a w') (hundisturbed : D.Undisturbed ⟨w, a, w'⟩) :
    D.Holds (tr ++ [⟨w, a, w'⟩]) w' := by
  obtain ⟨⟨ch, hl, hterms⟩, hreserved, s, hs, hat, hwith, hpayer, hbest⟩ := h
  obtain ⟨hsettle, henable⟩ := hundisturbed
  have hsettle' : ∀ v penalty, opOf a w'.events = .settled v penalty →
      v.key ≠ (D.id, D.recipient) := fun v penalty hop hkey => hsettle ⟨v, penalty, hop, hkey⟩
  have henable' : ∀ pk window, opOf a w'.events ≠ .enabled D.id pk window := by
    intro pk window hop
    obtain ⟨env, owner, hcalls⟩ := hrefines.enabled_calls hst hop
    exact henable env owner pk window hcalls
  obtain ⟨ch', hl', hstep⟩ := hrefines.step.channel_step hinv hl
  have hterms' := hstep.terms henable'
  have hreserved' : allocation w' D.id D.recipient = some D.reservation :=
    (hrefines.step.allocation_keep hs hsettle').trans hreserved
  refine ⟨⟨ch', hl', hterms'.1.trans hterms.1, hterms'.2.trans hterms.2⟩, hreserved', ?_⟩
  -- either the record stands, and nothing better was submitted, or a submission raised it
  rcases hrefines.step.settlement_cases hs hsettle' with hsame | ⟨v, hop, hkey, hbetter, hraised⟩
  · refine ⟨s, hsame, hat, hwith, hpayer, fun hu32 => isGreatest_keep (hbest hu32) ?_⟩
    exact fun c => submits_le hinv hst hl hterms hreserved hs hat hu32 hsame
  · refine ⟨_, hraised, hat, hwith, hpayer, fun hu32 => ?_⟩
    exact isGreatest_raise (hbest hu32) hbetter
      (raised_submits hst hrefines hop hkey hl hterms hreserved hs hat)

/-- A dispute starts with the amount it was opened with. -/
theorem Opens.holds {t : Tx} (hopen : D.Opens t) (hst : Step P d t.pre t.act t.post) :
    D.Holds [] t.post := by
  obtain ⟨env, closer, sequence, signature, ⟨hact, hexec⟩, hl, ha, hat, hpayer⟩ := hopen
  have hallowed := hst.1
  rw [hact] at hallowed
  obtain ⟨_, _, htyped⟩ := hallowed
  obtain ⟨ch, x, hp, _, hpost⟩ := closeUnilateral_ok
    (v := ⟨D.id, D.recipient, sequence, D.opened_with⟩) hexec ⟨htyped.1, htyped.2.2⟩
  obtain rfl : D.channel = ch := Option.some.inj (hl.symm.trans hp.channel)
  rw [hpost]
  refine ⟨⟨D.channel, hl, rfl, rfl⟩, ha, _, Finmap.lookup_insert _, hat, rfl, ?_, fun _ => ?_⟩
  · rw [hpayer]
  · rw [submissions_nil]
    simp

theorem runs_hold {w0 : State} (hinv : (book w0).Inv) (h0 : D.Holds [] w0)
    (h : Runs P d w0 tr w) (hundisturbed : ∀ x ∈ tr, D.Undisturbed x) : D.Holds tr w := by
  refine Runs.history_of (Q := D.Holds) h hundisturbed hinv h0
    (fun tr m a m' hI hholds hst hrefines hlast => ?_)
  exact hholds.step hI hst hrefines hlast

end Dispute

/-! ## The outcome -/

/-- The transaction that finalizes a dispute settles the best voucher, imposes the penalty of the
record and pays both, less what was settled before. -/
theorem finalize_outcome {t : Tx} {env : Env} {s : Settlement} {a : Allocation}
    (hinv : (book t.pre).Inv) (hst : Step P d t.pre t.act t.post)
    (hcalls : t.Calls env (.finalize id r)) (hs : settlement t.pre id r = some s)
    (ha : allocation t.pre id r = some a) :
    (∃ ch, (book t.pre).channels.lookup id = some ch ∧
      s.opened_at_ledger + ch.dispute_ledgers ≤ U32_MAX) ∧
    t.op = .settled ⟨id, r, s.best_sequence, s.best_cumulative⟩ (Book.penaltyOf s a) ∧
    sentTo d r t.post.events = s.best_cumulative - a.settled + Book.penaltyOf s a := by
  obtain ⟨hact, hexec⟩ := hcalls
  obtain ⟨⟨paid, w1⟩, hfinal, hw⟩ := Result.map_eq_ok.mp hexec
  obtain rfl : w1 = t.post := hw
  obtain ⟨ch, s', a', next, hl, hs', ha', hu32, _, hpay, hpost⟩ := finalize_ok hfinal
  cases hs.symm.trans hs'
  cases ha.symm.trans ha'
  have hop : t.op = .settled ⟨id, r, s.best_sequence, s.best_cumulative⟩ (Book.penaltyOf s a) := by
    obtain ⟨_, _, _, _, _, _, _, rfl⟩ := payOut_ok hpay
    unfold Tx.op
    rw [hpost]
    simp [State.quiet, bookOp]
  have hreceipt := (step_refines hinv hst).receipt
  rw [show opOf t.act t.post.events = _ from hop] at hreceipt
  have hsettled : (book t.pre).settledFor (id, r) = a.settled := by
    have hreserved : (book t.pre).allocations.lookup (id, r) = some a := ha
    rw [Book.settledFor, Book.reservation_eq hreserved]
  refine ⟨⟨ch, hl, hu32⟩, hop, ?_⟩
  have hsent : sentTo d r t.post.events
      = s.best_cumulative + Book.penaltyOf s a - (book t.pre).settledFor (id, r) := hreceipt
  omega

/-- **The outcome of a dispute.** From the close to the call that finalizes it, whatever else
happens to the contract in between: the settled amount `M` is the greatest of the amount the
dispute was opened with and all submissions; the penalty is what the payer's side withheld, as far
as the reservation `A` covers it; no more than `A` is paid; and a stale close by the payer's side
costs no less than settling `M` cooperatively, and more when `M < A`. -/
theorem dispute_outcome {w0 : State} {before during : List Tx} {t f : Tx} {D : Dispute}
    {env : Env} (h0 : Genesis w0) (h : Runs P d w0 (before ++ t :: (during ++ [f])) w)
    (hopen : D.Opens t) (hundisturbed : ∀ x ∈ during, D.Undisturbed x)
    (hfinal : f.Calls env (.finalize D.id D.recipient)) :
    ∃ M penalty sequence, f.op = .settled ⟨D.id, D.recipient, sequence, M⟩ penalty ∧
      IsGreatest (insert D.opened_with (D.submissions during)) M ∧
      penalty = (if D.by_payer then min (M - D.opened_with) (D.reservation.amount - M) else 0) ∧
      sentTo d D.recipient f.post.events = M - D.reservation.settled + penalty ∧
      sentTo d D.recipient f.post.events ≤ D.reservation.amount ∧
      (D.by_payer = true → D.opened_with < M →
        M - D.reservation.settled ≤ sentTo d D.recipient f.post.events ∧
        (M < D.reservation.amount →
          M - D.reservation.settled < sentTo d D.recipient f.post.events)) := by
  obtain ⟨hbefore, hst, hafter⟩ := Run.around h
  obtain ⟨hduring, hst', rfl⟩ := Run.snoc_inv hafter
  have hinv : (book t.pre).Inv := (Runs.refines hbefore (genesis_inv h0)).2
  have hinv' : (book t.post).Inv := hinv.step (step_refines hinv hst).step
  have hinvf : (book f.pre).Inv := (Runs.refines hduring hinv').2
  obtain ⟨⟨ch, hl, hterms⟩, ha, s, hs, hat, hwith, hpayer, hbest⟩ :=
    Dispute.runs_hold hinv' (hopen.holds hst) hduring hundisturbed
  obtain ⟨⟨ch', hl', hu32⟩, hop, hsent⟩ := finalize_outcome hinvf hst' hfinal hs ha
  cases hl.symm.trans hl'
  obtain ⟨x, hx, hfresh, hle, hcovered⟩ := hinvf.disputes _ _ hs
  cases ha.symm.trans hx
  have hsettled := (hinvf.amounts (D.id, D.recipient) _ ha).2
  -- that `finalize` returned shows that the end of the window is a ledger number
  have hgreatest := hbest (by rw [← hat, ← hterms.1]; exact hu32)
  have hpenalty : Book.penaltyOf s D.reservation = (if D.by_payer then
      min (s.best_cumulative - D.opened_with) (D.reservation.amount - s.best_cumulative)
      else 0) := by
    unfold Book.penaltyOf
    rw [hpayer, hwith]
    by_cases hp : D.by_payer = true
    · simp only [hp, true_and, if_true]
      split <;> omega
    · simp [hp]
  refine ⟨s.best_cumulative, Book.penaltyOf s D.reservation, s.best_sequence, hop, hgreatest,
    hpenalty, hsent, ?_, ?_⟩
  · have := (Book.Inv.penaltyOf_bounds hcovered).2
    omega
  · intro hp hlt
    rw [if_pos hp] at hpenalty
    constructor
    · omega
    · intro hbelow
      omega

end

/-! ## A stale close that is challenged -/

section

open Scenario

def reserveScript : List Move := [
  .invoke [owner] honestSwap (.openChannel owner agent usdc 300 100 .Daily),
  .invoke [owner] honestSwap (.enableVouchers owner 1 voucherKey 720),
  .invoke [owner] honestSwap (.allocate owner 1 recipient 100)]

/-- The recipient challenges with 50, somebody repeats the stale voucher, and the window ends. -/
def challengeScript : List Move := [
  .invoke [] honestSwap (.challenge 1 recipient 2 50 signature50),
  .invoke [] honestSwap (.challenge 1 recipient 1 20 signature20),
  .wait 720]

def finalizeMove : Move := .invoke [] honestSwap (.finalize 1 recipient)

/-- The dispute that the agent opens with the voucher over 20. -/
def staleDispute : Dispute where
  id := 1
  recipient := recipient
  channel := {
    agent, owner, token := usdc, limit_per_period := 100, period := .Daily
    spent_this_period := 0, period_start_ledger := 100, total_spent := 0, active := true
    collateral := 300, allocated := 100, voucher_signer := some voucherKey
    dispute_ledgers := 720 }
  reservation := { amount := 100, settled := 0 }
  opened_at := 100
  opened_with := 20
  by_payer := true

/-- The script is legal, its close and its `finalize` return, and in between only the voucher over
50 is raised. -/
theorem stale_executed :
    legal start (reserveScript ++ staleClose :: (challengeScript ++ [finalizeMove])) = true ∧
      (exec (callBy [agent] honestSwap) (outcome reserveScript).quiet
        (.closeUnilateral agent 1 recipient 1 20 signature20)).isOk = true ∧
      (∀ x ∈ historyAfter (reserveScript ++ [staleClose]) challengeScript,
        x.op = .raised ⟨1, recipient, 2, 50⟩ ∨ x.op = .idle) ∧
      (exec (callBy [] honestSwap)
        (outcome (reserveScript ++ [staleClose] ++ challengeScript)).quiet
        (.finalize 1 recipient)).isOk = true := by decide +kernel

theorem dispute_outcome_stale :
    ∃ M penalty sequence,
      (txAfter (reserveScript ++ [staleClose] ++ challengeScript) finalizeMove).op
        = .settled ⟨1, recipient, sequence, M⟩ penalty ∧
      IsGreatest (insert 20 (staleDispute.submissions
        (historyAfter (reserveScript ++ [staleClose]) challengeScript))) M ∧
      penalty = min (M - 20) (100 - M) := by
  obtain ⟨hlegal, hclose, hops, hfinalize⟩ := stale_executed
  have hruns : Runs testnet deployed start
      (history reserveScript ++ txAfter reserveScript staleClose ::
        (historyAfter (reserveScript ++ [staleClose]) challengeScript
          ++ [txAfter (reserveScript ++ [staleClose] ++ challengeScript) finalizeMove]))
      (outcome (reserveScript ++ staleClose :: (challengeScript ++ [finalizeMove]))) := by
    rw [← historyAfter_snoc]
    exact script_runs_split _ _ _ hlegal
  have hopen : staleDispute.Opens (txAfter reserveScript staleClose) :=
    ⟨_, _, _, _, txAfter_calls hclose, by decide +kernel, by decide +kernel,
      by decide +kernel, by decide⟩
  have hundisturbed : ∀ x ∈ historyAfter (reserveScript ++ [staleClose]) challengeScript,
      staleDispute.Undisturbed x := by
    intro x hx
    refine ⟨?_, ?_⟩
    · rintro ⟨v, penalty, hop, _⟩
      rcases hops x hx with hraised | hidle
      · rw [hraised] at hop
        cases hop
      · rw [hidle] at hop
        cases hop
    · rintro env owner' pk window ⟨hact, _⟩
      simp only [historyAfter, challengeScript, List.map_cons, List.map_nil, play,
        List.mem_cons, List.not_mem_nil, or_false] at hx
      rcases hx with rfl | rfl | rfl <;> cases hact
  obtain ⟨M, penalty, sequence, hop, hgreatest, hpenalty, _⟩ := dispute_outcome start_genesis
    hruns hopen hundisturbed (txAfter_calls hfinalize)
  exact ⟨M, penalty, sequence, hop, hgreatest, hpenalty⟩

end

end StellarAgent.PaymentChannel
