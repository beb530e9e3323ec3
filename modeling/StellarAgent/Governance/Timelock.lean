import StellarAgent.Governance.Proposals

set_option autoImplicit false

/-! # The timelock

The end of the timelock, `eta_ledger`, is written once, when an approval completes the first
quorum. It stands for a quorum that has lasted from then on as long as no rotation raises the
threshold above the approvals that the proposal has by then (`RaisesAbove`); an approval that
restores the quorum later does not start the timelock again.
-/

namespace StellarAgent.Governance

open Lib Soroban

/-- The recorded approvals reach the threshold in force. -/
def Supported (id : Nat) (w : State) : Prop := getThreshold w ≤ (getApprovals w id).length

/-- The transaction happens at a ledger from which the timelock then in force ends at `eta`. -/
def Tx.StartsTimelock (eta : Nat) (x : Tx) : Prop := x.pre.sequence + getTimelock x.post = eta

/-- The transaction rotates the owners to a threshold above the approvals of a proposal whose
timelock is running. -/
def Tx.RaisesAbove (x : Tx) (id : Nat) : Prop :=
  ∃ owners threshold, x.Rotates owners threshold ∧ Quorate x.pre id ∧
    (getApprovals x.pre id).length < threshold

/-- The `eta_ledger` of the proposal, if it has one, ends a timelock that has been running since a
quorum was reached that still holds. -/
def Timelocked (id : Nat) (tr : List Tx) (w : State) : Prop :=
  ∀ p, w.storage.proposals.lookup id = some p →
    (p.approved_at_ledger = none ↔ p.eta_ledger = none) ∧
      ∀ eta, p.eta_ledger = some eta →
        Supported id w ∧ Since (Tx.StartsTimelock eta) (Supported id) tr

section

variable {P : Platform} {d : Deployment} {w0 w w' : State} {a : Action Call} {x : Tx}
  {tr before after : List Tx} {id : Nat}

theorem getThreshold_of_parameters {m : State} {q : Parameters}
    (h : m.storage.parameters = q) : getThreshold m = q.threshold.getD 0 := by
  rw [← h]
  rfl

theorem getTimelock_of_parameters {m : State} {q : Parameters}
    (h : m.storage.parameters = q) : getTimelock m = q.timelock_delay.getD 0 := by
  rw [← h]
  rfl

/-- A step that keeps the approvals keeps their quorum, unless it raises the threshold. -/
theorem Supported.step {p : Proposal} {eta : Nat} (hn : Numbered w.storage)
    (hst : Step P d w a w') (hp : w.storage.proposals.lookup id = some p)
    (heta : p.eta_ledger = some eta) (h : Supported id w) (hno : ¬ Tx.RaisesAbove ⟨w, a, w'⟩ id)
    (happrovals : (getApprovals w id).length ≤ (getApprovals w' id).length) : Supported id w' := by
  unfold Supported at *
  cases step_governed hst with
  | kept parameters =>
      have hthreshold : getThreshold w' = getThreshold w := getThreshold_of_parameters parameters
      omega
  | initialized fresh => exact absurd fresh (hn.initialized hp)
  | @rotated owners threshold rotates _ parameters =>
      have hthreshold : getThreshold w' = threshold := getThreshold_of_parameters parameters
      have hquorate : Quorate w id := ⟨p, hp, by rw [heta]; simp⟩
      have hlow : ¬ (getApprovals w id).length < threshold :=
        fun hlt => hno ⟨owners, threshold, rotates, hquorate, hlt⟩
      omega
  | timelock parameters =>
      have hthreshold : getThreshold w' = getThreshold w := getThreshold_of_parameters parameters
      omega
  | ttl _ parameters =>
      have hthreshold : getThreshold w' = getThreshold w := getThreshold_of_parameters parameters
      omega

/-- A record whose mark is not moved keeps its timelock through a step that keeps the quorum. -/
theorem Timelocked.keep {p q : Proposal} (h : Timelocked id tr w) (hn : Numbered w.storage)
    (hst : Step P d w a w') (hno : ¬ Tx.RaisesAbove ⟨w, a, w'⟩ id)
    (hp : w.storage.proposals.lookup id = some p)
    (happrovals : (getApprovals w id).length ≤ (getApprovals w' id).length)
    (hq : q.approved_at_ledger = p.approved_at_ledger ∧ q.eta_ledger = p.eta_ledger) :
    (q.approved_at_ledger = none ↔ q.eta_ledger = none) ∧ ∀ eta, q.eta_ledger = some eta →
      Supported id w' ∧ Since (Tx.StartsTimelock eta) (Supported id) (tr ++ [⟨w, a, w'⟩]) := by
  obtain ⟨hmark, hsince⟩ := h p hp
  rw [hq.1, hq.2]
  refine ⟨hmark, fun eta heta => ?_⟩
  obtain ⟨hsupported, hsince⟩ := hsince eta heta
  have hsupported' := hsupported.step hn hst hp heta hno happrovals
  exact ⟨hsupported', hsince.later hsupported'⟩

/-- A record that the step marks starts its timelock there. -/
theorem timelocked_marked {p : Proposal} {count : Nat}
    (hnone : p.approved_at_ledger = none) (hno_eta : p.eta_ledger = none)
    (hparameters : w'.storage.parameters = w.storage.parameters)
    (happrovals : (getApprovals w' id).length = count) :
    ((marked w count p).approved_at_ledger = none ↔ (marked w count p).eta_ledger = none) ∧
      ∀ eta, (marked w count p).eta_ledger = some eta →
        Supported id w' ∧
          Since (Tx.StartsTimelock eta) (Supported id) (tr ++ [⟨w, a, w'⟩]) := by
  have hthreshold : getThreshold w' = getThreshold w := getThreshold_of_parameters hparameters
  have htimelock : getTimelock w' = getTimelock w := getTimelock_of_parameters hparameters
  by_cases hquorum : getThreshold w ≤ count
  · have hmarked : marked w count p = { p with
        status := .Approved
        approved_at_ledger := some w.sequence
        eta_ledger := some (w.sequence + getTimelock w) } := by
      rw [marked, if_pos ⟨hquorum, hnone⟩]
    have hsupported : Supported id w' := by
      unfold Supported
      omega
    rw [hmarked]
    refine ⟨by simp, fun eta heta => ⟨hsupported, Since.now ?_ hsupported⟩⟩
    have heq := Option.some.inj heta
    show w.sequence + getTimelock w' = eta
    omega
  · have hmarked : marked w count p = p := by
      rw [marked, if_neg (fun h => hquorum h.1)]
    rw [hmarked]
    refine ⟨by rw [hnone, hno_eta], fun eta heta => ?_⟩
    cases hno_eta.symm.trans heta

theorem Timelocked.step (h : Timelocked id tr w) (hn : Numbered w.storage)
    (hst : Step P d w a w') (hno : ¬ Tx.RaisesAbove ⟨w, a, w'⟩ id) :
    Timelocked id (tr ++ [⟨w, a, w'⟩]) w' := by
  intro q hq
  cases step_life hn hst id with
  | untouched record approvals _ =>
      exact h.keep hn hst hno (record.symm.trans hq) (le_of_eq (congrArg _ approvals.symm))
        ⟨rfl, rfl⟩
  | made _ _ _ unmarked no_eta _ record approvals parameters =>
      obtain rfl := Option.some.inj (hq.symm.trans record)
      exact timelocked_marked unmarked no_eta parameters (congrArg List.length approvals)
  | @approved p owner _ _ before _ _ record approvals parameters _ =>
      obtain rfl := Option.some.inj (hq.symm.trans record)
      have hlength : (getApprovals w' id).length = (getApprovals w id).length + 1 := by
        rw [approvals, List.length_append, List.length_singleton]
      by_cases hmark : p.approved_at_ledger = none
      · exact timelocked_marked hmark ((h p before).1.mp hmark) parameters hlength
      · -- the quorum was found before, and its mark stays
        rw [marked_of_some _ _ _ hmark]
        exact h.keep hn hst hno before (by omega) ⟨rfl, rfl⟩
  | executed _ before _ _ _ _ _ record approvals =>
      obtain rfl := Option.some.inj (hq.symm.trans record)
      exact h.keep hn hst hno before (le_of_eq (congrArg _ approvals.symm)) ⟨rfl, rfl⟩
  | cancelled _ before _ record approvals _ =>
      obtain rfl := Option.some.inj (hq.symm.trans record)
      exact h.keep hn hst hno before (le_of_eq (congrArg _ approvals.symm)) ⟨rfl, rfl⟩

theorem Timelocked.run (h0 : Genesis w0) (h : Runs P d w0 tr w)
    (hno : ∀ x ∈ tr, ¬ x.RaisesAbove id) : Timelocked id tr w := by
  refine h.history_of (P := Timelocked id) hno (fun p hp => ?_) ?_
  · rw [h0] at hp
    exact absurd hp (by simp [Storage.fresh])
  · intro tr m a m' hrun hI hst hno
    exact hI.step (Numbered.run h0 hrun) hst hno

/-- **The timelock.** In every run in which no rotation raises the threshold above the approvals
of a proposal whose timelock is running: when an `execute` of it succeeds, there was a ledger from
which on its approvals have reached the threshold in force, and the timelock in force at that
ledger is over. -/
theorem timelock_elapsed (h0 : Genesis w0) (h : Runs P d w0 (before ++ x :: after) w)
    (hexecutes : x.Executes id) (hno : ∀ y ∈ before, ¬ y.RaisesAbove id) :
    Since (fun q : Tx => q.pre.sequence + getTimelock q.post ≤ x.pre.sequence)
      (fun m => getThreshold m ≤ (getApprovals m id).length) before := by
  obtain ⟨hbefore, hst, _⟩ := h.around
  have htimelocked : Timelocked id before x.pre := Timelocked.run h0 hbefore hno
  obtain ⟨_, _, hp, _, heta, helapsed, _⟩ := hexecutes.found (Numbered.run h0 hbefore) hst
  obtain ⟨xs, q, ys, hsplit, hstarts, hsince⟩ := ((htimelocked _ hp).2 _ heta).2
  have hover : q.pre.sequence + getTimelock q.post ≤ x.pre.sequence := hstarts.trans_le helapsed
  exact ⟨xs, q, ys, hsplit, hover, hsince⟩

end

/-! ## A quorum that is restored at the end of the timelock -/

section

open LocalNet

/-- Two of three owners approve a call; two of them execute a rotation to four owners, of whom
`threshold` are needed, as soon as its timelock is over. -/
def rotated (threshold : Nat) : List Line := [
  setsUp, proposesCall 1, approves 2 1,
  proposesChange 1 "rotate_owners"
    [.addresses [account 1, account 2, account 3, account 4], .u32 threshold],
  approves 2 2, .wait 10, executes 2]

/-- One ledger before the timelock is over, `execute` refuses. -/
example : (exec (callBy [stranger] false)
    (governance.outcome deployment [setsUp, proposesCall 1, approves 2 1, .wait 9]).quiet
    (.execute stranger 1 (some ()))).isOk = false := by decide +kernel

/-- The threshold stays at two: the call executes when its timelock is over. -/
theorem timelock_elapsed_kept :
    Since (fun q : Tx => q.pre.sequence + getTimelock q.post
        ≤ (governance.outcome deployment (rotated 2)).sequence)
      (fun m => getThreshold m ≤ (getApprovals m 1).length)
      (governance.history deployment (rotated 2)) := by
  have hexecutes : Tx.Executes (governance.txAfter deployment (rotated 2) (executes 1)) 1 :=
    ⟨_, _, _, Contract.txAfter_calls (by decide +kernel)⟩
  refine timelock_elapsed deployment_genesis (Contract.script_runs_split (rotated 2) (executes 1)
    [] (by decide +kernel)) hexecutes ?_
  -- the one execution before it rotates to a threshold that the two approvals meet
  have hexecuted : ∀ x ∈ governance.history deployment (rotated 2),
      executedId x.act = none ∨ executedId x.act = some 2 ∧ (getApprovals x.pre 1).length = 2 ∧
        (x.pre.storage.proposals.lookup 2).map (fun p => p.args[1]?)
          = some (some (.u32 2)) := by decide +kernel
  rintro x hx ⟨owners, threshold, hrotates, _, hlow⟩
  obtain ⟨id, p, hid, hp, _, _, harg⟩ := hrotates.executed
  rcases hexecuted x hx with hnone | ⟨hsome, happrovals, hvalue⟩
  · cases hnone.symm.trans hid
  obtain rfl := Option.some.inj (hsome.symm.trans hid)
  rw [hp, Option.map_some, Option.some.injEq, harg] at hvalue
  cases hvalue
  omega

/-- The threshold is raised to three; at the same ledger a third owner approves the call, and it
executes at once. -/
theorem restored_quorum_skips_timelock :
    ¬ ∀ (P : Platform) (d : Deployment) (w0 w : State) (before after : List Tx) (x : Tx)
      (id : Nat), Genesis w0 → Runs P d w0 (before ++ x :: after) w → x.Executes id →
      Since (fun q : Tx => q.pre.sequence + getTimelock q.post ≤ x.pre.sequence)
        (fun m => getThreshold m ≤ (getApprovals m id).length) before := by
  intro h
  have hexecutes : Tx.Executes (governance.txAfter deployment (rotated 3 ++ [approves 3 1])
      (executes 1)) 1 := ⟨_, _, _, Contract.txAfter_calls (by decide +kernel)⟩
  obtain ⟨before, q, after, hsplit, hover, hsince⟩ := h platform deployed deployment _ _ _ _ 1
    deployment_genesis (Contract.script_runs_split (rotated 3 ++ [approves 3 1]) (executes 1) []
      (by decide +kernel)) hexecutes
  -- wherever the history is cut, the first transaction is too late or a later state is without
  -- its quorum
  have hcuts : ∀ i < (governance.history deployment (rotated 3 ++ [approves 3 1])).length,
      ∀ x ∈ ((governance.history deployment (rotated 3 ++ [approves 3 1])).drop i).head?,
      110 < x.pre.sequence + getTimelock x.post ∨
        ∃ y ∈ (governance.history deployment (rotated 3 ++ [approves 3 1])).drop i,
          (getApprovals y.post 1).length < getThreshold y.post := by decide +kernel
  rw [hsplit] at hcuts
  have hcut := hcuts before.length (by simp) q (by simp)
  rw [List.drop_left] at hcut
  rcases hcut with hlate | ⟨y, hy, hlow⟩
  · exact absurd hover (not_le.mpr hlate)
  · exact absurd (hsince y hy) (not_le.mpr hlow)

end

end StellarAgent.Governance
