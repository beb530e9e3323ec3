import StellarAgent.Governance.Proposals

set_option autoImplicit false

/-! # Cancelled and executed proposals

Nothing leads out of `Executed`, and nothing leads out of `Cancelled` either; but `execute` does
not look for `Cancelled`. What stops it after a cancellation is a missing `eta_ledger`, and a
proposal that has reached a quorum keeps the one it has. So a cancellation is final exactly as far
as it comes before the quorum.
-/

namespace StellarAgent.Governance

open Lib Soroban

/-- The proposal has been executed, or cancelled before it was `Quorate`. -/
def Settled (w : State) (id : Nat) : Prop :=
  ∃ p, w.storage.proposals.lookup id = some p ∧
    (p.status = .Executed ∨ p.status = .Cancelled ∧ p.eta_ledger = none)

section

variable {P : Platform} {d : Deployment} {w0 w w' : State} {a : Action Call} {t : Tx}
  {tr before after : List Tx} {id : Nat}

/-- **One step** cannot execute a settled proposal, nor bring it back. -/
theorem Settled.step (hn : Numbered w.storage) (h : Settled w id) (hst : Step P d w a w') :
    Settled w' id ∧ ¬ Tx.Executes ⟨w, a, w'⟩ id := by
  obtain ⟨p, hp, hstatus⟩ := h
  cases step_life hn hst id with
  | untouched record _ idle => exact ⟨⟨p, record.trans hp, hstatus⟩, idle⟩
  | made _ _ before _ _ _ _ _ _ => cases hp.symm.trans before
  | approved _ _ before live _ _ _ _ _ =>
      obtain rfl := Option.some.inj (hp.symm.trans before)
      -- only a live proposal takes approvals
      rcases hstatus with h | ⟨h, _⟩ <;> rw [h] at live <;> rcases live with h | h <;> cases h
  | executed _ before unexecuted _ _ eta_eq _ _ _ =>
      obtain rfl := Option.some.inj (hp.symm.trans before)
      rcases hstatus with hexecuted | ⟨_, hnone⟩
      · exact absurd hexecuted unexecuted
      · cases hnone.symm.trans eta_eq
  | cancelled _ before unexecuted record _ idle =>
      obtain rfl := Option.some.inj (hp.symm.trans before)
      rcases hstatus with hexecuted | ⟨_, hnone⟩
      · exact absurd hexecuted unexecuted
      · exact ⟨⟨_, record, .inr ⟨rfl, hnone⟩⟩, idle⟩

/-- **Along a run** it stays settled and is never executed. -/
theorem Settled.run (hn : Numbered w.storage) (h : Settled w id) (hrun : Runs P d w tr w') :
    ∀ x ∈ tr, ¬ x.Executes id := by
  have hsafe : (Numbered w'.storage ∧ Settled w' id) ∧ ∀ x ∈ tr, ¬ Tx.Executes x id := by
    refine hrun.safety (I := fun m => Numbered m.storage ∧ Settled m id) (C := fun _ => True)
      (fun _ _ => trivial) ⟨hn, h⟩ ?_
    rintro m a m' ⟨hn, hsettled⟩ hst _
    obtain ⟨hsettled', hidle⟩ := hsettled.step hn hst
    exact ⟨⟨hn.step hst, hsettled'⟩, hidle⟩
  exact hsafe.2

/-- An execution settles the proposal. -/
theorem Tx.Executes.settled (hn : Numbered w.storage) (hst : Step P d w a w')
    (h : Tx.Executes ⟨w, a, w'⟩ id) : Settled w' id := by
  obtain ⟨_, _, _, _, _, _, hrecord⟩ := h.found hn hst
  exact ⟨_, hrecord, .inl rfl⟩

/-- A cancellation before the quorum settles it. -/
theorem Tx.Cancels.settled (hst : Step P d w a w')
    (h : Tx.Cancels ⟨w, a, w'⟩ id) (hearly : ¬ Quorate w id) : Settled w' id := by
  obtain ⟨env, caller, hcalls⟩ := h
  rcases (step_effect hst).2 with ⟨_, hnocall⟩ | ⟨env', call, hcalls', heffect⟩
  · exact absurd hcalls (hnocall _ _)
  obtain ⟨rfl, rfl⟩ := hcalls'.unique hcalls
  generalize hs : w'.storage = s at heffect
  cases heffect with
  | @cancelled _ _ p found _ =>
      have heta : p.eta_ledger = none := by
        by_contra hne
        exact hearly ⟨p, found, hne⟩
      refine ⟨cancelled p, ?_, .inr ⟨rfl, heta⟩⟩
      rw [hs, lookup_withProposal, if_pos rfl]

/-- **Cancellation before the quorum is final, and so is execution.** In every run: after a
successful `cancel` of a proposal that had not reached its quorum, no `execute` of it succeeds,
and after a successful `execute` no other one does. -/
theorem cancellation_final (h0 : Genesis w0) (h : Runs P d w0 (before ++ t :: after) w) :
    (t.Cancels id → ¬ Quorate t.pre id → ∀ x ∈ after, ¬ x.Executes id) ∧
      (t.Executes id → ∀ x ∈ after, ¬ x.Executes id) := by
  obtain ⟨hbefore, hst, hafter⟩ := h.around
  have hn : Numbered t.pre.storage := Numbered.run h0 hbefore
  have hn' : Numbered t.post.storage := hn.step hst
  constructor
  · intro hcancels hearly
    exact (Tx.Cancels.settled hst hcancels hearly).run hn' hafter
  · intro hexecutes
    exact (Tx.Executes.settled hn hst hexecutes).run hn' hafter

end

/-! ## A cancelled proposal that is executed -/

section

open LocalNet

/-- One of two needed approvals. -/
def halfApproved : List Line := [setsUp, proposesCall 1]

def fullyApproved : List Line := [setsUp, proposesCall 1, approves 2 1]

theorem cancellation_final_early :
    ¬ ∃ x ∈ governance.historyAfter deployment (halfApproved ++ [cancels 1 1])
      [approves 2 1, .wait 10, executes 1], Tx.Executes x 1 := by
  rintro ⟨x, hx, hexecutes⟩
  have hcancels : Tx.Cancels (governance.txAfter deployment halfApproved (cancels 1 1)) 1 :=
    ⟨_, _, Contract.txAfter_calls (by decide +kernel)⟩
  refine (cancellation_final deployment_genesis (Contract.script_runs_split halfApproved
    (cancels 1 1) [approves 2 1, .wait 10, executes 1] (by decide +kernel))).1 hcancels ?_ x hx
    hexecutes
  have hnone : ((governance.outcome deployment halfApproved).storage.proposals.lookup 1).map
      Proposal.eta_ledger = some none := by decide +kernel
  rintro ⟨p, hp, hne⟩
  have hlookup : (governance.outcome deployment halfApproved).storage.proposals.lookup 1
      = some p := hp
  rw [hlookup] at hnone
  exact hne (Option.some.inj hnone)

/-- The proposal is cancelled after the second approval, and executed when its timelock is over. -/
theorem cancelled_proposal_executes :
    ¬ ∀ (P : Platform) (d : Deployment) (w0 w : State) (before after : List Tx) (t : Tx)
      (id : Nat), Genesis w0 → Runs P d w0 (before ++ t :: after) w → t.Cancels id →
      ∀ x ∈ after, ¬ x.Executes id := by
  intro h
  have hcancels : Tx.Cancels (governance.txAfter deployment fullyApproved (cancels 1 1)) 1 :=
    ⟨_, _, Contract.txAfter_calls (by decide +kernel)⟩
  have hexecutes : Tx.Executes (governance.txAfter deployment
      (fullyApproved ++ [cancels 1 1] ++ [.wait 10]) (executes 1)) 1 :=
    ⟨_, _, _, Contract.txAfter_calls (by decide +kernel)⟩
  exact h platform deployed deployment _ _ _ _ 1 deployment_genesis
    (Contract.script_runs_split fullyApproved (cancels 1 1) [.wait 10, executes 1]
      (by decide +kernel)) hcancels _
    (Contract.txAfter_mem_historyAfter deployment _ [.wait 10] (executes 1) []) hexecutes

end

end StellarAgent.Governance
