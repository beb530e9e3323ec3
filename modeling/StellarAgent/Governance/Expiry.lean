import StellarAgent.Governance.Proposals

set_option autoImplicit false

/-! # Expired proposals

Whether a proposal has expired is computed from the time to live that is in force when somebody
asks; no step records it. So an expired proposal comes back when the time to live is raised to
its age, and by nothing else.
-/

namespace StellarAgent.Governance

open Lib Soroban

/-- The proposal is not executed, and its age exceeds the time to live in force. -/
def Expired (w : State) (id : Nat) : Prop :=
  ∃ p, w.storage.proposals.lookup id = some p ∧ p.status ≠ .Executed ∧
    p.created_at_ledger + getProposalTtl w < w.sequence

/-- The transaction sets a time to live that the age of the proposal does not exceed. -/
def Tx.Revives (x : Tx) (id : Nat) : Prop :=
  ∃ new_ttl p, x.SetsTtl new_ttl ∧ x.pre.storage.proposals.lookup id = some p ∧
    x.pre.sequence ≤ p.created_at_ledger + new_ttl

section

variable {P : Platform} {d : Deployment} {w0 w w' : State} {a : Action Call}
  {before after : List Tx} {id : Nat}

theorem getProposalTtl_of_parameters {m : State} {q : Parameters}
    (h : m.storage.parameters = q) : getProposalTtl m = q.proposal_ttl.getD 0 := by
  rw [← h]
  rfl

/-- An expired proposal that is not executed in a step, and not revived by it, is expired after
it: neither the ledger it was made at changes, nor does the ledger number go back. -/
theorem expired_after {p p' : Proposal} (hn : Numbered w.storage) (hst : Step P d w a w')
    (hp : w.storage.proposals.lookup id = some p)
    (hexpired : p.created_at_ledger + getProposalTtl w < w.sequence)
    (hno : ¬ Tx.Revives ⟨w, a, w'⟩ id) (hp' : w'.storage.proposals.lookup id = some p')
    (hcreated : p'.created_at_ledger = p.created_at_ledger) (hstatus : p'.status ≠ .Executed) :
    Expired w' id := by
  have hle := (step_effect hst).1
  refine ⟨p', hp', hstatus, ?_⟩
  rw [hcreated]
  cases step_governed hst with
  | kept parameters =>
      have httl : getProposalTtl w' = getProposalTtl w := getProposalTtl_of_parameters parameters
      omega
  | initialized fresh => exact absurd fresh (hn.initialized hp)
  | rotated _ _ parameters =>
      have httl : getProposalTtl w' = getProposalTtl w := getProposalTtl_of_parameters parameters
      omega
  | timelock parameters =>
      have httl : getProposalTtl w' = getProposalTtl w := getProposalTtl_of_parameters parameters
      omega
  | @ttl new_ttl sets parameters =>
      have httl : getProposalTtl w' = new_ttl := getProposalTtl_of_parameters parameters
      have hshort : ¬ w.sequence ≤ p.created_at_ledger + new_ttl :=
        fun hlong => hno ⟨new_ttl, p, sets, hp, hlong⟩
      omega

/-- **One step** does not execute an expired proposal, and leaves it expired unless it sets a time
to live as long as its age. -/
theorem Expired.step (hn : Numbered w.storage) (h : Expired w id) (hst : Step P d w a w')
    (hno : ¬ Tx.Revives ⟨w, a, w'⟩ id) :
    Expired w' id ∧ ¬ Tx.Executes ⟨w, a, w'⟩ id := by
  obtain ⟨p, hp, hstatus, hexpired⟩ := h
  have hafter : ∀ p', w'.storage.proposals.lookup id = some p' →
      p'.created_at_ledger = p.created_at_ledger → p'.status ≠ .Executed → Expired w' id :=
    fun _ => expired_after hn hst hp hexpired hno
  cases step_life hn hst id with
  | untouched record _ idle => exact ⟨hafter p (record.trans hp) rfl hstatus, idle⟩
  | made _ _ before _ _ _ _ _ _ => cases hp.symm.trans before
  | approved _ _ before live _ record _ _ idle =>
      obtain rfl := Option.some.inj (hp.symm.trans before)
      refine ⟨hafter _ record (marked_created _ _ _) ?_, idle⟩
      intro hexecuted
      have hlive := marked_status w ((getApprovals w id).length + 1) p live
      rw [hexecuted] at hlive
      rcases hlive with h | h <;> cases h
  | executed _ before _ alive _ _ _ _ _ =>
      obtain rfl := Option.some.inj (hp.symm.trans before)
      exact absurd hexpired (not_lt.mpr alive)
  | cancelled _ before _ record _ idle =>
      obtain rfl := Option.some.inj (hp.symm.trans before)
      refine ⟨hafter _ record rfl ?_, idle⟩
      intro hexecuted
      cases hexecuted

/-- **Expiry is final while the time to live stays below the age.** In every run: if a proposal
has expired at some point, and from then on no executed `set_proposal_ttl` sets a time to live as
long as its age, no later `execute` of it succeeds. -/
theorem expiry_final (h0 : Genesis w0) (hbefore : Runs P d w0 before w)
    (hafter : Runs P d w after w') (hexpired : Expired w id)
    (hno : ∀ x ∈ after, ¬ x.Revives id) : ∀ x ∈ after, ¬ x.Executes id := by
  have hsafe : (Numbered w'.storage ∧ Expired w' id) ∧ ∀ x ∈ after, ¬ Tx.Executes x id := by
    refine hafter.safety (I := fun m => Numbered m.storage ∧ Expired m id) hno
      ⟨Numbered.run h0 hbefore, hexpired⟩ ?_
    rintro m a m' ⟨hn, hexpired⟩ hst hno
    obtain ⟨hexpired', hidle⟩ := hexpired.step hn hst hno
    exact ⟨⟨hn.step hst, hexpired'⟩, hidle⟩
  exact hsafe.2

end

/-! ## An expired proposal that is executed -/

section

open LocalNet

/-- Approved at ledger 100, expired at ledger 201. -/
def leftToExpire : List Line := [setsUp, proposesCall 1, approves 2 1, .wait 101]

/-- The owners execute a change of the time to live. -/
def newTtl (ttl : Nat) : List Line :=
  [proposesChange 1 "set_proposal_ttl" [.u32 ttl], approves 2 2, .wait 10, executes 2]

def expiredWorld : State := governance.outcome deployment leftToExpire

theorem leftToExpire_runs :
    Runs platform deployed deployment (governance.history deployment leftToExpire) expiredWorld :=
  Contract.script_runs leftToExpire (by decide +kernel)

theorem leftToExpire_expired : Expired expiredWorld 1 := by
  have hrecord : (expiredWorld.storage.proposals.lookup 1).any (fun p => p.status ≠ .Executed ∧
      p.created_at_ledger + getProposalTtl expiredWorld < expiredWorld.sequence) = true := by
    decide +kernel
  obtain ⟨p, hp, hfacts⟩ := (Option.any_eq_true _ _).mp hrecord
  exact ⟨p, hp, of_decide_eq_true hfacts⟩

/-- While the time to live stays, `execute` refuses the expired proposal. -/
example : (exec (callBy [stranger] false) expiredWorld.quiet
    (.execute stranger 1 (some ()))).isOk = false := by decide +kernel

/-- At ledger 211 the owners shorten the time to live to 50; the proposal, 111 ledgers old, stays
expired. -/
theorem expiry_final_shortened :
    ¬ ∃ x ∈ governance.history expiredWorld (newTtl 50), Tx.Executes x 1 := by
  rintro ⟨x, hx, hexecutes⟩
  refine expiry_final deployment_genesis leftToExpire_runs
    (Contract.script_runs (newTtl 50) (by decide +kernel)) leftToExpire_expired ?_ x hx hexecutes
  -- only the last line executes a proposal
  have hexecuted : ∀ x ∈ governance.history expiredWorld (newTtl 50),
      executedId x.act = none ∨ executedId x.act = some 2 ∧ x.pre.sequence = 211 ∧
        (x.pre.storage.proposals.lookup 1).map Proposal.created_at_ledger = some 100 ∧
        (x.pre.storage.proposals.lookup 2).map Proposal.args = some [.u32 50] := by
    decide +kernel
  rintro x hx ⟨new_ttl, p, hsets, hp, hlong⟩
  obtain ⟨id, q, hid, hq, _, hargs⟩ := hsets.executed
  rcases hexecuted x hx with hnone | ⟨hsome, hsequence, hcreated, hvalue⟩
  · cases hnone.symm.trans hid
  obtain rfl := Option.some.inj (hsome.symm.trans hid)
  rw [hp, Option.map_some, Option.some.injEq] at hcreated
  rw [hq, Option.map_some, Option.some.injEq] at hvalue
  rw [hvalue, List.getElem?_cons_zero, Option.some.injEq] at hargs
  cases hargs
  omega

/-- The owners raise the time to live to 1000, and the proposal executes. -/
theorem expired_proposal_executes :
    ¬ ∀ (P : Platform) (d : Deployment) (w0 w w' : State) (before after : List Tx) (id : Nat),
      Genesis w0 → Runs P d w0 before w → Runs P d w after w' → Expired w id →
      ∀ x ∈ after, ¬ x.Executes id := by
  intro h
  have hexecutes : Tx.Executes (governance.txAfter expiredWorld (newTtl 1000) (executes 1)) 1 :=
    ⟨_, _, _, Contract.txAfter_calls (by decide +kernel)⟩
  exact h platform deployed deployment _ _ _ _ 1 deployment_genesis leftToExpire_runs
    (Contract.script_runs_split (newTtl 1000) (executes 1) [] (by decide +kernel))
    leftToExpire_expired _ (List.mem_append_right _ List.mem_cons_self) hexecutes

end

end StellarAgent.Governance
