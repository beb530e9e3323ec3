import StellarAgent.Governance.Effects

set_option autoImplicit false

/-! # The life of a proposal, and the parameters around it

Seen from one proposal, a step leaves it alone, makes it, adds an approval, executes it or
cancels it (`step_life`); seen from the parameters, a step keeps them, initializes the contract,
or executes a proposal that changes one of them (`step_governed`). Ids are handed out in
ascending order, so a proposal is made once (`Numbered`).
-/

namespace StellarAgent.Governance

open Lib Soroban

/-! ## What a transaction does -/

/-- The transaction is an `execute` of proposal `id` that returned. -/
def Tx.Executes (x : Tx) (id : Nat) : Prop :=
  ∃ env executor answer, governance.Calls x env (.execute executor id answer)

/-- The transaction is a `cancel` of proposal `id` that returned. -/
def Tx.Cancels (x : Tx) (id : Nat) : Prop :=
  ∃ env caller, governance.Calls x env (.cancel caller id)

/-- The transaction records the approval of `owner` for proposal `id`: an `approve`, or the
`propose` that made it. -/
def Tx.Approves (x : Tx) (id : Nat) (owner : Address) : Prop :=
  ∃ env, governance.Calls x env (.approve owner id) ∨
    x.pre.storage.next_proposal_id = some id ∧ ∃ target action args title description,
      governance.Calls x env (.propose owner target action args title description)

/-- The transaction executes a proposal to this contract with the given action and arguments. -/
def Tx.Performs (x : Tx) (action : String) (args : List Val → Prop) : Prop :=
  ∃ env executor id answer p, governance.Calls x env (.execute executor id answer) ∧
    x.pre.storage.proposals.lookup id = some p ∧ p.target = env.self ∧ p.action = action ∧
    args p.args

/-- The transaction executes a proposal to rotate the owners. -/
def Tx.Rotates (x : Tx) (owners : List Address) (threshold : Nat) : Prop :=
  x.Performs "rotate_owners" fun args =>
    args[0]? = some (.addresses owners) ∧ args[1]? = some (.u32 threshold)

/-- The transaction executes a proposal to change the time to live. -/
def Tx.SetsTtl (x : Tx) (new_ttl : Nat) : Prop :=
  x.Performs "set_proposal_ttl" fun args => args[0]? = some (.u32 new_ttl)

/-- The address that an action tries to record as an approver. -/
def approverOf : Action Call → Option Address
  | .invoke _ (.approve owner _) => some owner
  | .invoke _ (.propose proposer _ _ _ _ _) => some proposer
  | _ => none

theorem Tx.Approves.approver {x : Tx} {id : Nat} {owner : Address} (h : x.Approves id owner) :
    approverOf x.act = some owner := by
  obtain ⟨env, ⟨hact, _⟩ | ⟨_, _, _, _, _, _, hact, _⟩⟩ := h
  · rw [hact]
    rfl
  · rw [hact]
    rfl

/-- The proposal that an action tries to execute. -/
def executedId : Action Call → Option Nat
  | .invoke _ (.execute _ id _) => some id
  | _ => none

theorem Tx.Performs.executed {x : Tx} {action : String} {args : List Val → Prop}
    (h : x.Performs action args) : ∃ id p, executedId x.act = some id ∧
      x.pre.storage.proposals.lookup id = some p ∧ p.action = action ∧ args p.args := by
  obtain ⟨env, executor, id, answer, p, ⟨hact, _⟩, hp, _, haction, hargs⟩ := h
  refine ⟨id, p, ?_, hp, haction, hargs⟩
  rw [hact]
  rfl

/-- A quorum has been found for the proposal, and its timelock has started. -/
def Quorate (w : State) (id : Nat) : Prop :=
  ∃ p, w.storage.proposals.lookup id = some p ∧ p.eta_ledger ≠ none

/-! ## Ids -/

/-- Ids are handed out in ascending order, from the initialization on. -/
structure Numbered (s : Storage) : Prop where
  lt_next : ∀ id p, s.proposals.lookup id = some p → ∃ n, s.next_proposal_id = some n ∧ id < n
  uninitialized : s.initialized = none → s.next_proposal_id = none

theorem Numbered.initialized {s : Storage} (h : Numbered s) {id : Nat} {p : Proposal}
    (hp : s.proposals.lookup id = some p) : s.initialized ≠ none := by
  intro hnone
  obtain ⟨n, hn, _⟩ := h.lt_next id p hp
  rw [h.uninitialized hnone] at hn
  cases hn

/-- The next id is free. -/
theorem Numbered.fresh {s : Storage} (h : Numbered s) {id : Nat}
    (hnext : s.next_proposal_id = some id) : s.proposals.lookup id = none := by
  cases hp : s.proposals.lookup id with
  | none => rfl
  | some p =>
      obtain ⟨n, hn, hlt⟩ := h.lt_next id p hp
      obtain rfl := Option.some.inj (hnext.symm.trans hn)
      exact absurd hlt (lt_irrefl _)

/-- Replacing the record of a proposal that exists hands out no id. -/
theorem Numbered.withProposal {s : Storage} (h : Numbered s) {id : Nat} {p q : Proposal}
    (hp : s.proposals.lookup id = some p) : Numbered (s.withProposal id q) where
  lt_next := Map.forall_insert (fun id' q' _ hq' => h.lt_next id' q' hq') (h.lt_next id p hp)
  uninitialized := h.uninitialized

theorem Numbered.performs {self : Address} {p : Proposal} {s s' : Storage} (h : Numbered s)
    (hperforms : Performs self p s s') : Numbered s' := by
  cases hperforms with
  | external _ => exact h
  | rotated _ _ _ _ _ => exact ⟨h.lt_next, h.uninitialized⟩
  | timelock _ _ _ => exact ⟨h.lt_next, h.uninitialized⟩
  | ttl _ _ _ => exact ⟨h.lt_next, h.uninitialized⟩

theorem Numbered.effect {env : Env} {w : State} {call : Call} {s : Storage}
    (h : Numbered w.storage) (heffect : Effect env w call s) : Numbered s := by
  cases heffect with
  | initialized fresh _ =>
      refine ⟨fun id p hp => absurd fresh (h.initialized hp), fun hnone => ?_⟩
      cases hnone
  | @proposed _ _ _ _ _ _ id _ _ next =>
      have hinit : w.storage.initialized ≠ none := by
        intro hnone
        rw [h.uninitialized hnone] at next
        cases next
      refine ⟨Map.forall_insert (fun id' q _ hq => ?_) ⟨_, rfl, Nat.lt_succ_self _⟩,
        fun hnone => absurd hnone hinit⟩
      obtain ⟨n, hn, hlt⟩ := h.lt_next id' q hq
      obtain rfl := Option.some.inj (next.symm.trans hn)
      exact ⟨_, rfl, Nat.lt_succ_of_lt hlt⟩
  | @approved _ id p _ _ found _ _ =>
      exact ⟨(h.withProposal (q := marked w _ p) found).lt_next, h.uninitialized⟩
  | executed found _ _ _ _ _ performs => exact (h.withProposal found).performs performs
  | cancelled found _ => exact h.withProposal found

section

variable {P : Platform} {d : Deployment} {w w0 w' : State} {a : Action Call} {tr : List Tx}

theorem Numbered.step (h : Numbered w.storage) (hst : Step P d w a w') : Numbered w'.storage := by
  rcases (step_effect hst).2 with ⟨hsame, _⟩ | ⟨env, call, _, heffect⟩
  · rw [hsame]
    exact h
  · exact h.effect heffect

theorem Numbered.run (h0 : Genesis w0) (h : Runs P d w0 tr w) : Numbered w.storage := by
  refine h.invariant (I := fun m => Numbered m.storage) ?_ (fun m a m' hI hst => hI.step hst)
  rw [h0]
  exact ⟨fun id p hp => absurd hp (by simp [Storage.fresh]), fun _ => rfl⟩

/-! ## One proposal in one step -/

/-- Who decides, and how fast. -/
structure Parameters where
  owners : Option (List Address)
  threshold : Option Nat
  timelock_delay : Option Nat
  proposal_ttl : Option Nat

def Storage.parameters (s : Storage) : Parameters where
  owners := s.owners
  threshold := s.threshold
  timelock_delay := s.timelock_delay
  proposal_ttl := s.proposal_ttl

/-- What a transaction does to proposal `id`. -/
inductive Life (x : Tx) (id : Nat) : Prop
  | untouched (record : x.post.storage.proposals.lookup id = x.pre.storage.proposals.lookup id)
      (approvals : getApprovals x.post id = getApprovals x.pre id)
      (idle : ¬ x.Executes id)
  | made {p : Proposal} {proposer : Address} (approves : x.Approves id proposer)
      (owner : proposer ∈ getOwners x.pre)
      (before : x.pre.storage.proposals.lookup id = none) (unmarked : p.approved_at_ledger = none)
      (no_eta : p.eta_ledger = none) (created : p.created_at_ledger = x.pre.sequence)
      (record : x.post.storage.proposals.lookup id = some (marked x.pre 1 p))
      (approvals : getApprovals x.post id = [proposer])
      (parameters : x.post.storage.parameters = x.pre.storage.parameters)
  | approved {p : Proposal} {owner : Address} (approves : x.Approves id owner)
      (owner_mem : owner ∈ getOwners x.pre)
      (before : x.pre.storage.proposals.lookup id = some p)
      (live : p.status = .Pending ∨ p.status = .Approved)
      (fresh : hasApproved x.pre id owner = false)
      (record : x.post.storage.proposals.lookup id
        = some (marked x.pre ((getApprovals x.pre id).length + 1) p))
      (approvals : getApprovals x.post id = getApprovals x.pre id ++ [owner])
      (parameters : x.post.storage.parameters = x.pre.storage.parameters)
      (idle : ¬ x.Executes id)
  | executed {p : Proposal} {eta : Nat} (executes : x.Executes id)
      (before : x.pre.storage.proposals.lookup id = some p) (unexecuted : p.status ≠ .Executed)
      (alive : x.pre.sequence ≤ p.created_at_ledger + getProposalTtl x.pre)
      (quorum : getThreshold x.pre ≤ (getApprovals x.pre id).length)
      (eta_eq : p.eta_ledger = some eta) (elapsed : eta ≤ x.pre.sequence)
      (record : x.post.storage.proposals.lookup id = some (executedAt x.pre.sequence p))
      (approvals : getApprovals x.post id = getApprovals x.pre id)
  | cancelled {p : Proposal} (cancels : x.Cancels id)
      (before : x.pre.storage.proposals.lookup id = some p) (unexecuted : p.status ≠ .Executed)
      (record : x.post.storage.proposals.lookup id = some (cancelled p))
      (approvals : getApprovals x.post id = getApprovals x.pre id) (idle : ¬ x.Executes id)

theorem Performs.proposals_eq {self : Address} {p : Proposal} {s s' : Storage}
    (h : Performs self p s s') : s'.proposals = s.proposals ∧ s'.approvals = s.approvals ∧
      s'.has_approved = s.has_approved := by
  cases h <;> exact ⟨rfl, rfl, rfl⟩

theorem lookup_withProposal (s : Storage) (id id' : Nat) (p : Proposal) :
    (s.withProposal id p).proposals.lookup id'
      = if id' = id then some p else s.proposals.lookup id' :=
  Map.lookup_insert_eq_ite id id' p s.proposals

/-- A call that is not `execute id` executes nothing of `id`. -/
theorem not_executes {x : Tx} {env : Env} {call : Call} (hcalls : governance.Calls x env call)
    {id : Nat} (hne : ∀ executor answer, call ≠ .execute executor id answer) : ¬ x.Executes id := by
  rintro ⟨env', executor, answer, hcalls'⟩
  exact hne executor answer (hcalls.unique hcalls').2.symm

/-- Approving is not executing. -/
theorem Tx.Approves.not_executes {x : Tx} {id : Nat} {owner : Address}
    (h : x.Approves id owner) : ¬ x.Executes id := by
  rintro ⟨env, executor, answer, hcalls⟩
  obtain ⟨_, hcalls' | ⟨_, _, _, _, _, _, hcalls'⟩⟩ := h
  · cases (hcalls.unique hcalls').2
  · cases (hcalls.unique hcalls').2

theorem getApprovals_of_insert {m : State} {s : Storage} {id : Nat} {approvals : List Address}
    (h : m.storage.approvals = s.approvals.insert id approvals) (id' : Nat) :
    getApprovals m id' = if id' = id then approvals else (s.approvals.lookup id').getD [] := by
  unfold getApprovals
  rw [h, Map.lookup_insert_eq_ite]
  split <;> rfl

/-- **A step, seen from one proposal.** -/
theorem step_life (h : Numbered w.storage) (hst : Step P d w a w') (id : Nat) :
    Life ⟨w, a, w'⟩ id := by
  rcases (step_effect hst).2 with ⟨hsame, hnocall⟩ | ⟨env, call, hcalls, heffect⟩
  · refine .untouched (congrArg (fun s => s.proposals.lookup id) hsame)
      (congrArg (fun s => (s.approvals.lookup id).getD []) hsame) ?_
    rintro ⟨env, executor, answer, hcalls⟩
    exact hnocall _ _ hcalls
  generalize hs : w'.storage = s at heffect
  have hparameters : w'.storage.parameters = s.parameters := congrArg Storage.parameters hs
  cases heffect with
  | initialized _ _ =>
      exact .untouched (congrArg (fun s => s.proposals.lookup id) hs)
        (congrArg (fun s => (s.approvals.lookup id).getD []) hs)
        (not_executes hcalls (by intro _ _ hc; cases hc))
  | @proposed proposer target action args title description id' auth owner next =>
      have hrecord := congrArg (fun s => s.proposals.lookup id) hs
      have happrovals := getApprovals_of_insert (congrArg Storage.approvals hs) id
      dsimp only at hrecord
      rw [Map.lookup_insert_eq_ite] at hrecord
      by_cases hid : id = id'
      · subst hid
        rw [if_pos rfl] at hrecord happrovals
        exact .made ⟨env, .inr ⟨next, target, action, args, title, description, hcalls⟩⟩ owner
          (h.fresh next) rfl rfl rfl hrecord happrovals hparameters
      · rw [if_neg hid] at hrecord happrovals
        exact .untouched hrecord happrovals (not_executes hcalls (by intro _ _ hc; cases hc))
  | @approved owner id' p auth owner_mem found live fresh =>
      have hrecord := congrArg (fun s => s.proposals.lookup id) hs
      have happrovals := getApprovals_of_insert (congrArg Storage.approvals hs) id
      have hidle : ¬ Tx.Executes ⟨w, a, w'⟩ id :=
        not_executes hcalls (by intro _ _ hc; cases hc)
      dsimp only at hrecord
      rw [Map.lookup_insert_eq_ite] at hrecord
      by_cases hid : id = id'
      · subst hid
        rw [if_pos rfl] at hrecord happrovals
        exact .approved ⟨env, .inl hcalls⟩ owner_mem found live fresh hrecord happrovals
          hparameters hidle
      · rw [if_neg hid] at hrecord happrovals
        exact .untouched hrecord happrovals hidle
  | @executed executor id' eta answer p s found unexecuted alive quorum eta_eq elapsed performs =>
      obtain ⟨hproposals, hkept, _⟩ := performs.proposals_eq
      have hrecord : w'.storage.proposals.lookup id
          = if id = id' then some (executedAt w.sequence p)
            else w.storage.proposals.lookup id := by
        rw [hs, hproposals, lookup_withProposal]
      have happrovals : getApprovals w' id = getApprovals w id := by
        unfold getApprovals
        rw [hs, hkept]
        rfl
      by_cases hid : id = id'
      · subst hid
        rw [if_pos rfl] at hrecord
        exact .executed ⟨env, executor, answer, hcalls⟩ found unexecuted alive quorum eta_eq
          elapsed hrecord happrovals
      · rw [if_neg hid] at hrecord
        refine .untouched hrecord happrovals (not_executes hcalls ?_)
        intro _ _ hc
        cases hc
        exact hid rfl
  | @cancelled caller id' p found unexecuted =>
      have hrecord : w'.storage.proposals.lookup id
          = if id = id' then some (cancelled p) else w.storage.proposals.lookup id := by
        rw [hs, lookup_withProposal]
      have happrovals : getApprovals w' id = getApprovals w id := by
        unfold getApprovals
        rw [hs]
        rfl
      have hidle : ¬ Tx.Executes ⟨w, a, w'⟩ id :=
        not_executes hcalls (by intro _ _ hc; cases hc)
      by_cases hid : id = id'
      · subst hid
        rw [if_pos rfl] at hrecord
        exact .cancelled ⟨env, caller, hcalls⟩ found unexecuted hrecord happrovals hidle
      · rw [if_neg hid] at hrecord
        exact .untouched hrecord happrovals hidle

/-! ## The parameters in one step -/

/-- What an execution has found, and what it leaves. -/
theorem Tx.Executes.found {id : Nat} (hn : Numbered w.storage) (hst : Step P d w a w')
    (h : Tx.Executes ⟨w, a, w'⟩ id) :
    ∃ p eta, w.storage.proposals.lookup id = some p ∧
      getThreshold w ≤ (getApprovals w id).length ∧ p.eta_ledger = some eta ∧ eta ≤ w.sequence ∧
      w'.storage.proposals.lookup id = some (executedAt w.sequence p) := by
  cases step_life hn hst id with
  | executed _ before _ _ quorum eta_eq elapsed record _ =>
      exact ⟨_, _, before, quorum, eta_eq, elapsed, record⟩
  | untouched _ _ idle => exact absurd h idle
  | approved _ _ _ _ _ _ _ _ idle => exact absurd h idle
  | cancelled _ _ _ _ _ idle => exact absurd h idle
  | made approves _ _ _ _ _ _ _ _ => exact absurd h approves.not_executes

/-- What a transaction does to the parameters. -/
inductive Governed (x : Tx) : Prop
  | kept (parameters : x.post.storage.parameters = x.pre.storage.parameters)
  | initialized (fresh : x.pre.storage.initialized = none)
  | rotated {owners : List Address} {threshold : Nat} (rotates : x.Rotates owners threshold)
      (valid : ValidOwners owners threshold)
      (parameters : x.post.storage.parameters = { x.pre.storage.parameters with
        owners := some owners, threshold := some threshold })
  | timelock {new_timelock : Nat} (parameters : x.post.storage.parameters
      = { x.pre.storage.parameters with timelock_delay := some new_timelock })
  | ttl {new_ttl : Nat} (sets : x.SetsTtl new_ttl) (parameters : x.post.storage.parameters
      = { x.pre.storage.parameters with proposal_ttl := some new_ttl })

/-- **A step, seen from the parameters.** -/
theorem step_governed (hst : Step P d w a w') : Governed ⟨w, a, w'⟩ := by
  rcases (step_effect hst).2 with ⟨hsame, _⟩ | ⟨env, call, hcalls, heffect⟩
  · exact .kept (congrArg Storage.parameters hsame)
  generalize hs : w'.storage = s at heffect
  have hparameters : w'.storage.parameters = s.parameters := congrArg Storage.parameters hs
  cases heffect with
  | initialized fresh _ => exact .initialized fresh
  | proposed _ _ _ => exact .kept hparameters
  | approved _ _ _ _ _ => exact .kept hparameters
  | cancelled _ _ => exact .kept hparameters
  | @executed executor id eta answer p s found _ _ _ _ _ performs =>
      cases performs with
      | external _ => exact .kept hparameters
      | rotated target action owners_arg threshold_arg valid =>
          exact .rotated ⟨env, executor, id, answer, p, hcalls, found, target, action, owners_arg,
            threshold_arg⟩ valid hparameters
      | timelock _ _ _ => exact .timelock hparameters
      | ttl target action arg =>
          exact .ttl ⟨env, executor, id, answer, p, hcalls, found, target, action, arg⟩ hparameters

end

/-! ## Three owners on the local network

The scripts of this contract are written in these lines. -/

section

open LocalNet

/-- A fresh contract on the local network. -/
def deployment : State := start Event Storage.fresh

theorem deployment_genesis : Genesis deployment := rfl

abbrev Line := Move platform deployed Call

/-- Three owners, two of them needed, a timelock of 10 ledgers and 100 ledgers to live. -/
def setsUp : Line :=
  signed [] (.initializeGovernance [account 1, account 2, account 3] 2 10 100)

/-- Owner `n` proposes a call of the circuit breaker. -/
def proposesCall (n : Nat) : Line :=
  signed [account n] (.propose (account n) breaker "execute_pause" [] "" "")

/-- Owner `n` proposes to change this contract. -/
def proposesChange (n : Nat) (action : String) (args : List Val) : Line :=
  signed [account n] (.propose (account n) contract action args "" "")

def approves (n id : Nat) : Line := signed [account n] (.approve (account n) id)

def executes (id : Nat) : Line := signed [stranger] (.execute stranger id (some ()))

def cancels (n id : Nat) : Line := signed [account n] (.cancel (account n) id)

end

end StellarAgent.Governance
