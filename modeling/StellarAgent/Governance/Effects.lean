import StellarAgent.Governance.Contract

set_option autoImplicit false

/-! # What a successful governance call has done

`Effect env w call s`: a call that returns turns the storage of `w` into `s`, and what had to hold
for it. Every later result reads a step off this list (`step_effect`).
-/

namespace StellarAgent.Governance

open Lib Soroban

/-! ## Owner sets and quorum marks -/

/-- The owner sets that the contract accepts. -/
structure ValidOwners (owners : List Address) (threshold : Nat) : Prop where
  nodup : owners.Nodup
  positive : 0 < threshold
  le_length : threshold ≤ owners.length

theorem hasDuplicate_eq_false {owners : List Address} (h : hasDuplicate owners = false) :
    owners.Nodup := by
  induction owners with
  | nil => exact List.nodup_nil
  | cons owner owners ih =>
      rw [hasDuplicate, Bool.or_eq_false_iff] at h
      obtain ⟨hcontains, hrest⟩ := h
      refine List.nodup_cons.mpr ⟨?_, ih hrest⟩
      simpa using hcontains

theorem validateOwnersAndThreshold_ok {owners : List Address} {threshold : Nat} {u : Unit}
    (h : validateOwnersAndThreshold owners threshold = .ok u) : ValidOwners owners threshold := by
  simp only [validateOwnersAndThreshold, Result.bind_eq_ok, errIf_eq_ok] at h
  obtain ⟨_, _, _, hthreshold, hdup⟩ := h
  rw [Bool.not_eq_true] at hdup
  exact ⟨hasDuplicate_eq_false hdup, by omega, by omega⟩

/-- The record of a proposal that has just been made. -/
def draft (w : State) (id : Nat) (proposer target : Address) (action : String) (args : List Val)
    (title description : String) : Proposal where
  id := id
  proposer := proposer
  target := target
  action := action
  args := args
  title := title
  description := description
  status := .Pending
  created_at_ledger := w.sequence
  approved_at_ledger := none
  executed_at_ledger := none
  eta_ledger := none

/-- The record after an approval that makes `count` of them: the first quorum is marked, with the
ledger and the end of the timelock. -/
def marked (w : State) (count : Nat) (proposal : Proposal) : Proposal :=
  if getThreshold w ≤ count ∧ proposal.approved_at_ledger = none then
    { proposal with
      status := .Approved
      approved_at_ledger := some w.sequence
      eta_ledger := some (w.sequence + getTimelock w) }
  else proposal

section

variable (w : State) (count : Nat) (proposal : Proposal)

@[simp] theorem marked_created :
    (marked w count proposal).created_at_ledger = proposal.created_at_ledger := by
  unfold marked; split <;> rfl

/-- Marking a quorum does not settle a proposal. -/
theorem marked_status (h : proposal.status = .Pending ∨ proposal.status = .Approved) :
    (marked w count proposal).status = .Pending ∨ (marked w count proposal).status = .Approved := by
  unfold marked
  split
  · exact .inr rfl
  · exact h

/-- A mark is never moved. -/
theorem marked_of_some (h : proposal.approved_at_ledger ≠ none) :
    marked w count proposal = proposal := by
  unfold marked
  rw [if_neg (fun hmark => h hmark.2)]

end

/-- The record of a proposal that is executed at ledger `now`. -/
def executedAt (now : Nat) (proposal : Proposal) : Proposal :=
  { proposal with status := .Executed, executed_at_ledger := some now }

/-- The record of a proposal that is cancelled. -/
def cancelled (proposal : Proposal) : Proposal := { proposal with status := .Cancelled }

/-- The storage with another record for proposal `id`. -/
def Storage.withProposal (s : Storage) (id : Nat) (proposal : Proposal) : Storage :=
  { s with proposals := s.proposals.insert id proposal }

/-! ## What an executed proposal does -/

/-- The proposal, once executed, changes the storage `s` in this way. -/
inductive Performs (self : Address) (p : Proposal) (s : Storage) : Storage → Prop
  | external (target : p.target ≠ self) : Performs self p s s
  | rotated {owners : List Address} {threshold : Nat} (target : p.target = self)
      (action : p.action = "rotate_owners") (owners_arg : p.args[0]? = some (.addresses owners))
      (threshold_arg : p.args[1]? = some (.u32 threshold)) (valid : ValidOwners owners threshold) :
      Performs self p s { s with owners := some owners, threshold := some threshold }
  | timelock {new_timelock : Nat} (target : p.target = self) (action : p.action = "set_timelock")
      (arg : p.args[0]? = some (.u32 new_timelock)) :
      Performs self p s { s with timelock_delay := some new_timelock }
  | ttl {new_ttl : Nat} (target : p.target = self) (action : p.action = "set_proposal_ttl")
      (arg : p.args[0]? = some (.u32 new_ttl)) :
      Performs self p s { s with proposal_ttl := some new_ttl }

/-- **What a call that returns has done.** -/
inductive Effect (env : Env) (w : State) : Call → Storage → Prop
  | initialized {owners : List Address} {threshold timelock ttl : Nat}
      (fresh : w.storage.initialized = none) (valid : ValidOwners owners threshold) :
      Effect env w (.initializeGovernance owners threshold timelock ttl) { w.storage with
        initialized := some true
        owners := some owners
        threshold := some threshold
        timelock_delay := some timelock
        proposal_ttl := some ttl
        next_proposal_id := some 1 }
  | proposed {proposer target : Address} {action : String} {args : List Val}
      {title description : String} {id : Nat} (auth : env.authorized proposer = true)
      (owner : proposer ∈ getOwners w) (next : w.storage.next_proposal_id = some id) :
      Effect env w (.propose proposer target action args title description) { w.storage with
        next_proposal_id := some (id + 1)
        approvals := w.storage.approvals.insert id [proposer]
        has_approved := w.storage.has_approved.insert (id, proposer) true
        proposals := w.storage.proposals.insert id
          (marked w 1 (draft w id proposer target action args title description)) }
  | approved {owner : Address} {id : Nat} {p : Proposal} (auth : env.authorized owner = true)
      (owner_mem : owner ∈ getOwners w) (found : w.storage.proposals.lookup id = some p)
      (live : p.status = .Pending ∨ p.status = .Approved)
      (fresh : hasApproved w id owner = false) :
      Effect env w (.approve owner id) { w.storage with
        approvals := w.storage.approvals.insert id (getApprovals w id ++ [owner])
        has_approved := w.storage.has_approved.insert (id, owner) true
        proposals := w.storage.proposals.insert id
          (marked w ((getApprovals w id).length + 1) p) }
  | executed {executor : Address} {id eta : Nat} {answer : Option Unit} {p : Proposal}
      {s : Storage} (found : w.storage.proposals.lookup id = some p)
      (unexecuted : p.status ≠ .Executed)
      (alive : w.sequence ≤ p.created_at_ledger + getProposalTtl w)
      (quorum : getThreshold w ≤ (getApprovals w id).length) (eta_eq : p.eta_ledger = some eta)
      (elapsed : eta ≤ w.sequence)
      (performs : Performs env.self p
        (w.storage.withProposal id (executedAt w.sequence p)) s) :
      Effect env w (.execute executor id answer) s
  | cancelled {caller : Address} {id : Nat} {p : Proposal}
      (found : w.storage.proposals.lookup id = some p) (unexecuted : p.status ≠ .Executed) :
      Effect env w (.cancel caller id) (w.storage.withProposal id (cancelled p))

/-- The events of the last call play no part. -/
theorem Effect.of_quiet {env : Env} {w : State} {call : Call} {s : Storage}
    (h : Effect env w.quiet call s) : Effect env w call s := by
  cases h with
  | initialized fresh valid => exact .initialized fresh valid
  | proposed auth owner next => exact .proposed auth owner next
  | approved auth owner_mem found live fresh => exact .approved auth owner_mem found live fresh
  | executed found unexecuted alive quorum eta_eq elapsed performs =>
      exact .executed found unexecuted alive quorum eta_eq elapsed performs
  | cancelled found unexecuted => exact .cancelled found unexecuted

/-! ## One lemma for each entry point -/

section

variable {env : Env} {w w' : State}

/-- What `get_proposal` returns is the stored record, its status aside. -/
theorem getProposal_some {id : Nat} {p : Proposal} (h : getProposal w id = .ok (some p)) :
    ∃ q, w.storage.proposals.lookup id = some q ∧ p = { q with status := p.status } ∧
      (p.status = q.status ∨
        p.status = .Expired ∧ (q.status = .Pending ∨ q.status = .Approved) ∧
          q.created_at_ledger + getProposalTtl w < w.sequence) := by
  unfold getProposal at h
  split at h
  · cases h
  · rename_i q hq
    split at h
    · rename_i hlive
      simp only [Result.bind_eq_ok, checkU32_eq_ok] at h
      obtain ⟨expiry, ⟨_, rfl⟩, h⟩ := h
      split at h
      · rename_i hexpired
        cases h
        exact ⟨q, hq, rfl, .inr ⟨rfl, hlive, hexpired⟩⟩
      · cases h
        exact ⟨_, hq, rfl, .inl rfl⟩
    · cases h
      exact ⟨_, hq, rfl, .inl rfl⟩

/-- Where the time to live has not passed, it is the stored record. -/
theorem getProposal_alive {id : Nat} {p : Proposal} (h : getProposal w id = .ok (some p))
    (halive : w.sequence ≤ p.created_at_ledger + getProposalTtl w) :
    w.storage.proposals.lookup id = some p := by
  obtain ⟨q, hq, hp, hstatus⟩ := getProposal_some h
  have hcreated : p.created_at_ledger = q.created_at_ledger := by rw [hp]
  rcases hstatus with hsame | ⟨_, _, hexpired⟩
  · rw [hp, hsame]
    exact hq
  · omega

theorem requireAlive_ok {p : Proposal} {u : Unit} (h : requireAlive w p = .ok u) :
    w.sequence ≤ p.created_at_ledger + getProposalTtl w := by
  simp only [requireAlive, Result.bind_eq_ok, checkU32_eq_ok, errIf_eq_ok] at h
  obtain ⟨expiry, ⟨_, rfl⟩, halive⟩ := h
  omega

theorem initializeGovernance_ok {owners : List Address} {threshold timelock ttl : Nat}
    (h : initializeGovernance w owners threshold timelock ttl = .ok w') :
    w'.sequence = w.sequence ∧
      Effect env w (.initializeGovernance owners threshold timelock ttl) w'.storage := by
  simp only [initializeGovernance, Result.bind_eq_ok, errIf_eq_ok, Result.pure_eq_ok, ne_eq,
    not_not] at h
  obtain ⟨_, hfresh, _, hvalid, _, _, _, _, rfl⟩ := h
  exact ⟨rfl, .initialized hfresh (validateOwnersAndThreshold_ok hvalid)⟩

theorem propose_ok {proposer target : Address} {action : String} {args : List Val}
    {title description : String} {id : Nat}
    (h : propose env w proposer target action args title description = .ok (id, w')) :
    w'.sequence = w.sequence ∧
      Effect env w (.propose proposer target action args title description) w'.storage := by
  simp only [propose, Result.bind_eq_ok, requireAuth_eq_ok, errIf_eq_ok, unwrap_eq_ok,
    checkU32_eq_ok, not_not] at h
  obtain ⟨_, _, _, hauth, _, howner, n, hnext, _, ⟨_, rfl⟩, ⟨status, approved_at, eta⟩, hmark,
    h⟩ := h
  have heffect : Effect env w (.propose proposer target action args title description) _ :=
    .proposed hauth howner hnext
  -- the record with its mark, as the code builds it
  have hmarked : marked w 1 (draft w n proposer target action args title description)
      = { draft w n proposer target action args title description with
          status := status, approved_at_ledger := approved_at, eta_ledger := eta } := by
    split at hmark
    · rename_i hquorum
      have hquorum' : getThreshold w ≤ 1 := hquorum
      simp only [Result.bind_eq_ok, checkU32_eq_ok, Result.pure_eq_ok, Prod.mk.injEq] at hmark
      obtain ⟨_, ⟨_, rfl⟩, rfl, rfl, rfl⟩ := hmark
      rw [marked, if_pos ⟨hquorum', rfl⟩]
      rfl
    · rename_i hquorum
      have hquorum' : ¬ getThreshold w ≤ 1 := hquorum
      simp only [Result.pure_eq_ok, Prod.mk.injEq] at hmark
      obtain ⟨rfl, rfl, rfl⟩ := hmark
      rw [marked, if_neg (fun h => hquorum' h.1)]
      rfl
  rw [hmarked] at heffect
  split at h
  · simp only [Result.bind_eq_ok, unwrap_eq_ok, Result.pure_eq_ok, Prod.mk.injEq] at h
    obtain ⟨_, _, _, rfl⟩ := h
    exact ⟨rfl, heffect⟩
  · simp only [Result.pure_eq_ok, Prod.mk.injEq] at h
    obtain ⟨_, rfl⟩ := h
    exact ⟨rfl, heffect⟩

theorem approve_ok {owner : Address} {id : Nat} (h : approve env w owner id = .ok w') :
    w'.sequence = w.sequence ∧ Effect env w (.approve owner id) w'.storage := by
  simp only [approve, Result.bind_eq_ok, requireAuth_eq_ok, errIf_eq_ok, okOr_eq_ok,
    Result.pure_eq_ok, not_not] at h
  obtain ⟨_, _, _, hauth, _, howner, found, hget, p, rfl, _, halive, _, hlive, _, hfresh,
    ⟨q, w1⟩, hmark, rfl⟩ := h
  have hfound := getProposal_alive hget (requireAlive_ok halive)
  have hlive' : p.status = .Pending ∨ p.status = .Approved := by
    by_contra hnot
    exact hlive (not_or.mp hnot)
  rw [Bool.not_eq_true] at hfresh
  have heffect : Effect env w (.approve owner id) _ := .approved hauth howner hfound hlive' hfresh
  have hlength : (getApprovals w id ++ [owner]).length = (getApprovals w id).length + 1 :=
    List.length_append
  rw [hlength] at hmark
  split at hmark
  · rename_i hquorum
    simp only [Result.bind_eq_ok, checkU32_eq_ok, Result.pure_eq_ok, Prod.mk.injEq] at hmark
    obtain ⟨_, ⟨_, rfl⟩, rfl, rfl⟩ := hmark
    have hquorum' : getThreshold w ≤ (getApprovals w id).length + 1 ∧
      p.approved_at_ledger = none := hquorum
    rw [marked, if_pos hquorum'] at heffect
    exact ⟨rfl, heffect⟩
  · rename_i hquorum
    simp only [Result.pure_eq_ok, Prod.mk.injEq] at hmark
    obtain ⟨rfl, rfl⟩ := hmark
    have hquorum' : ¬ (getThreshold w ≤ (getApprovals w id).length + 1 ∧
      p.approved_at_ledger = none) := hquorum
    rw [marked, if_neg hquorum'] at heffect
    exact ⟨rfl, heffect⟩

theorem addressesArg_ok {args : List Val} {i : Nat} {owners : List Address}
    (h : addressesArg args i = .ok owners) : args[i]? = some (.addresses owners) := by
  unfold addressesArg at h
  split at h
  · rename_i value harg
    cases h
    exact harg
  · cases h
  · cases h

theorem u32Arg_ok {args : List Val} {i n : Nat} (h : u32Arg args i = .ok n) :
    args[i]? = some (.u32 n) := by
  unfold u32Arg at h
  split at h
  · rename_i value harg
    cases h
    exact harg
  · cases h
  · cases h

theorem executeInternalAction_ok {p : Proposal} {self : Address} (htarget : p.target = self)
    (h : executeInternalAction w p.action p.args = .ok w') :
    w'.sequence = w.sequence ∧ Performs self p w.storage w'.storage := by
  unfold executeInternalAction at h
  split at h
  · rename_i haction
    simp only [doRotateOwners, Result.bind_eq_ok, Result.pure_eq_ok] at h
    obtain ⟨owners, howners, threshold, hthreshold, _, hvalid, rfl⟩ := h
    exact ⟨rfl, .rotated htarget haction (addressesArg_ok howners) (u32Arg_ok hthreshold)
      (validateOwnersAndThreshold_ok hvalid)⟩
  · split at h
    · rename_i haction
      simp only [doSetTimelock, Result.bind_eq_ok, Result.pure_eq_ok] at h
      obtain ⟨timelock, htimelock, _, _, rfl⟩ := h
      exact ⟨rfl, .timelock htarget haction (u32Arg_ok htimelock)⟩
    · split at h
      · rename_i haction
        simp only [doSetProposalTtl, Result.bind_eq_ok, Result.pure_eq_ok] at h
        obtain ⟨ttl, httl, _, _, rfl⟩ := h
        exact ⟨rfl, .ttl htarget haction (u32Arg_ok httl)⟩
      · cases h

theorem execute_ok {executor : Address} {id : Nat} {answer : Option Unit}
    (h : execute env w executor id answer = .ok w') :
    w'.sequence = w.sequence ∧ Effect env w (.execute executor id answer) w'.storage := by
  simp only [execute, Result.bind_eq_ok, requireAuth_eq_ok, errIf_eq_ok, okOr_eq_ok,
    Result.pure_eq_ok] at h
  obtain ⟨_, _, _, _, found, hget, p, rfl, _, hunexecuted, _, halive, _, hquorum, eta, heta, _,
    helapsed, w1, hperforms, rfl⟩ := h
  have hlive := requireAlive_ok halive
  have hfound := getProposal_alive hget hlive
  have hdone : w1.sequence = w.sequence ∧ Performs env.self p
      (w.storage.withProposal id (executedAt w.sequence p)) w1.storage := by
    split at hperforms
    · rename_i htarget
      exact executeInternalAction_ok htarget hperforms
    · rename_i htarget
      simp only [Result.bind_eq_ok, Result.pure_eq_ok] at hperforms
      obtain ⟨_, _, rfl⟩ := hperforms
      exact ⟨rfl, .external htarget⟩
  exact ⟨hdone.1, .executed hfound hunexecuted hlive (not_lt.mp hquorum) heta
    (not_lt.mp helapsed) hdone.2⟩

theorem cancel_ok {caller : Address} {id : Nat} (h : cancel env w caller id = .ok w') :
    w'.sequence = w.sequence ∧ Effect env w (.cancel caller id) w'.storage := by
  simp only [cancel, Result.bind_eq_ok, requireAuth_eq_ok, errIf_eq_ok, okOr_eq_ok,
    Result.pure_eq_ok] at h
  obtain ⟨_, _, _, _, found, hget, p, rfl, _, _, _, hunexecuted, rfl⟩ := h
  obtain ⟨q, hq, hp, hstatus⟩ := getProposal_some hget
  -- the status it had read is overwritten
  have hrecord : cancelled p = cancelled q := by
    rw [hp]
    rfl
  have hunexecuted' : q.status ≠ .Executed := by
    rcases hstatus with hsame | ⟨_, hlive, _⟩
    · rw [← hsame]
      exact hunexecuted
    · intro hexecuted
      rw [hexecuted] at hlive
      rcases hlive with h | h <;> cases h
  have heffect : Effect env w (.cancel caller id) _ := .cancelled hq hunexecuted'
  rw [← hrecord] at heffect
  exact ⟨rfl, heffect⟩

theorem exec_effect {call : Call} (h : exec env w call = .ok w') :
    w'.sequence = w.sequence ∧ Effect env w call w'.storage := by
  cases call with
  | initializeGovernance owners threshold timelock ttl => exact initializeGovernance_ok h
  | propose proposer target action args title description =>
      simp only [exec, Result.map_eq_ok] at h
      obtain ⟨⟨id, w1⟩, h, rfl⟩ := h
      exact propose_ok h
  | approve owner id => exact approve_ok h
  | execute executor id answer => exact execute_ok h
  | cancel caller id => exact cancel_ok h
  | rotateOwners _ _ => cases h
  | setTimelock _ => cases h
  | setProposalTtl _ => cases h

end

/-! ## Steps -/

/-- **What a step can be**: it keeps the storage and is no call that returned, or it is such a
call with its effect. Ledgers never go back. -/
theorem step_effect {P : Platform} {d : Deployment} {w w' : State} {a : Action Call}
    (h : Step P d w a w') :
    w.sequence ≤ w'.sequence ∧
      ((w'.storage = w.storage ∧ ∀ env call, ¬ governance.Calls ⟨w, a, w'⟩ env call) ∨
        ∃ env call, governance.Calls ⟨w, a, w'⟩ env call ∧ Effect env w call w'.storage) := by
  rcases Contract.step_cases h with
    ⟨hstorage, hsequence, _, _, hnocall⟩ | ⟨env, call, hact, _, _, hexec⟩
  · exact ⟨hsequence, .inl ⟨hstorage, hnocall⟩⟩
  · obtain ⟨hsequence, heffect⟩ := exec_effect hexec
    exact ⟨hsequence.ge, .inr ⟨env, call, ⟨hact, hexec⟩, heffect.of_quiet⟩⟩

end StellarAgent.Governance
