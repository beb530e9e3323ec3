import StellarAgent.Governance.Proposals
import StellarAgent.Lib.Quorum

set_option autoImplicit false

/-! # Who stands behind an execution

The approvals of a proposal are different addresses, each of which was an owner when it approved:
the flags `HasApproved` keep an owner from being recorded twice. `execute` compares the length of
the list with the threshold, and a rotation leaves the list alone. So the approvals come from
current owners as long as no rotation drops an owner who has approved (`DropsApprover`).
-/

namespace StellarAgent.Governance

open Lib Soroban

/-- Every recorded approver has its flag set. -/
def Flagged (w : State) : Prop := ∀ id a, a ∈ getApprovals w id → hasApproved w id a = true

/-- The approvals of the proposal, if it exists, are those of different owners, and each of them
was given in the history. -/
def Endorsed (id : Nat) (tr : List Tx) (w : State) : Prop :=
  ∀ p, w.storage.proposals.lookup id = some p →
    (getApprovals w id).Nodup ∧
      ∀ a ∈ getApprovals w id, a ∈ getOwners w ∧ ∃ y ∈ tr, y.Approves id a

/-- The transaction rotates an owner out who has approved the proposal. -/
def Tx.DropsApprover (x : Tx) (id : Nat) : Prop :=
  ∃ owners threshold, x.Rotates owners threshold ∧ ∃ a ∈ getApprovals x.pre id, a ∉ owners

section

variable {P : Platform} {d : Deployment} {w0 w w' : State} {a : Action Call} {x : Tx}
  {tr before after : List Tx} {id : Nat}

/-! ## Flags -/

theorem hasApproved_insert {m : State} {s : Storage} {id : Nat} {owner : Address}
    (h : m.storage.has_approved = s.has_approved.insert (id, owner) true) (id' : Nat)
    (a : Address) : hasApproved m id' a
      = if (id', a) = (id, owner) then true else (s.has_approved.lookup (id', a)).getD false := by
  unfold hasApproved
  rw [h, Map.lookup_insert_eq_ite]
  split <;> rfl

/-- Recording one more approver together with its flag. -/
theorem Flagged.record {m : State} {owner : Address} {approvals : List Address}
    (h : Flagged w) (hlist : m.storage.approvals = w.storage.approvals.insert id approvals)
    (hflag : m.storage.has_approved = w.storage.has_approved.insert (id, owner) true)
    (hsub : ∀ a ∈ approvals, a ∈ getApprovals w id ∨ a = owner) : Flagged m := by
  intro id' a ha
  rw [hasApproved_insert hflag]
  by_cases hkey : (id', a) = (id, owner)
  · rw [if_pos hkey]
  rw [if_neg hkey]
  rw [getApprovals_of_insert hlist] at ha
  by_cases hid : id' = id
  · subst hid
    rw [if_pos rfl] at ha
    rcases hsub a ha with hold | rfl
    · exact h _ a hold
    · exact absurd rfl hkey
  · rw [if_neg hid] at ha
    exact h id' a ha

theorem Flagged.congr {m : State} (h : Flagged w)
    (hlist : m.storage.approvals = w.storage.approvals)
    (hflag : m.storage.has_approved = w.storage.has_approved) : Flagged m := by
  intro id a ha
  unfold getApprovals at ha
  unfold hasApproved
  rw [hlist] at ha
  rw [hflag]
  exact h id a ha

theorem Flagged.step (h : Flagged w) (hst : Step P d w a w') : Flagged w' := by
  rcases (step_effect hst).2 with ⟨hsame, _⟩ | ⟨env, call, _, heffect⟩
  · exact h.congr (by rw [hsame]) (by rw [hsame])
  generalize hs : w'.storage = s at heffect
  cases heffect with
  | initialized _ _ => exact h.congr (by rw [hs]) (by rw [hs])
  | proposed _ _ _ =>
      refine h.record (congrArg Storage.approvals hs) (congrArg Storage.has_approved hs) ?_
      intro a ha
      exact .inr (List.mem_singleton.mp ha)
  | approved _ _ _ _ _ =>
      refine h.record (congrArg Storage.approvals hs) (congrArg Storage.has_approved hs) ?_
      intro a ha
      rcases List.mem_append.mp ha with ha | ha
      · exact .inl ha
      · exact .inr (List.mem_singleton.mp ha)
  | executed _ _ _ _ _ _ performs =>
      obtain ⟨_, hlist, hflag⟩ := performs.proposals_eq
      exact h.congr (by rw [hs, hlist]; rfl) (by rw [hs, hflag]; rfl)
  | cancelled _ _ => exact h.congr (by rw [hs]; rfl) (by rw [hs]; rfl)

theorem Flagged.run (h0 : Genesis w0) (h : Runs P d w0 tr w) : Flagged w := by
  refine h.invariant (I := Flagged) ?_ (fun m a m' hI hst => hI.step hst)
  intro id a ha
  rw [getApprovals, h0] at ha
  cases ha

/-! ## Approvers -/

theorem getOwners_of_parameters {m : State} {q : Parameters} (h : m.storage.parameters = q) :
    getOwners m = q.owners.getD [] := by
  rw [← h]
  rfl

/-- A step that records no approval leaves the approvers owners, unless it drops one. -/
theorem Endorsed.keep {p : Proposal} (h : Endorsed id tr w) (hn : Numbered w.storage)
    (hst : Step P d w a w') (hno : ¬ Tx.DropsApprover ⟨w, a, w'⟩ id)
    (hp : w.storage.proposals.lookup id = some p)
    (happrovals : getApprovals w' id = getApprovals w id) :
    (getApprovals w' id).Nodup ∧ ∀ a' ∈ getApprovals w' id, a' ∈ getOwners w' ∧
      ∃ y ∈ tr ++ [⟨w, a, w'⟩], Tx.Approves y id a' := by
  obtain ⟨hnodup, hmembers⟩ := h p hp
  rw [happrovals]
  refine ⟨hnodup, fun a' ha' => ?_⟩
  obtain ⟨howner, y, hy, hy'⟩ := hmembers a' ha'
  refine ⟨?_, y, List.mem_append_left _ hy, hy'⟩
  cases step_governed hst with
  | kept parameters =>
      have howners : getOwners w' = getOwners w := getOwners_of_parameters parameters
      rw [howners]
      exact howner
  | initialized fresh => exact absurd fresh (hn.initialized hp)
  | @rotated owners threshold rotates _ parameters =>
      have howners : getOwners w' = owners := getOwners_of_parameters parameters
      rw [howners]
      by_contra hout
      exact hno ⟨owners, threshold, rotates, a', ha', hout⟩
  | timelock parameters =>
      have howners : getOwners w' = getOwners w := getOwners_of_parameters parameters
      rw [howners]
      exact howner
  | ttl _ parameters =>
      have howners : getOwners w' = getOwners w := getOwners_of_parameters parameters
      rw [howners]
      exact howner

theorem Endorsed.step (h : Endorsed id tr w) (hn : Numbered w.storage) (hflagged : Flagged w)
    (hst : Step P d w a w') (hno : ¬ Tx.DropsApprover ⟨w, a, w'⟩ id) :
    Endorsed id (tr ++ [⟨w, a, w'⟩]) w' := by
  intro q hq
  cases step_life hn hst id with
  | untouched record approvals _ => exact h.keep hn hst hno (record.symm.trans hq) approvals
  | @made _ proposer approves owner _ _ _ _ _ approvals parameters =>
      have howners : getOwners w' = getOwners w := getOwners_of_parameters parameters
      dsimp only at approvals owner
      rw [approvals, howners]
      refine ⟨List.nodup_singleton _, fun a' ha' => ?_⟩
      obtain rfl := List.mem_singleton.mp ha'
      exact ⟨owner, _, List.mem_append_right _ (List.mem_singleton_self _), approves⟩
  | @approved p owner approves owner_mem hp _ fresh _ approvals parameters _ =>
      obtain ⟨hnodup, hmembers⟩ := h p hp
      have howners : getOwners w' = getOwners w := getOwners_of_parameters parameters
      dsimp only at approvals owner_mem fresh
      -- the flag says that the new approver is not in the list yet
      have hnew : owner ∉ getApprovals w id := by
        intro hold
        rw [hflagged id owner hold] at fresh
        cases fresh
      rw [approvals, howners]
      refine ⟨?_, fun a' ha' => ?_⟩
      · rw [List.nodup_append]
        refine ⟨hnodup, List.nodup_singleton _, ?_⟩
        intro b hb c hc hbc
        obtain rfl := List.mem_singleton.mp hc
        exact hnew (hbc ▸ hb)
      · rcases List.mem_append.mp ha' with hold | hlast
        · obtain ⟨howner, y, hy, hy'⟩ := hmembers a' hold
          exact ⟨howner, y, List.mem_append_left _ hy, hy'⟩
        · obtain rfl := List.mem_singleton.mp hlast
          exact ⟨owner_mem, _, List.mem_append_right _ (List.mem_singleton_self _), approves⟩
  | executed _ before _ _ _ _ _ _ approvals => exact h.keep hn hst hno before approvals
  | cancelled _ before _ _ approvals _ => exact h.keep hn hst hno before approvals

theorem Endorsed.run (h0 : Genesis w0) (h : Runs P d w0 tr w)
    (hno : ∀ x ∈ tr, ¬ x.DropsApprover id) : Endorsed id tr w := by
  refine h.history_of (P := Endorsed id) hno (fun p hp => ?_) ?_
  · rw [h0] at hp
    exact absurd hp (by simp [Storage.fresh])
  · intro tr m a m' hrun hI hst hno
    exact hI.step (Numbered.run h0 hrun) (Flagged.run h0 hrun) hst hno

/-- **The quorum of current owners.** In every run in which no rotation drops an owner who has
approved a proposal: when an `execute` of it succeeds, at least `threshold` different addresses
that are owners at that moment have approved it. -/
theorem execution_quorum (h0 : Genesis w0) (h : Runs P d w0 (before ++ x :: after) w)
    (hexecutes : x.Executes id) (hno : ∀ y ∈ before, ¬ y.DropsApprover id) :
    Quorum (getThreshold x.pre) (getOwners x.pre) (fun a => ∃ y ∈ before, Tx.Approves y id a) := by
  obtain ⟨hbefore, hst, _⟩ := h.around
  have hendorsed : Endorsed id before x.pre := Endorsed.run h0 hbefore hno
  obtain ⟨_, _, hp, hquorum, _⟩ := hexecutes.found (Numbered.run h0 hbefore) hst
  obtain ⟨hnodup, hmembers⟩ := hendorsed _ hp
  exact Quorum.of_nodup hnodup hquorum hmembers

end

/-! ## An execution on the approvals of former owners -/

section

open LocalNet

/-- Owners 1 and 2 approve a call; then they execute a rotation to `owners`, two of them needed. -/
def rotatedTo (owners : List Address) : List Line := [
  setsUp, proposesCall 1, approves 2 1,
  proposesChange 1 "rotate_owners" [.addresses owners, .u32 2],
  approves 2 2, .wait 10, executes 2]

/-- The third owner is replaced; the two who have approved stay. -/
theorem execution_quorum_replaced :
    Quorum (getThreshold (governance.outcome deployment
        (rotatedTo [account 1, account 2, account 4])))
      (getOwners (governance.outcome deployment (rotatedTo [account 1, account 2, account 4])))
      (fun a => ∃ y ∈ governance.history deployment (rotatedTo [account 1, account 2, account 4]),
        Tx.Approves y 1 a) := by
  have hexecutes : Tx.Executes (governance.txAfter deployment
      (rotatedTo [account 1, account 2, account 4]) (executes 1)) 1 :=
    ⟨_, _, _, Contract.txAfter_calls (by decide +kernel)⟩
  refine execution_quorum deployment_genesis (Contract.script_runs_split
    (rotatedTo [account 1, account 2, account 4]) (executes 1) [] (by decide +kernel))
    hexecutes ?_
  have hexecuted : ∀ x ∈ governance.history deployment
        (rotatedTo [account 1, account 2, account 4]),
      executedId x.act = none ∨ executedId x.act = some 2 ∧
        getApprovals x.pre 1 = [account 1, account 2] ∧
        (x.pre.storage.proposals.lookup 2).map (fun p => p.args[0]?)
          = some (some (.addresses [account 1, account 2, account 4])) := by decide +kernel
  rintro x hx ⟨owners, threshold, hrotates, a, ha, hout⟩
  obtain ⟨id, p, hid, hp, _, harg, _⟩ := hrotates.executed
  rcases hexecuted x hx with hnone | ⟨hsome, happrovals, hvalue⟩
  · cases hnone.symm.trans hid
  obtain rfl := Option.some.inj (hsome.symm.trans hid)
  rw [hp, Option.map_some, Option.some.injEq, harg] at hvalue
  cases hvalue
  rw [happrovals] at ha
  simp only [List.mem_cons, List.not_mem_nil, or_false] at ha hout
  exact hout (ha.elim .inl (fun h => .inr (.inl h)))

/-- Both who have approved are replaced, and the call executes. -/
theorem former_owners_execute :
    ¬ ∀ (P : Platform) (d : Deployment) (w0 w : State) (before after : List Tx) (x : Tx)
      (id : Nat), Genesis w0 → Runs P d w0 (before ++ x :: after) w → x.Executes id →
      Quorum (getThreshold x.pre) (getOwners x.pre)
        (fun a => ∃ y ∈ before, Tx.Approves y id a) := by
  intro h
  have hexecutes : Tx.Executes (governance.txAfter deployment
      (rotatedTo [account 3, account 4]) (executes 1)) 1 :=
    ⟨_, _, _, Contract.txAfter_calls (by decide +kernel)⟩
  have hquorum := h platform deployed deployment _ _ _ _ 1 deployment_genesis
    (Contract.script_runs_split (rotatedTo [account 3, account 4]) (executes 1) []
      (by decide +kernel)) hexecutes
  obtain ⟨a, ha, y, hy, happroves⟩ := hquorum.exists_mem (by decide +kernel)
  have hothers : ∀ y ∈ governance.history deployment (rotatedTo [account 3, account 4]),
      ∀ a ∈ getOwners (governance.outcome deployment (rotatedTo [account 3, account 4])),
        approverOf y.act ≠ some a := by decide +kernel
  exact hothers y hy a ha happroves.approver

end

end StellarAgent.Governance
