import StellarAgent.PaymentChannel.Controls
import StellarAgent.PaymentChannel.Scenario

set_option autoImplicit false

/-! # What a quorum has approved

In multi-sig mode a setter runs on the approvals of the owners. If the owner vector has no
duplicates, at least `threshold` different owners stand behind every execution, each with an
approval that is inside the window and not consumed (`approvals_behind`).

Whether they approved the value that is set depends on the key the approvals are kept under. The
keys of the wired contracts contain the value. The approvals of a solvency key do not, so they
are for the executed key only where all of them were (`Named`); and the approvals of a
configuration are not for any value, since `propose_multisig_config` takes none.
-/

namespace StellarAgent.PaymentChannel

open Lib Soroban

/-- The proposals that name a value: who proposes, and what. -/
def Call.proposal : Call → Option (Address × Setting)
  | .proposeCircuitBreaker owner value => some (owner, .wired .cb value)
  | .proposePriceOracle owner value => some (owner, .wired .po value)
  | .proposeAmm owner value => some (owner, .wired .amm value)
  | .proposeSolvencyVk owner vk => some (owner, .solvencyVk vk)
  | _ => none

/-- The transaction is a proposal by `owner` for exactly `setting`. -/
def Tx.Proposes (t : Tx) (setting : Setting) (owner : Address) : Prop :=
  ∃ env call, t.Calls env call ∧ call.proposal = some (owner, setting)

/-- `owner` has an approval under `key` that no execution has consumed, inside the window. -/
def Approved (tr : List Tx) (w : State) (key : ProposalKey) (owner : Address) : Prop :=
  ∃ proposed_at, w.sequence ≤ proposed_at + getMultisigProposeWindow w ∧
    Pending World.sequence (fun t : Tx => t.Approves key owner) (fun t : Tx => t.Consumes key) tr
      proposed_at

/-- `owner` has made a proposal for exactly `setting` that no execution has consumed, inside the
window. -/
def Proposed (tr : List Tx) (w : State) (setting : Setting) (owner : Address) : Prop :=
  ∃ proposed_at, w.sequence ≤ proposed_at + getMultisigProposeWindow w ∧
    Pending World.sequence (fun t : Tx => t.Proposes setting owner)
      (fun t : Tx => t.Consumes setting.proposalKey) tr proposed_at

/-- Every approval that `setting` can draw on was for `setting`. -/
def Named (tr : List Tx) : Setting → Prop
  | .wired _ _ => True
  | .solvencyVk vk => ∀ owner vk' proposed_at,
      Pending World.sequence (fun t : Tx => t.Proposes (.solvencyVk vk') owner)
        (fun t : Tx => t.Consumes .prop_svk) tr proposed_at → vk' = vk
  | .multisigConfig _ _ _ => False

section

variable {P : Platform} {d : Deployment} {w w' : State} {tr xs ys : List Tx} {t : Tx}
  {caller owner : Address} {setting : Setting}

/-! ## The approvals behind an execution -/

/-- An execution in multi-sig mode has counted its approvals. -/
theorem quorumReached_of_sets (hst : Step P d t.pre t.act t.post) (hsets : t.Sets caller setting)
    (hactive : MultisigActive t.pre) : QuorumReached t.pre setting.proposalKey := by
  rcases step_controlled hst with ⟨_, hnocall⟩ | ⟨env, call, hcalls, hcontrolled⟩
  · obtain ⟨_, _, hcalls, _⟩ := hsets
    exact absurd hcalls (hnocall _ _)
  have hsetting := hsets.setting_eq hcalls
  cases hcontrolled with
  | kept hno _ _ => cases hno.symm.trans hsetting
  | approved _ hno _ _ => cases hno.symm.trans hsetting
  | gated hsetting' _ _ hgate _ =>
      cases hsetting.symm.trans hsetting'
      cases hgate with
      | owner _ hsingle => exact absurd hactive.2 hsingle
      | quorum _ _ hreached => exact hreached
      | bound hempty _ => exact absurd hempty hactive.1
      | binds hempty _ => exact absurd hempty hactive.1
  | configured hsetting' _ hgate _ =>
      cases hsetting.symm.trans hsetting'
      cases hgate with
      | owner _ hsingle => exact absurd hactive.2 hsingle
      | quorum _ _ hreached => exact hreached
      | bootstrap hempty => exact absurd hempty hactive.1

/-- **An approval found in storage is one of the history.** -/
theorem approved_of_valid (h0 : Genesis w) (h : Runs P d w tr w') {key : ProposalKey}
    (hvalid : hasValidProposal w'.sequence (proposalsAt w' key) (getMultisigProposeWindow w') owner
      = true) : Approved tr w' key owner := by
  unfold hasValidProposal at hvalid
  split at hvalid
  · rename_i proposed_at hentry
    have hrecent : w'.sequence ≤ proposed_at + getMultisigProposeWindow w' := by
      have hcutoff := of_decide_eq_true hvalid
      omega
    have hfresh : ∀ key owner, (proposalsAt w key).lookup owner = none := by
      intro key owner
      unfold proposalsAt
      rw [h0.storage]
      rfl
    exact ⟨proposed_at, hrecent, step_register.pending h hfresh hentry⟩
  · cases hvalid

/-- **Distinct owners stand behind every execution.** -/
theorem approvals_behind (h0 : Genesis w) (h : Runs P d w (xs ++ t :: ys) w')
    (hsets : t.Sets caller setting) (hactive : MultisigActive t.pre)
    (hdistinct : (getMultisigOwners t.pre).Nodup) :
    Quorum (getMultisigThreshold t.pre) (getMultisigOwners t.pre)
      (Approved xs t.pre setting.proposalKey) := by
  obtain ⟨hrun, hst, _⟩ := h.around
  have hreached := quorumReached_of_sets hst hsets hactive
  exact (Quorum.of_countP hdistinct hreached).mono fun _ _ => approved_of_valid h0 hrun

/-! ## The value that was approved -/

theorem Tx.Approves.proposes_wired {key : WiredKey} {value : Address}
    (h : t.Approves (.wired key value) owner) : t.Proposes (.wired key value) owner := by
  obtain ⟨env, call, hcalls, happroval⟩ := h
  refine ⟨env, call, hcalls, ?_⟩
  cases call <;> cases happroval <;> rfl

theorem Tx.Approves.proposes_vk (h : t.Approves .prop_svk owner) :
    ∃ vk, t.Proposes (.solvencyVk vk) owner := by
  obtain ⟨env, call, hcalls, happroval⟩ := h
  cases call with
  | proposeSolvencyVk owner' vk =>
      cases happroval
      exact ⟨vk, env, _, hcalls, rfl⟩
  | _ => cases happroval

theorem not_proposes_config {owners : List Address} {threshold window : Nat} :
    ¬ t.Proposes (.multisigConfig owners threshold window) owner := by
  rintro ⟨env, call, _, hproposal⟩
  cases call <;> cases hproposal

/-- An approval that can only have been for `setting` is a proposal for it. -/
theorem proposed_of_approved (hnamed : Named tr setting)
    (h : Approved tr w setting.proposalKey owner) : Proposed tr w setting owner := by
  obtain ⟨proposed_at, hrecent, hpending⟩ := h
  refine ⟨proposed_at, hrecent, ?_⟩
  cases setting with
  | wired key value => exact hpending.mono fun x _ hx => hx.proposes_wired
  | multisigConfig owners threshold window => exact hnamed.elim
  | solvencyVk vk =>
      obtain ⟨before, x, after, rfl, hx, hn, hafter⟩ := hpending
      -- the approval was for some key, and by `hnamed` for this one
      obtain ⟨vk', hvk'⟩ := hx.proposes_vk
      obtain rfl : vk' = vk :=
        hnamed owner vk' proposed_at ⟨before, x, after, rfl, hvk', hn, hafter⟩
      exact ⟨before, x, after, rfl, hvk', hn, hafter⟩

/-- **Quorum binding.** In every run, behind every execution in multi-sig mode under an owner
vector without duplicates there are at least `threshold` different current owners with an
unconsumed approval inside the window. They proposed exactly the value that is set wherever the
approvals it can draw on all name it; a configuration is never proposed by value. -/
theorem quorum_binding (h0 : Genesis w) (h : Runs P d w (xs ++ t :: ys) w')
    (hsets : t.Sets caller setting) (hactive : MultisigActive t.pre)
    (hdistinct : (getMultisigOwners t.pre).Nodup) :
    Quorum (getMultisigThreshold t.pre) (getMultisigOwners t.pre)
        (Approved xs t.pre setting.proposalKey) ∧
      (Named xs setting → Quorum (getMultisigThreshold t.pre) (getMultisigOwners t.pre)
        (Proposed xs t.pre setting)) ∧
      ∀ owners threshold window, setting = .multisigConfig owners threshold window →
        ¬ Quorum (getMultisigThreshold t.pre) (getMultisigOwners t.pre)
          (Proposed xs t.pre setting) := by
  have hbehind := approvals_behind h0 h hsets hactive hdistinct
  refine ⟨hbehind, fun hnamed => hbehind.mono fun _ _ => proposed_of_approved hnamed, ?_⟩
  rintro owners threshold window rfl hquorum
  have hpos : 0 < getMultisigThreshold t.pre := lt_trans Nat.zero_lt_one hactive.2
  obtain ⟨owner, _, proposed_at, _, hpending⟩ := hquorum.exists_mem hpos
  obtain ⟨x, _, hx⟩ := hpending.exists_mem
  exact not_proposes_config hx

end

/-! ## Approvals that were for something else -/

section

open Scenario

/-- Two owners, both needed, and a window of 100 ledgers. -/
def twoOfTwo : Move :=
  .invoke [owner] honestSwap (.setMultisigConfig owner [owner, agent] 2 100)

def verifyingKey (value : Nat) : SolvencyVerifyingKey where
  alpha_g1 := bytesN 96 value
  beta_g2 := bytesN 192 value
  gamma_g2 := bytesN 192 value
  delta_g2 := bytesN 192 value
  gamma_abc_g1 := [bytesN 96 value, bytesN 96 value, bytesN 96 value]

/-- Both owners approve the first key. -/
def firstKeyApproved : List Move := [
  twoOfTwo,
  .invoke [owner] honestSwap (.proposeSolvencyVk owner (verifyingKey 1)),
  .invoke [agent] honestSwap (.proposeSolvencyVk agent (verifyingKey 1))]

def secondKeySet : Move := .invoke [owner] honestSwap (.setSolvencyVk owner (verifyingKey 2))

/-- Their approvals install the second key, which nobody has proposed. -/
theorem approved_key_swapped :
    ¬ ∀ (P : Platform) (d : Deployment) (w w' : State) (xs ys : List Tx) (t : Tx)
      (caller : Address) (setting : Setting), Genesis w → Runs P d w (xs ++ t :: ys) w' →
      t.Sets caller setting → MultisigActive t.pre →
      Quorum (getMultisigThreshold t.pre) (getMultisigOwners t.pre)
        (Proposed xs t.pre setting) := by
  intro h
  have hsets : (txAfter firstKeyApproved secondKeySet).Sets owner
      (.solvencyVk (verifyingKey 2)) := ⟨_, _, txAfter_calls (by decide +kernel), rfl⟩
  have hquorum := h testnet deployed start _ _ _ _ owner _ start_genesis
    (script_runs_split firstKeyApproved secondKeySet [] (by decide +kernel)) hsets
    (by decide +kernel)
  obtain ⟨o, _, proposed_at, _, hpending⟩ := hquorum.exists_mem (by decide +kernel)
  obtain ⟨x, hx, env, call, ⟨hact, _⟩, hproposal⟩ := hpending.exists_mem
  have hkeys : verifyingKey 1 ≠ verifyingKey 2 := by decide +kernel
  -- the three calls of the script: the configuration, and the two proposals of the first key
  rcases List.mem_cons.mp hx with rfl | hx
  · cases hact
    cases hproposal
  · rcases List.mem_cons.mp hx with rfl | hx
    · cases hact
      exact hkeys (Setting.solvencyVk.inj (Prod.mk.inj (Option.some.inj hproposal)).2)
    · obtain rfl := List.mem_singleton.mp hx
      cases hact
      exact hkeys (Setting.solvencyVk.inj (Prod.mk.inj (Option.some.inj hproposal)).2)

def breakerWired : Move := .invoke [owner] honestSwap (.setCircuitBreaker owner venue)

/-- One owner, entered twice, of two needed; the owner proposes a circuit breaker. -/
def enteredTwice : List Move := [
  .invoke [owner] honestSwap (.setMultisigConfig owner [owner, owner] 2 100),
  .invoke [owner] honestSwap (.proposeCircuitBreaker owner venue)]

/-- The single proposal of an owner entered twice counts as two. -/
theorem owner_entered_twice_counts_twice :
    ¬ ∀ (P : Platform) (d : Deployment) (w w' : State) (xs ys : List Tx) (t : Tx)
      (caller value : Address) (key : WiredKey), Genesis w → Runs P d w (xs ++ t :: ys) w' →
      t.Sets caller (.wired key value) → MultisigActive t.pre →
      Quorum (getMultisigThreshold t.pre) (getMultisigOwners t.pre)
        (Proposed xs t.pre (.wired key value)) := by
  intro h
  have hsets : (txAfter enteredTwice breakerWired).Sets owner (.wired .cb venue) :=
    ⟨_, _, txAfter_calls (by decide +kernel), rfl⟩
  have hquorum := h testnet deployed start _ _ _ _ owner venue .cb start_genesis
    (script_runs_split enteredTwice breakerWired [] (by decide +kernel)) hsets (by decide +kernel)
  exact absurd hquorum.le_card (by decide +kernel)

/-- Both owners approve a circuit breaker. -/
def breakerApproved : List Move := [
  twoOfTwo,
  .invoke [owner] honestSwap (.proposeCircuitBreaker owner venue),
  .invoke [agent] honestSwap (.proposeCircuitBreaker agent venue)]

theorem quorum_binding_breaker :
    Quorum (getMultisigThreshold (txAfter breakerApproved breakerWired).pre)
        (getMultisigOwners (txAfter breakerApproved breakerWired).pre)
        (Approved (history breakerApproved) (txAfter breakerApproved breakerWired).pre
          (.wired .cb venue)) ∧
      (Named (history breakerApproved) (.wired .cb venue) →
        Quorum (getMultisigThreshold (txAfter breakerApproved breakerWired).pre)
          (getMultisigOwners (txAfter breakerApproved breakerWired).pre)
          (Proposed (history breakerApproved) (txAfter breakerApproved breakerWired).pre
            (.wired .cb venue))) ∧
      ∀ owners threshold window,
        Setting.wired .cb venue = .multisigConfig owners threshold window →
        ¬ Quorum (getMultisigThreshold (txAfter breakerApproved breakerWired).pre)
          (getMultisigOwners (txAfter breakerApproved breakerWired).pre)
          (Proposed (history breakerApproved) (txAfter breakerApproved breakerWired).pre
            (.wired .cb venue)) := by
  have hsets : (txAfter breakerApproved breakerWired).Sets owner (.wired .cb venue) :=
    ⟨_, _, txAfter_calls (by decide +kernel), rfl⟩
  exact quorum_binding start_genesis
    (script_runs_split breakerApproved breakerWired [] (by decide +kernel)) hsets
    (by decide +kernel) (by decide +kernel)

end

end StellarAgent.PaymentChannel
