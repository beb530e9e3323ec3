import StellarAgent.Lib.Quorum
import StellarAgent.PaymentChannel.AdminEffects
import StellarAgent.PaymentChannel.System

set_option autoImplicit false

/-! # Who changes the controls

The wired contracts, the solvency key, their admins, the multi-sig configuration and the
approvals are written by the admin calls alone. `Controlled` lists what a returned call can have
done to them, `exec_controlled` shows that the list is complete.

The approvals form a register: an entry is written by a proposal, and an execution in multi-sig
mode clears the entries it draws on (`step_register`).
-/

namespace StellarAgent.PaymentChannel

open Lib Soroban

/-! ## Settings -/

/-- What the setters set, with the value. -/
inductive Setting where
  | wired (key : WiredKey) (value : Address)
  | solvencyVk (vk : SolvencyVerifyingKey)
  | multisigConfig (owners : List Address) (threshold propose_window_ledgers : Nat)
  deriving DecidableEq

/-- The slot of the single admin of a wired contract. -/
def WiredKey.adminKey : WiredKey → AdminKey
  | .cb => .cb_admin
  | .po => .po_admin
  | .amm => .amm_admin

/-- The key of the approvals that a setting draws on in multi-sig mode. -/
def Setting.proposalKey : Setting → ProposalKey
  | .wired key value => .wired key value
  | .solvencyVk _ => .prop_svk
  | .multisigConfig _ _ _ => .prop_ms

/-- The slot of the single admin of a setting, where it has one. -/
def Setting.adminKey : Setting → Option AdminKey
  | .wired key _ => some key.adminKey
  | .solvencyVk _ => some .sv_admin
  | .multisigConfig _ _ _ => none

/-- Write a setting to storage. -/
def install (w : State) : Setting → State
  | .wired key value => setWired w key value
  | .solvencyVk vk => setSolvencyKey w vk
  | .multisigConfig owners threshold propose_window_ledgers =>
      { w with storage := { w.storage with
          ms_own := some owners
          ms_thresh := some threshold
          ms_win := some propose_window_ledgers } }

/-- The setters: who calls, and what is set. -/
def Call.setting : Call → Option (Address × Setting)
  | .setCircuitBreaker admin value => some (admin, .wired .cb value)
  | .setPriceOracle admin value => some (admin, .wired .po value)
  | .setAmm admin value => some (admin, .wired .amm value)
  | .setSolvencyVk admin vk => some (admin, .solvencyVk vk)
  | .setMultisigConfig caller owners threshold window =>
      some (caller, .multisigConfig owners threshold window)
  | _ => none

/-- The proposals: who approves, and under which key the approval is kept. -/
def Call.approval : Call → Option (Address × ProposalKey)
  | .proposeCircuitBreaker owner value => some (owner, .wired .cb value)
  | .proposePriceOracle owner value => some (owner, .wired .po value)
  | .proposeAmm owner value => some (owner, .wired .amm value)
  | .proposeSolvencyVk owner _ => some (owner, .prop_svk)
  | .proposeMultisigConfig owner => some (owner, .prop_ms)
  | _ => none

/-! ## What a call does to the controls -/

inductive Controlled (env : Env) (w : State) (call : Call) (w' : State) : Prop
  /-- No admin call. -/
  | kept (no_setting : call.setting = none) (no_approval : call.approval = none)
      (after : controls w' = controls w)
  /-- An owner approves. -/
  | approved {owner : Address} {key : ProposalKey} (approval : call.approval = some (owner, key))
      (no_setting : call.setting = none) (authorized : env.authorized owner = true)
      (after : controls w' = controls (recordProposal w key owner))
  /-- One of the four setters with a single admin. -/
  | gated {admin : Address} {setting : Setting} {admin_key : AdminKey} {w1 : State}
      (setting_eq : call.setting = some (admin, setting))
      (slot : setting.adminKey = some admin_key) (authorized : env.authorized admin = true)
      (gate : AdminGate w admin setting.proposalKey admin_key w1)
      (after : controls w' = controls (install w1 setting))
  /-- The multi-sig configuration. -/
  | configured {caller : Address} {owners : List Address} {threshold window : Nat} {w1 : State}
      (setting_eq : call.setting = some (caller, .multisigConfig owners threshold window))
      (authorized : env.authorized caller = true) (gate : ConfigGate w caller w1)
      (after : controls w' = controls (install w1 (.multisigConfig owners threshold window)))

section

variable {env : Env} {w w' : State}

theorem setWiredContract_controlled (key : WiredKey) {admin value : Address} {refusal : String}
    {call : Call} (hcall : call.setting = some (admin, .wired key value))
    (h : setWiredContract env w admin key value key.adminKey refusal = .ok w') :
    Controlled env w call w' := by
  obtain ⟨w1, hauth, hgate, rfl⟩ := setWiredContract_ok h
  exact .gated hcall rfl hauth hgate rfl

theorem propose_controlled {owner : Address} {key : ProposalKey} {event : Event} {call : Call}
    (hcall : call.approval = some (owner, key)) (hsetting : call.setting = none)
    (h : propose env w owner key event = .ok w') : Controlled env w call w' := by
  obtain ⟨hauth, rfl⟩ := propose_ok h
  exact .approved hcall hsetting hauth rfl

/-- **Only admin calls change the controls**, and only in the listed ways. -/
theorem exec_controlled {call : Call} (htyped : call.WellTyped) (h : exec env w call = .ok w') :
    Controlled env w call w' := by
  cases call with
  | openChannel owner agent token deposit limit period =>
      obtain ⟨⟨new, w1⟩, hopen, rfl⟩ := Result.map_eq_ok.mp h
      obtain ⟨ch, next, _, _, _, _, _, _, hcontrols, _, _, rfl⟩ := openChannel_ok hopen
      exact .kept rfl rfl hcontrols
  | pay agent id r amount memo =>
      obtain ⟨ch, ch', _, _, rfl⟩ := pay_ok h
      exact .kept rfl rfl rfl
  | payWithConversion agent id r amount dest_token min_received memo =>
      obtain ⟨⟨out, w1⟩, hpay, rfl⟩ := Result.map_eq_ok.mp h
      obtain ⟨ch, ch', paid, _, _, ⟨_, rfl⟩ | hconversion, rfl⟩ := payWithConversion_ok hpay
      · exact .kept rfl rfl rfl
      · obtain ⟨amm, delivered, _, rfl⟩ := executeConversion_ok hconversion
        exact .kept rfl rfl rfl
  | payWithRoute agent id r amount dest_token route min_received valid_until memo =>
      obtain ⟨⟨out, w1⟩, hpay, rfl⟩ := Result.map_eq_ok.mp h
      obtain ⟨ch, ch', paid, _, _, hpaid, rfl⟩ := payWithRoute_ok hpay
      refine .kept rfl rfl ?_
      rcases hpaid with ⟨_, _, rfl⟩ | hroute
      · rfl
      · exact (runHops_moved (executeRoute_ok hroute).2.2).controls_eq
  | topUp owner id amount =>
      obtain ⟨ch, _, _, _, rfl⟩ := topUp_ok h
      exact .kept rfl rfl rfl
  | closeChannel owner id =>
      obtain ⟨ch, ch', paid, refund, _, _, _, _, hcases, rfl⟩ := closeChannel_ok h
      rcases hcases with ⟨_, rfl, _⟩ | ⟨_, rfl, _⟩
      · exact .kept rfl rfl rfl
      · exact .kept rfl rfl rfl
  | setMultisigConfig caller owners threshold window =>
      obtain ⟨w1, hauth, hgate, rfl⟩ := setMultisigConfig_ok h
      exact .configured rfl hauth hgate rfl
  | proposeMultisigConfig owner => exact propose_controlled rfl rfl h
  | proposeCircuitBreaker owner circuit_breaker => exact propose_controlled rfl rfl h
  | setCircuitBreaker admin circuit_breaker => exact setWiredContract_controlled .cb rfl h
  | proposePriceOracle owner price_oracle => exact propose_controlled rfl rfl h
  | setPriceOracle admin price_oracle => exact setWiredContract_controlled .po rfl h
  | proposeAmm owner amm => exact propose_controlled rfl rfl h
  | setAmm admin amm => exact setWiredContract_controlled .amm rfl h
  | enableVouchers owner id pk window =>
      obtain ⟨ch, _, _, _, _, rfl⟩ := enableVouchers_ok h
      exact .kept rfl rfl rfl
  | allocate owner id r amount =>
      obtain ⟨ch, _, _, _, _, _, rfl⟩ := allocate_ok h
      exact .kept rfl rfl rfl
  | withdrawFree owner id =>
      obtain ⟨⟨free, w1⟩, hfree, rfl⟩ := Result.map_eq_ok.mp h
      obtain ⟨ch, _, _, _, rfl | ⟨_, _, rfl⟩⟩ := withdrawFree_ok hfree
      · exact .kept rfl rfl rfl
      · exact .kept rfl rfl rfl
  | closeCooperative id r sequence c signature =>
      obtain ⟨⟨paid, w1⟩, hclose, rfl⟩ := Result.map_eq_ok.mp h
      obtain ⟨_, _, next, _, _, hpay, rfl⟩ :=
        closeCooperative_ok (v := ⟨id, r, sequence, c⟩) hclose ⟨htyped.1, htyped.2.2⟩
      obtain ⟨_, _, _, _, _, _, _, rfl⟩ := payOut_ok hpay
      exact .kept rfl rfl rfl
  | closeUnilateral closer id r sequence c signature =>
      obtain ⟨_, _, _, _, rfl⟩ :=
        closeUnilateral_ok (v := ⟨id, r, sequence, c⟩) h ⟨htyped.1, htyped.2.2⟩
      exact .kept rfl rfl rfl
  | challenge id r sequence c signature =>
      obtain ⟨_, _, _, _, _, _, _, rfl⟩ :=
        challenge_ok (v := ⟨id, r, sequence, c⟩) h ⟨htyped.1, htyped.2.2⟩
      exact .kept rfl rfl rfl
  | finalize id r =>
      obtain ⟨⟨paid, w1⟩, hfinal, rfl⟩ := Result.map_eq_ok.mp h
      obtain ⟨_, _, _, next, _, _, _, _, _, hpay, rfl⟩ := finalize_ok hfinal
      obtain ⟨_, _, _, _, _, _, _, rfl⟩ := payOut_ok hpay
      exact .kept rfl rfl rfl
  | proposeSolvencyVk owner vk =>
      obtain ⟨hauth, rfl⟩ := proposeSolvencyVk_ok h
      exact .approved rfl rfl hauth rfl
  | setSolvencyVk admin vk =>
      obtain ⟨w1, hauth, hgate, rfl⟩ := setSolvencyVk_ok h
      exact .gated rfl rfl hauth hgate rfl

end

/-- A step that is no returned call leaves the controls alone. -/
theorem step_controlled {P : Platform} {d : Deployment} {w w' : State} {a : Action Call}
    (hst : Step P d w a w') :
    (controls w' = controls w ∧ ∀ env call, ¬ Tx.Calls ⟨w, a, w'⟩ env call) ∨
      ∃ env call, Tx.Calls ⟨w, a, w'⟩ env call ∧ Controlled env w.quiet call w' := by
  cases step_outcome hst with
  | closedLedgers _ => exact .inl ⟨rfl, fun _ _ hcalls => nomatch hcalls.1⟩
  | foreign _ => exact .inl ⟨rfl, fun _ _ hcalls => nomatch hcalls.1⟩
  | panicked _ _ hpanics =>
      refine .inl ⟨rfl, fun env call hcalls => ?_⟩
      obtain ⟨hact, hexec⟩ := hcalls
      cases hact
      cases hpanics.symm.trans hexec
  | returned _ _ htyped hexec =>
      exact .inr ⟨_, _, ⟨rfl, hexec⟩, exec_controlled htyped hexec⟩

/-! ## The register of approvals -/

/-- The transaction is a proposal by `owner`, kept under `key`. -/
def Tx.Approves (t : Tx) (key : ProposalKey) (owner : Address) : Prop :=
  ∃ env call, t.Calls env call ∧ call.approval = some (owner, key)

/-- The transaction sets `setting`, called by `caller`. -/
def Tx.Sets (t : Tx) (caller : Address) (setting : Setting) : Prop :=
  ∃ env call, t.Calls env call ∧ call.setting = some (caller, setting)

/-- The transaction executes on the approvals under `key`. -/
def Tx.Consumes (t : Tx) (key : ProposalKey) : Prop :=
  MultisigActive t.pre ∧ ∃ caller setting, t.Sets caller setting ∧ setting.proposalKey = key

section

variable {P : Platform} {d : Deployment} {w w' : State} {key key' : ProposalKey}
  {owner : Address} {n : Nat}

theorem proposalsAt_congr (h : controls w' = controls w) (key : ProposalKey) :
    proposalsAt w' key = proposalsAt w key :=
  congrArg (fun c : Controls => (c.proposals key).getD ∅) h

theorem proposalsAt_install (w : State) (setting : Setting) (key : ProposalKey) :
    proposalsAt (install w setting) key = proposalsAt w key := by
  cases setting <;> rfl

theorem proposalsAt_setProposals (w : State) (proposals : Option (Map Address Nat)) :
    proposalsAt (setProposals w key proposals) key'
      = if key' = key then proposals.getD ∅ else proposalsAt w key' := by
  unfold proposalsAt setProposals
  dsimp only
  rw [Function.update_apply]
  split <;> rfl

theorem proposalsAt_consumed
    (h : (proposalsAt (setProposals w key none) key').lookup owner = some n) :
    (proposalsAt w key').lookup owner = some n ∧ key ≠ key' := by
  rw [proposalsAt_setProposals] at h
  split at h
  · simp at h
  · rename_i hne
    exact ⟨h, Ne.symm hne⟩

theorem AdminGate.approvals {admin : Address} {admin_key : AdminKey}
    (hgate : AdminGate w admin key admin_key w')
    (h : (proposalsAt w' key').lookup owner = some n) :
    (proposalsAt w key').lookup owner = some n ∧ (MultisigActive w → key ≠ key') := by
  cases hgate with
  | owner _ hsingle => exact ⟨h, fun hactive => absurd hactive.2 hsingle⟩
  | quorum _ _ _ =>
      obtain ⟨hbefore, hne⟩ := proposalsAt_consumed h
      exact ⟨hbefore, fun _ => hne⟩
  | bound hempty _ => exact ⟨h, fun hactive => absurd hempty hactive.1⟩
  | binds hempty _ => exact ⟨h, fun hactive => absurd hempty hactive.1⟩

theorem ConfigGate.approvals {caller : Address} (hgate : ConfigGate w caller w')
    (h : (proposalsAt w' key').lookup owner = some n) :
    (proposalsAt w key').lookup owner = some n ∧ (MultisigActive w → .prop_ms ≠ key') := by
  cases hgate with
  | owner _ hsingle => exact ⟨h, fun hactive => absurd hactive.2 hsingle⟩
  | quorum _ _ _ =>
      obtain ⟨hbefore, hne⟩ := proposalsAt_consumed h
      exact ⟨hbefore, fun _ => hne⟩
  | bootstrap hempty => exact ⟨h, fun hactive => absurd hempty hactive.1⟩

/-- What a transaction sets is the setting of its call. -/
theorem Tx.Sets.setting_eq {t : Tx} {caller : Address} {setting : Setting}
    (h : t.Sets caller setting) {env : Env} {call : Call} (hcalls : t.Calls env call) :
    call.setting = some (caller, setting) := by
  obtain ⟨env', call', hcalls', hsetting⟩ := h
  cases hcalls.1.symm.trans hcalls'.1
  exact hsetting

/-- **The approvals are a register** that proposals write and executions clear. -/
theorem step_register : Register (Step P d) World.sequence
    (fun w key owner => (proposalsAt w key).lookup owner) Tx.Approves Tx.Consumes := by
  intro w a w' key owner n hst hentry
  dsimp only at hentry ⊢
  rcases step_controlled hst with ⟨hafter, hnocall⟩ | ⟨env, call, hcalls, hcontrolled⟩
  · rw [proposalsAt_congr hafter] at hentry
    refine .inl ⟨hentry, ?_⟩
    rintro ⟨_, _, _, ⟨_, _, hcalls, _⟩, _⟩
    exact hnocall _ _ hcalls
  cases hcontrolled with
  | kept hsetting _ hafter =>
      rw [proposalsAt_congr hafter] at hentry
      refine .inl ⟨hentry, ?_⟩
      rintro ⟨_, _, _, hsets, _⟩
      cases hsetting.symm.trans (hsets.setting_eq hcalls)
  | @approved owner' key' happroval hsetting _ hafter =>
      rw [proposalsAt_congr hafter, recordProposal, proposalsAt_setProposals] at hentry
      have hnot : ¬ Tx.Consumes ⟨w, a, w'⟩ key := by
        rintro ⟨_, _, _, hsets, _⟩
        cases hsetting.symm.trans (hsets.setting_eq hcalls)
      -- the entry is either the one just recorded, or it was there before
      by_cases hkey : key = key'
      · subst hkey
        rw [if_pos rfl, Option.getD_some] at hentry
        rcases Map.lookup_insert_some hentry with ⟨rfl, rfl⟩ | ⟨_, hbefore⟩
        · exact .inr ⟨⟨env, call, hcalls, happroval⟩, rfl⟩
        · exact .inl ⟨hbefore, hnot⟩
      · rw [if_neg hkey] at hentry
        exact .inl ⟨hentry, hnot⟩
  | gated hsetting _ _ hgate hafter =>
      rw [proposalsAt_congr hafter, proposalsAt_install] at hentry
      obtain ⟨hbefore, hkeep⟩ := hgate.approvals hentry
      refine .inl ⟨hbefore, ?_⟩
      rintro ⟨hactive, _, _, hsets, hkey⟩
      cases hsetting.symm.trans (hsets.setting_eq hcalls)
      exact hkeep hactive hkey
  | configured hsetting _ hgate hafter =>
      rw [proposalsAt_congr hafter, proposalsAt_install] at hentry
      obtain ⟨hbefore, hkeep⟩ := hgate.approvals hentry
      refine .inl ⟨hbefore, ?_⟩
      rintro ⟨hactive, _, _, hsets, hkey⟩
      cases hsetting.symm.trans (hsets.setting_eq hcalls)
      exact hkeep hactive hkey

end

end StellarAgent.PaymentChannel
