import StellarAgent.PaymentChannel.Controls
import StellarAgent.PaymentChannel.Scenario

set_option autoImplicit false

/-! # The single admins

The first caller of a setter becomes the admin of its slot. While there are no owners, only that
admin can change the value in the slot; but `set_multisig_config` asks nobody for permission
while there are no owners, and an owner set takes the setters away from the admins. So an admin
stands behind every later change exactly as long as no one else configures the first owner set
(`slot_guarded`).
-/

namespace StellarAgent.PaymentChannel

open Lib Soroban

/-- What is stored in the slot that an admin guards. -/
def slotValue (w : State) : AdminKey → Option Setting
  | .cb_admin => (w.storage.wired .cb).map (.wired .cb)
  | .po_admin => (w.storage.wired .po).map (.wired .po)
  | .amm_admin => (w.storage.wired .amm).map (.wired .amm)
  | .sv_admin => w.storage.sv_vk.map .solvencyVk

/-- The transaction binds the slot of `key` to its first admin. -/
def Tx.Binds (t : Tx) (key : AdminKey) (admin : Address) : Prop :=
  t.pre.storage.admins key = none ∧ t.post.storage.admins key = some admin

/-- The transaction is a call that `who` authorised, and returned. -/
def Tx.AuthorizedBy (t : Tx) (who : Address) : Prop :=
  ∃ env call, t.Calls env call ∧ env.authorized who = true

/-- The transaction configures owners where there were none. -/
def Tx.Bootstraps (t : Tx) : Prop :=
  getMultisigOwners t.pre = [] ∧
    ∃ caller owners threshold window, t.Sets caller (.multisigConfig owners threshold window)

/-- No owners, and `admin` guards the slot of `key`. -/
structure Guards (w : State) (key : AdminKey) (admin : Address) : Prop where
  no_owners : getMultisigOwners w = []
  stored : w.storage.admins key = some admin

section

variable {P : Platform} {d : Deployment} {w w' : State} {a : Action Call} {key : AdminKey}
  {admin : Address}

theorem slotValue_congr (h : controls w' = controls w) (key : AdminKey) :
    slotValue w' key = slotValue w key := by
  have hwired : w'.storage.wired = w.storage.wired := congrArg Controls.wired h
  have hvk : w'.storage.sv_vk = w.storage.sv_vk := congrArg Controls.sv_vk h
  cases key <;> simp only [slotValue, hwired, hvk]

theorem Guards.congr (h : Guards w key admin) (hc : controls w' = controls w) :
    Guards w' key admin where
  no_owners := (congrArg (fun c : Controls => c.ms_own.getD []) hc).trans h.no_owners
  stored := (congrArg (fun c : Controls => c.admins key) hc).trans h.stored

/-- A setter writes only the slot it guards. -/
theorem slotValue_install {setting : Setting} {admin_key : AdminKey}
    (hslot : setting.adminKey = some admin_key) (hne : admin_key ≠ key) :
    slotValue (install w setting) key = slotValue w key := by
  cases setting with
  | multisigConfig _ _ _ => cases hslot
  | solvencyVk vk =>
      cases hslot
      cases key with
      | sv_admin => exact absurd rfl hne
      | _ => rfl
  | wired wired_key value =>
      cases hslot
      cases wired_key <;> cases key <;> first | exact absurd rfl hne | rfl

theorem install_admins (w : State) (setting : Setting) :
    (install w setting).storage.admins = w.storage.admins := by
  cases setting <;> rfl

theorem install_owners {setting : Setting} {admin_key : AdminKey}
    (hslot : setting.adminKey = some admin_key) :
    getMultisigOwners (install w setting) = getMultisigOwners w := by
  cases setting with
  | multisigConfig _ _ _ => cases hslot
  | _ => rfl

theorem Guards.install {setting : Setting} {admin_key : AdminKey} (h : Guards w key admin)
    (hslot : setting.adminKey = some admin_key) : Guards (install w setting) key admin where
  no_owners := (install_owners hslot).trans h.no_owners
  stored := (congrFun (install_admins w setting) key).trans h.stored

/-- **One step** from a guarded slot leaves it guarded and its value alone, or is authorised by
the admin, or configures the first owners. -/
theorem Guards.step (h : Guards w key admin) (hst : Step P d w a w') :
    (Guards w' key admin ∧ slotValue w' key = slotValue w key) ∨
      Tx.AuthorizedBy ⟨w, a, w'⟩ admin ∨ Tx.Bootstraps ⟨w, a, w'⟩ := by
  have hkept : ∀ {w' : State}, controls w' = controls w →
      Guards w' key admin ∧ slotValue w' key = slotValue w key :=
    fun hc => ⟨h.congr hc, slotValue_congr hc key⟩
  have hquiet : Guards w.quiet key admin := h.congr rfl
  have hnobody : ∀ who, who ∉ getMultisigOwners w := by
    intro who hmem
    rw [h.no_owners] at hmem
    cases hmem
  rcases step_controlled hst with ⟨hafter, _⟩ | ⟨env, call, hcalls, hcontrolled⟩
  · exact .inl (hkept hafter)
  cases hcontrolled with
  | kept _ _ hafter => exact .inl (hkept hafter)
  | @approved owner proposal_key _ _ _ hafter =>
      have hrecorded : Guards (recordProposal w.quiet proposal_key owner) key admin :=
        ⟨h.no_owners, h.stored⟩
      -- an approval writes to the proposals only
      refine .inl ⟨hrecorded.congr hafter, ?_⟩
      rw [slotValue_congr hafter]
      cases key <;> rfl
  | @gated caller setting admin_key w1 hsetting hslot hauth hgate hafter =>
      cases hgate with
      | owner hmember _ => exact absurd hmember (hnobody caller)
      | quorum hmember _ _ => exact absurd hmember (hnobody caller)
      | bound _ hstored =>
          -- the slot in question, where the caller is its admin, or another one
          by_cases hkey : admin_key = key
          · subst hkey
            obtain rfl : caller = admin := Option.some.inj (hstored.symm.trans h.stored)
            exact .inr (.inl ⟨env, call, hcalls, hauth⟩)
          · refine .inl ⟨(hquiet.install hslot).congr hafter, ?_⟩
            rw [slotValue_congr hafter, slotValue_install hslot hkey]
            rfl
      | binds _ hfree =>
          have hkey : admin_key ≠ key := by
            rintro rfl
            cases h.stored.symm.trans hfree
          have hguards : Guards (setAdmin w.quiet admin_key caller) key admin := by
            refine ⟨h.no_owners, ?_⟩
            show Function.update w.storage.admins admin_key (some caller) key = some admin
            rw [Function.update_of_ne (Ne.symm hkey), h.stored]
          refine .inl ⟨(hguards.install hslot).congr hafter, ?_⟩
          rw [slotValue_congr hafter, slotValue_install hslot hkey]
          cases key <;> rfl
  | configured hsetting _ _ _ =>
      exact .inr (.inr ⟨h.no_owners, _, _, _, _, env, call, hcalls, hsetting⟩)

/-- Binding a slot leaves it guarded by the one who called. -/
theorem Tx.Binds.guards (hst : Step P d w a w') (hbinds : Tx.Binds ⟨w, a, w'⟩ key admin) :
    Guards w' key admin := by
  obtain ⟨hnone, hsome⟩ := hbinds
  dsimp only at hnone hsome
  have hchanged : w'.storage.admins ≠ w.storage.admins := by
    intro hsame
    rw [hsame, hnone] at hsome
    cases hsome
  refine ⟨?_, hsome⟩
  rcases step_controlled hst with ⟨hafter, _⟩ | ⟨env, call, hcalls, hcontrolled⟩
  · exact absurd (congrArg Controls.admins hafter) hchanged
  cases hcontrolled with
  | kept _ _ hafter => exact absurd (congrArg Controls.admins hafter) hchanged
  | approved _ _ _ hafter => exact absurd (congrArg Controls.admins hafter) hchanged
  | @gated caller setting admin_key w1 _ hslot _ hgate hafter =>
      have hadmins : w'.storage.admins = w1.storage.admins := by
        calc w'.storage.admins = (install w1 setting).storage.admins :=
              congrArg Controls.admins hafter
          _ = w1.storage.admins := install_admins w1 setting
      cases hgate with
      | owner _ _ => exact absurd hadmins hchanged
      | quorum _ _ _ => exact absurd hadmins hchanged
      | bound _ _ => exact absurd hadmins hchanged
      | binds hempty _ =>
          calc getMultisigOwners w'
              = getMultisigOwners (install (setAdmin w.quiet admin_key caller) setting) :=
                congrArg (fun c : Controls => c.ms_own.getD []) hafter
            _ = getMultisigOwners (setAdmin w.quiet admin_key caller) := install_owners hslot
            _ = [] := hempty
  | configured _ _ hgate hafter =>
      have hadmins := congrArg Controls.admins hafter
      cases hgate with
      | owner _ _ => exact absurd hadmins hchanged
      | quorum _ _ _ => exact absurd hadmins hchanged
      | bootstrap _ => exact absurd hadmins hchanged

/-! ## Runs -/

variable {tr before after : List Tx} {t : Tx}

/-- **Along a run** the slot stays guarded and keeps its value until the admin authorises a
call, unless somebody else configures the first owners. -/
theorem Guards.run (h : Guards w key admin) (hrun : Runs P d w tr w')
    (hboot : ∀ x ∈ tr, x.Bootstraps → x.AuthorizedBy admin) :
    (Guards w' key admin ∧ slotValue w' key = slotValue w key) ∨
      ∃ x ∈ tr, x.AuthorizedBy admin := by
  induction hrun with
  | nil => exact .inl ⟨h, rfl⟩
  | @snoc m m' a tr _ hst ih =>
      rw [List.forall_mem_append, List.forall_mem_singleton] at hboot
      have hlast : (⟨m, a, m'⟩ : Tx) ∈ tr ++ [⟨m, a, m'⟩] := by simp
      rcases ih hboot.1 with ⟨hguards, hvalue⟩ | ⟨x, hx, hauth⟩
      · rcases hguards.step hst with ⟨hguards', hvalue'⟩ | hauth | hbootstraps
        · exact .inl ⟨hguards', hvalue'.trans hvalue⟩
        · exact .inr ⟨_, hlast, hauth⟩
        · exact .inr ⟨_, hlast, hboot.2 hbootstraps⟩
      · exact .inr ⟨x, List.mem_append_left _ hx, hauth⟩

/-- **No silent takeover** of a slot that was bound to an admin, in every run in which the admin
authorises whatever configures the first owners: whenever the value in the slot changes, the
admin has authorised that call or one since the slot was bound. -/
theorem slot_guarded {w0 : State} (h : Runs P d w0 (before ++ t :: after) w)
    (hbinds : t.Binds key admin)
    (hboot : ∀ x ∈ after, x.Bootstraps → x.AuthorizedBy admin) :
    ∀ xs x ys, after = xs ++ x :: ys → slotValue x.post key ≠ slotValue x.pre key →
      ∃ y ∈ xs ++ [x], y.AuthorizedBy admin := by
  rintro xs x ys rfl hchanged
  obtain ⟨_, hst, hafter⟩ := h.around
  obtain ⟨hxs, hx, _⟩ := hafter.around
  have hboot' : ∀ y ∈ xs ++ [x], y.Bootstraps → y.AuthorizedBy admin := by
    intro y hy
    refine hboot y ?_
    rw [List.append_cons]
    exact List.mem_append_left _ hy
  rw [List.forall_mem_append, List.forall_mem_singleton] at hboot'
  rcases (hbinds.guards hst).run hxs hboot'.1 with ⟨hguards, _⟩ | ⟨y, hy, hauth⟩
  · rcases hguards.step hx with ⟨_, hvalue⟩ | hauth | hbootstraps
    · exact absurd hvalue hchanged
    · exact ⟨x, by simp, hauth⟩
    · exact ⟨x, by simp, hboot'.2 hbootstraps⟩
  · exact ⟨y, List.mem_append_left _ hy, hauth⟩

end

/-! ## A takeover -/

section

open Scenario

/-- The owner wires a circuit breaker and becomes its admin. -/
def wireFirst : Move := .invoke [owner] honestSwap (.setCircuitBreaker owner venue)

/-- A stranger makes itself the only owner and wires another circuit breaker. -/
def takeover : List Move := [
  .invoke [stranger] honestSwap (.setMultisigConfig stranger [stranger] 1 100),
  .invoke [stranger] honestSwap (.setCircuitBreaker stranger oracle)]

def configuring : Move :=
  .invoke [owner] honestSwap (.setMultisigConfig owner [agent, stranger] 2 100)

/-- The admin configures two owners, who then propose another circuit breaker together. -/
def handover : List Move := [
  configuring,
  .invoke [agent] honestSwap (.proposeCircuitBreaker agent oracle),
  .invoke [stranger] honestSwap (.proposeCircuitBreaker stranger oracle)]

def rewiring : Move := .invoke [stranger] honestSwap (.setCircuitBreaker stranger oracle)

theorem wireFirst_binds : (txAfter [] wireFirst).Binds .cb_admin owner := by
  refine ⟨?_, ?_⟩
  · decide +kernel
  · decide +kernel

/-- The circuit breaker changes hands, and its admin has authorised nothing since it was bound. -/
theorem stranger_takes_over :
    ¬ ∀ (P : Platform) (d : Deployment) (w0 w : State) (before after : List Tx) (t : Tx)
      (key : AdminKey) (admin : Address), Genesis w0 → Runs P d w0 (before ++ t :: after) w →
      t.Binds key admin → ∀ xs x ys, after = xs ++ x :: ys →
      slotValue x.post key ≠ slotValue x.pre key → ∃ y ∈ xs ++ [x], y.AuthorizedBy admin := by
  intro h
  obtain ⟨y, hy, env, call, ⟨hact, _⟩, hauth⟩ := h testnet deployed start _ _ _ _ .cb_admin owner
    start_genesis (script_runs_split [] wireFirst takeover (by decide +kernel)) wireFirst_binds
    [_] _ [] rfl (by decide +kernel)
  rcases List.mem_cons.mp hy with rfl | hy
  · cases hact
    exact absurd hauth (by decide)
  · obtain rfl := List.mem_singleton.mp hy
    cases hact
    exact absurd hauth (by decide)

theorem slot_guarded_handover :
    ∃ y ∈ historyAfter [wireFirst] handover ++ [txAfter ([wireFirst] ++ handover) rewiring],
      y.AuthorizedBy owner := by
  refine slot_guarded (script_runs_split [] wireFirst (handover ++ [rewiring]) (by decide +kernel))
    wireFirst_binds ?_ _ _ [] (historyAfter_snoc [wireFirst] handover rewiring) (by decide +kernel)
  intro x hx hbootstraps
  have howners : ∀ x ∈ (historyAfter [wireFirst] (handover ++ [rewiring])).tail,
      getMultisigOwners x.pre ≠ [] := by decide +kernel
  rcases List.mem_cons.mp hx with rfl | hx
  · have hcalls : Tx.Calls (txAfter [wireFirst] configuring) _ _ :=
      txAfter_calls (by decide +kernel)
    exact ⟨_, _, hcalls, by decide⟩
  · exact absurd hbootstraps.1 (howners x hx)

end

end StellarAgent.PaymentChannel
