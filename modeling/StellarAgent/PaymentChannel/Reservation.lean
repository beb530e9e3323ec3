import StellarAgent.PaymentChannel.Refinement
import StellarAgent.PaymentChannel.Scenario

set_option autoImplicit false

/-! # What a reservation backs

A voucher is cumulative for the life of the channel, so it must exceed everything settled
before; but it is compared with the current reservation alone. A reservation of `X` made after
`S` was settled backs the amounts above `S` up to `X`, not up to `S + X`
(`boundsAccept_iff`), and none at all once `X ≤ S`.
-/

namespace StellarAgent.PaymentChannel

open Lib Soroban

/-- The bounds of `verify_voucher` accept the amount `c` for `(id, r)`: with some signature, on
some platform, it passes. -/
def boundsAccept (w : State) (id : Nat) (r : Address) (c : Int) : Prop :=
  ∃ ch env sequence signature, (loadChannels w).lookup id = some ch ∧
    verifyVoucher env w ch id r sequence c signature = .ok ()

/-- An environment in which every signature verifies. -/
def grantingEnv : Env where
  platform := { to_xdr := fun _ => [], sha256 := fun _ => ⟨toBE 32 0, toBE_length 32 0⟩,
                ed25519_verify := fun _ _ _ => true }
  contract := { network_id := ⟨toBE 32 0, toBE_length 32 0⟩, address := ⟨0⟩ }
  authorized := fun _ => false
  is_paused := fun _ => none
  get_price := fun _ _ _ => none
  execute_swap := fun _ _ => none
  self_unauthorized := rfl

section

variable {w : State} {id : Nat} {r : Address} {ch : Channel} {a : Allocation}

/-- The accepted amounts are those above what was settled and within the reservation. -/
theorem boundsAccept_iff (hl : (loadChannels w).lookup id = some ch)
    (hsigner : ch.voucher_signer ≠ none) (ha : allocation w id r = some a) (c : Int) :
    boundsAccept w id r c ↔ 0 < c ∧ a.settled < c ∧ c ≤ a.amount := by
  constructor
  · rintro ⟨ch', env, sequence, signature, hl', hverify⟩
    obtain ⟨_, x, _, hx, hpos, hcovered, hfresh, _⟩ := verifyVoucher_eq_ok.mp hverify
    obtain rfl : a = x := Option.some.inj (ha.symm.trans hx)
    exact ⟨hpos, hfresh, hcovered⟩
  · rintro ⟨hpos, hfresh, hcovered⟩
    obtain ⟨pk, hpk⟩ := Option.ne_none_iff_exists'.mp hsigner
    exact ⟨ch, grantingEnv, 0, ⟨toBE 64 0, toBE_length 64 0⟩, hl,
      verifyVoucher_eq_ok.mpr ⟨pk, a, hpk, ha, hpos, hcovered, hfresh, rfl⟩⟩

/-- **What a reservation backs.** In a reachable state with `X > 0` reserved for a pair, the bounds
accept exactly the amounts above `S` up to `S + X` if and only if nothing has been settled for
the pair yet. -/
theorem reservation_backs_iff {P : Platform} {d : Deployment} {w0 : State} {tr : List Tx}
    (h0 : Genesis w0) (h : Runs P d w0 tr w) (ha : allocation w id r = some a)
    (hpos : 0 < a.amount) :
    (∀ c, boundsAccept w id r c ↔ a.settled < c ∧ c ≤ a.settled + a.amount) ↔ a.settled = 0 := by
  have hinv : (book w).Inv := (Runs.refines h (genesis_inv h0)).2
  obtain ⟨ch, hl, hsigner⟩ := hinv.home id r a ha
  have hsettled := (hinv.amounts (id, r) a ha).2
  simp only [boundsAccept_iff hl hsigner ha]
  constructor
  · intro hall
    -- the top amount, `S + X`, is accepted only if it is at most `X`
    have htop := (hall (a.settled + a.amount)).mpr ⟨by omega, le_rfl⟩
    omega
  · intro hzero c
    omega

end

/-! ## A reservation that backs nothing -/

section

open Scenario

/-- 50 are settled out of a reservation of 100, then 40 are reserved again. -/
def reallocateScript : List Move := [
  .invoke [owner] honestSwap (.openChannel owner agent usdc 200 100 .Daily),
  .invoke [owner] honestSwap (.enableVouchers owner 1 voucherKey 720),
  .invoke [owner] honestSwap (.allocate owner 1 recipient 100),
  .invoke [owner, recipient] honestSwap (.closeCooperative 1 recipient 2 50 signature50),
  .invoke [owner] honestSwap (.allocate owner 1 recipient 40)]

/-- The script is legal, and what it leaves: the signature is checked once for all of it. -/
theorem reallocate_executed :
    legal start reallocateScript = true ∧
      allocation (outcome reallocateScript) 1 recipient = some { amount := 40, settled := 50 } ∧
      settlement (outcome reallocateScript) 1 recipient = none := by decide +kernel

theorem reallocate_runs :
    Runs testnet deployed start (history reallocateScript) (outcome reallocateScript) :=
  script_runs reallocateScript reallocate_executed.1

/-- 40 are reserved and nothing can be settled. -/
theorem reallocated_reservation_locked :
    ¬ ∀ (P : Platform) (d : Deployment) (w0 w : State) (tr : List Tx) (id : Nat) (r : Address)
      (a : Allocation), Genesis w0 → Runs P d w0 tr w → allocation w id r = some a →
      0 < a.amount → settlement w id r = none →
      ∀ c, boundsAccept w id r c ↔ a.settled < c ∧ c ≤ a.settled + a.amount := by
  intro h
  obtain ⟨_, hallocation, hquiet⟩ := reallocate_executed
  have hall := h testnet deployed start _ _ 1 recipient _ start_genesis reallocate_runs
    hallocation (by decide) hquiet
  obtain ⟨ch, _, _, _, hl, hverify⟩ := (hall 90).mpr (by decide)
  obtain ⟨_, x, _, hx, _, hcovered, _⟩ := verifyVoucher_eq_ok.mp hverify
  cases hallocation.symm.trans hx
  exact absurd hcovered (by decide)

theorem reservation_backs_iff_reallocated :
    ¬ ∀ c, boundsAccept (outcome reallocateScript) 1 recipient c ↔ 50 < c ∧ c ≤ 50 + 40 := by
  intro hall
  have hzero := (reservation_backs_iff start_genesis reallocate_runs reallocate_executed.2.1
    (by decide)).mp hall
  exact absurd hzero (by decide)

end

end StellarAgent.PaymentChannel
