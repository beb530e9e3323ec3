import StellarAgent.AmmSwap.Contract

set_option autoImplicit false

/-! # Who pays for the swaps

`execute_swap` believes the amount it is told: nothing compares it with what the contract has
received, so a caller that has sent nothing is paid like one that has. What the venue takes in
covers what it is told only as far as every caller sends its tokens before it calls.
-/

namespace StellarAgent.AmmSwap

open Lib Soroban

/-- What a swap that returned says was paid for it in `token`; zero for anything else. -/
def swapped (token : Address) (x : Tx) : Int :=
  match x.act with
  | .invoke env (.executeSwap from_token from_amount to_token min_out recipient) =>
      if from_token = token ∧ (exec env x.pre.quiet
        (.executeSwap from_token from_amount to_token min_out recipient)).isOk = true
      then from_amount else 0
  | .invoke _ _ => 0
  | .closeLedgers _ => 0
  | .external _ => 0

/-- What a transaction that the contract takes no part in sends to it in `token`. The transfers
of `fund` are not among these. -/
def deposited (d : Deployment) (token : Address) (x : Tx) : Int :=
  match x.act with
  | .invoke _ _ => 0
  | .closeLedgers _ => 0
  | .external balance => balance token d.address - x.pre.balance token d.address

/-- Every swap from `token` has a transfer of its own to the contract, made before it, of at
least the amount the swap says was paid. -/
def Prepaid (d : Deployment) (token : Address) (tr : List Tx) : Prop :=
  ∃ payment : ℕ → ℕ,
    Set.InjOn payment {i : ℕ | 0 < tr[i]?.elim 0 (swapped token)} ∧
      ∀ i : ℕ, 0 < tr[i]?.elim 0 (swapped token) → payment i < i ∧
        tr[i]?.elim 0 (swapped token) ≤ tr[payment i]?.elim 0 (deposited d token)

section

variable {P : Platform} {d : Deployment} {w0 w w' : State} {a : Action Call} {tr : List Tx}

theorem deposited_nonneg (token : Address) (hst : Step P d w a w') :
    0 ≤ deposited d token ⟨w, a, w'⟩ := by
  obtain ⟨hallowed, _⟩ := hst
  cases a with
  | invoke env call => exact le_rfl
  | closeLedgers count => exact le_rfl
  | external balance =>
      have hmore : w.balance token d.address ≤ balance token d.address := hallowed token
      show 0 ≤ balance token d.address - w.balance token d.address
      omega

end

/-! ## A pool on the local network -/

section

open LocalNet

/-- A fresh venue on the local network. -/
def deployment : State := start Event Storage.fresh

abbrev Line := Move platform deployed Call

def sold : Address := ⟨2⟩
def bought : Address := ⟨4⟩

/-- Account 1 funds 500 of the bought token, and quotes one for one. -/
def stocked : List Line := [
  signed [account 1] (.initializeAmm (account 1)),
  signed [account 1] (.fund (account 1) bought 500),
  signed [account 1] (.setRate (account 1) sold bought RATE_SCALE)]

/-- A stranger asks for 300 of the bought token. -/
def takes : Line := signed [stranger] (.executeSwap sold 300 bought 0 stranger)

/-- The stranger sends 300 of the sold token to the contract. -/
def pays : Action Call :=
  .external ((ammSwap.outcome deployment stocked).balance.move sold stranger contract 300)

def paidWorld : State := ammSwap.next (ammSwap.outcome deployment stocked) pays

/-- Funding, payment and swap. -/
def paidSwap : List Tx :=
  ammSwap.history deployment stocked ++
    ([⟨ammSwap.outcome deployment stocked, pays, paidWorld⟩] ++ ammSwap.history paidWorld [takes])

theorem pays_step :
    Step platform deployed (ammSwap.outcome deployment stocked) pays paidWorld := by
  refine ⟨fun token => ?_, rfl⟩
  show _ ≤ TokenLedger.move _ sold stranger contract 300 token contract
  unfold TokenLedger.move
  by_cases htoken : token = sold
  · have hne : contract ≠ stranger := by decide
    rw [if_pos htoken, if_neg hne, if_pos rfl]
    show _ ≤ (ammSwap.outcome deployment stocked).balance token contract - 0 + 300
    have hsame : deployed.address = contract := rfl
    rw [hsame]
    omega
  · rw [if_neg htoken]
    exact le_rfl

theorem paidSwap_runs :
    Runs platform deployed deployment paidSwap (ammSwap.outcome paidWorld [takes]) :=
  (Contract.script_runs stocked (by decide +kernel)).append
    ((Run.single pays_step).append (Contract.script_runs [takes] (by decide +kernel)))

theorem paidSwap_amounts :
    paidSwap.map (swapped sold) = [0, 0, 0, 0, 300] ∧
      paidSwap.map (deposited deployed sold) = [0, 0, 0, 300, 0] := by decide +kernel

end

end StellarAgent.AmmSwap
