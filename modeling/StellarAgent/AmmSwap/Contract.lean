import StellarAgent.Lib.FinMap
import StellarAgent.Soroban.Transactions

set_option autoImplicit false

/-! # The swap venue

`contracts/amm_swap/src/lib.rs`: an admin funds reserves and sets fixed rates, and `execute_swap`
pays out at the rate. It does not take the sold tokens itself. Callers are expected to have sent
them before, as `execute_conversion` of the PaymentChannel does in the same transaction.

Left out: `has_rate`, and entry lifetimes.
-/

namespace StellarAgent.AmmSwap

open Lib Soroban

/-- Units of `to_token` are quoted for this many of `from_token`. -/
def RATE_SCALE : Int := 10000000

/-! ## Storage -/

/-- One field for each key. -/
structure Storage where
  admin : Option Address
  rates : Option (Map Address (Map Address Int))

/-- The storage of a freshly deployed contract. -/
def Storage.fresh : Storage where
  admin := none
  rates := none

inductive Event where
  | init (admin : Address)
  | fund (token : Address) (amount : Int)
  | set_rate (from_token to_token : Address) (rate : Int)
  | swap (from_token : Address) (from_amount : Int) (to_token : Address) (out : Int)
      (recipient : Address)

/-- The world a swap venue runs in. -/
abbrev State := World Storage Event

def rates (w : State) : Map Address (Map Address Int) := w.storage.rates.getD ∅

/-- `rates_for` -/
def ratesFor (w : State) (from_token : Address) : Map Address Int :=
  ((rates w).lookup from_token).getD ∅

/-- `save_rates_for` -/
def saveRatesFor (w : State) (from_token : Address) (by_from : Map Address Int) : State :=
  { w with storage := { w.storage with rates := some ((rates w).insert from_token by_from) } }

/-! ## Entry points -/

/-- `require_admin` -/
def requireAdmin (env : Env) (w : State) (admin : Address) : Result Unit := do
  requireAuth env admin
  let stored ← expect w.storage.admin "not initialized"
  panicIf (stored ≠ admin) "not the admin"

/-- `initialize` -/
def initializeAmm (env : Env) (w : State) (admin : Address) : Result State := do
  panicIf (w.storage.admin.isSome = true) "already initialized"
  requireAuth env admin
  let w := { w with storage := { w.storage with admin := some admin } }
  return w.publish (.init admin)

def fund (env : Env) (w : State) (admin token : Address) (amount : Int) : Result State := do
  requireAdmin env w admin
  let w ← w.transfer token admin env.self amount
  return w.publish (.fund token amount)

def setRate (env : Env) (w : State) (admin from_token to_token : Address) (rate : Int) :
    Result State := do
  requireAdmin env w admin
  panicIf (rate ≤ 0) "rate must be positive"
  let by_from := (ratesFor w from_token).insert to_token rate
  return (saveRatesFor w from_token by_from).publish (.set_rate from_token to_token rate)

/-- `checked_mul` -/
def checkedMul (a b : Int) : Option Int := if IsI128 (a * b) then some (a * b) else none

def quote (w : State) (from_token : Address) (from_amount : Int) (to_token : Address) :
    Result Int := do
  panicIf (from_amount ≤ 0) "from_amount must be positive"
  let rate ← expect ((ratesFor w from_token).lookup to_token) "no rate configured for this pair"
  let product ← expect (checkedMul from_amount rate) "overflow computing swap output"
  return product.tdiv RATE_SCALE

def executeSwap (env : Env) (w : State) (from_token : Address) (from_amount : Int)
    (to_token : Address) (min_out : Int) (recipient : Address) : Result (Int × State) := do
  panicIf (from_amount ≤ 0) "from_amount must be positive"
  let out ← quote w from_token from_amount to_token
  panicIf (out < min_out) "swap output below min_out"
  let w ← w.transfer to_token env.self recipient out
  return (out, w.publish (.swap from_token from_amount to_token out recipient))

/-! ## The contract as a transition system -/

inductive Call where
  | initializeAmm (admin : Address)
  | fund (admin token : Address) (amount : Int)
  | setRate (admin from_token to_token : Address) (rate : Int)
  | executeSwap (from_token : Address) (from_amount : Int) (to_token : Address) (min_out : Int)
      (recipient : Address)

def exec (env : Env) (w : State) : Call → Result State
  | .initializeAmm admin => initializeAmm env w admin
  | .fund admin token amount => fund env w admin token amount
  | .setRate admin from_token to_token rate => setRate env w admin from_token to_token rate
  | .executeSwap from_token from_amount to_token min_out recipient =>
      Prod.snd <$> executeSwap env w from_token from_amount to_token min_out recipient

/-- The arguments are values of their declared types. -/
def Call.WellTyped : Call → Prop
  | .initializeAmm _ => True
  | .fund _ _ amount => IsI128 amount
  | .setRate _ _ _ rate => IsI128 rate
  | .executeSwap _ from_amount _ min_out _ => IsI128 from_amount ∧ IsI128 min_out

instance : DecidablePred Call.WellTyped
  | .initializeAmm _ => inferInstanceAs (Decidable True)
  | .fund .. => inferInstanceAs (Decidable (IsI128 _))
  | .setRate .. => inferInstanceAs (Decidable (IsI128 _))
  | .executeSwap .. => inferInstanceAs (Decidable (_ ∧ _))

/-- The swap contract. -/
def ammSwap : Contract Storage Event Call where
  exec := exec
  wellTyped := Call.WellTyped

instance : DecidablePred ammSwap.wellTyped := inferInstanceAs (DecidablePred Call.WellTyped)

abbrev Step (P : Platform) (d : Deployment) : State → Action Call → State → Prop :=
  ammSwap.Step P d

abbrev Tx := ammSwap.Tx

abbrev Runs (P : Platform) (d : Deployment) : State → List Tx → State → Prop :=
  ammSwap.Runs P d

end StellarAgent.AmmSwap
