import StellarAgent.Lib.FinMap
import StellarAgent.Soroban.Transactions

set_option autoImplicit false

/-! # The price oracle

`contracts/price_oracle/src/lib.rs`: one admin publishes the price of a base asset in a quote asset,
stamped with the ledger, and a price is read only as long as it is no older than `max_age`.
-/

namespace StellarAgent.PriceOracle

open Lib Soroban

def PRICE_SCALE : Int := 10000000

def DEFAULT_MAX_PRICE_AGE_LEDGERS : Nat := 60

structure PriceEntry where
  price : Int
  ledger : Nat
  deriving DecidableEq

/-- One field for each key of the instance storage. -/
structure Storage where
  admin : Option Address
  max_age : Option Nat
  prices : Option (Map Address (Map Address PriceEntry))

/-- The storage of a freshly deployed contract. -/
def Storage.fresh : Storage where
  admin := none
  max_age := none
  prices := none

inductive Event where
  | price (base : Address) (price : Int)

/-- The world an oracle runs in. -/
abbrev State := World Storage Event

/-! ## Internals -/

/-- `prices`, or the empty map -/
def allPrices (w : State) : Map Address (Map Address PriceEntry) := w.storage.prices.getD ∅

def pricesFor (w : State) (base : Address) : Map Address PriceEntry :=
  ((allPrices w).lookup base).getD ∅

def savePricesFor (w : State) (base : Address) (by_base : Map Address PriceEntry) : State :=
  { w with storage := { w.storage with prices := some ((allPrices w).insert base by_base) } }

def entryFor (w : State) (base quote : Address) : Result PriceEntry :=
  expect ((pricesFor w base).lookup quote) "price not available"

def getMaxAge (w : State) : Nat := w.storage.max_age.getD DEFAULT_MAX_PRICE_AGE_LEDGERS

/-- `saturating_sub` is the subtraction of `Nat`. -/
def requireFresh (w : State) (entry : PriceEntry) : Result Unit :=
  panicIf (getMaxAge w < w.sequence - entry.ledger) "price is stale"

def requireAdmin (env : Env) (w : State) (admin : Address) : Result Unit := do
  requireAuth env admin
  let stored ← expect w.storage.admin "not initialized"
  panicIf (stored ≠ admin) "not the admin"

/-! ## Entry points -/

/-- `initialize` -/
def initializeOracle (env : Env) (w : State) (admin : Address) : Result State := do
  panicIf (w.storage.admin ≠ none) "already initialized"
  requireAuth env admin
  return { w with storage := { w.storage with
    admin := some admin, max_age := some DEFAULT_MAX_PRICE_AGE_LEDGERS } }

def setPrice (env : Env) (w : State) (admin base quote : Address) (price : Int) :
    Result State := do
  requireAdmin env w admin
  panicIf (price ≤ 0) "price must be positive"
  let entry : PriceEntry := { price, ledger := w.sequence }
  let by_base := (pricesFor w base).insert quote entry
  return (savePricesFor w base by_base).publish (.price base price)

def setMaxAge (env : Env) (w : State) (admin : Address) (max_age : Nat) : Result State := do
  requireAdmin env w admin
  return { w with storage := { w.storage with max_age := some max_age } }

/-! ## Queries -/

def getPrice (w : State) (base quote : Address) : Result Int :=
  if base = quote then .ok PRICE_SCALE
  else do
    let entry ← entryFor w base quote
    requireFresh w entry
    return entry.price

def getPriceAge (w : State) (base quote : Address) : Result Nat :=
  if base = quote then .ok 0
  else do
    let entry ← entryFor w base quote
    return w.sequence - entry.ledger

def hasPrice (w : State) (base quote : Address) : Bool :=
  decide (base = quote) || ((pricesFor w base).lookup quote).isSome

def getAdmin (w : State) : Result Address := expect w.storage.admin "not initialized"

/-! ## The contract as a transition system -/

inductive Call where
  | initializeOracle (admin : Address)
  | setPrice (admin base quote : Address) (price : Int)
  | setMaxAge (admin : Address) (max_age : Nat)

def exec (env : Env) (w : State) : Call → Result State
  | .initializeOracle admin => initializeOracle env w admin
  | .setPrice admin base quote price => setPrice env w admin base quote price
  | .setMaxAge admin max_age => setMaxAge env w admin max_age

/-- The arguments are values of their declared types. -/
def Call.WellTyped : Call → Prop
  | .initializeOracle _ => True
  | .setPrice _ _ _ price => IsI128 price
  | .setMaxAge _ max_age => max_age ≤ U32_MAX

instance : DecidablePred Call.WellTyped
  | .initializeOracle .. => inferInstanceAs (Decidable True)
  | .setPrice .. => inferInstanceAs (Decidable (IsI128 _))
  | .setMaxAge .. => inferInstanceAs (Decidable (_ ≤ _))

/-- The price oracle contract. -/
def priceOracle : Contract Storage Event Call where
  exec := exec
  wellTyped := Call.WellTyped

instance : DecidablePred priceOracle.wellTyped :=
  inferInstanceAs (DecidablePred Call.WellTyped)

/-- The worlds a deployment starts in. -/
def Genesis (w : State) : Prop := w.storage = Storage.fresh

abbrev Step (P : Platform) (d : Deployment) : State → Action Call → State → Prop :=
  priceOracle.Step P d

abbrev Tx := priceOracle.Tx

abbrev Runs (P : Platform) (d : Deployment) : State → List Tx → State → Prop :=
  priceOracle.Runs P d

/-- The transaction publishes a price of `base` in `quote`. -/
def Tx.Publishes (x : Tx) (base quote : Address) (price : Int) : Prop :=
  ∃ env admin, priceOracle.Calls x env (.setPrice admin base quote price)

end StellarAgent.PriceOracle
