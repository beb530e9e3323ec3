import Mathlib.Tactic

set_option autoImplicit false

/-! # Routes

`packages/core/src/routing/types.ts`: hops, quotes and requests. A JavaScript number is a rational,
an infinity or not a number; sums are exact here, as they are for the small integers that the checks
let through. Amounts are texts that must be canonical integers.
-/

namespace StellarAgent.Routing

/-! ## Numbers -/

inductive Number where
  | finite (value : ℚ)
  | infinite (negative : Bool)
  | nan
  deriving DecidableEq

namespace Number

instance (n : ℕ) : OfNat Number n := ⟨.finite n⟩

/-- `Number.isInteger` -/
def isInteger : Number → Bool
  | finite value => value.den == 1
  | _ => false

/-- `<` -/
def lt : Number → Number → Bool
  | finite a, finite b => decide (a < b)
  | finite _, infinite negative => !negative
  | infinite negative, finite _ => negative
  | infinite a, infinite b => a && !b
  | nan, _ => false
  | _, nan => false

/-- `<=` -/
def le (a b : Number) : Bool := lt a b || (a == b && a != nan)

def add : Number → Number → Number
  | finite a, finite b => finite (a + b)
  | finite _, infinite negative => infinite negative
  | infinite negative, finite _ => infinite negative
  | infinite a, infinite b => if a = b then infinite a else nan
  | nan, _ => nan
  | _, nan => nan

/-- `Math.min` -/
def min (a b : Number) : Number :=
  if a = nan ∨ b = nan then nan else if lt a b then a else b

/-- `Math.max` -/
def max (a b : Number) : Number :=
  if a = nan ∨ b = nan then nan else if lt a b then b else a

/-- `BigInt` of an integer -/
def toInt : Number → ℤ
  | finite value => value.num
  | _ => 0

/-- How a number reads; only integers occur in texts. -/
def text : Number → String
  | finite value => toString value.num
  | infinite negative => if negative then "-Infinity" else "Infinity"
  | nan => "NaN"

/-- An integer with the given bounds -/
def isIntegerIn (value lowest largest : Number) : Bool :=
  value.isInteger && !lt value lowest && !lt largest value

/-- `Number.isSafeInteger` -/
def isSafeInteger (value : Number) : Bool :=
  value.isIntegerIn (finite (-(2 ^ 53 - 1))) (finite (2 ^ 53 - 1))

end Number

/-! ## Amounts -/

/-- `/^(0|[1-9][0-9]*)$/` -/
def isCanonical (text : String) : Bool :=
  match text.toList with
  | [] => false
  | ['0'] => true
  | first :: rest => first != '0' && (first :: rest).all Char.isDigit

/-- `BigInt` of a canonical integer -/
def amountOf (text : String) : ℕ := Nat.ofDigitChars 10 text.toList 0

/-! ## Hops and quotes -/

inductive RouteVenue where
  | direct
  | amm
  | path_payment
  deriving DecidableEq

inductive RouteUnavailableCode where
  | UNSUPPORTED_PAIR
  | INSUFFICIENT_LIQUIDITY
  | VENUE_UNAVAILABLE
  | QUOTE_EXPIRED
  | INVALID_QUOTE
  deriving DecidableEq

/-- One executable segment of a route. -/
structure RouteHop where
  venue : RouteVenue
  venueId : String
  sourceAsset : String
  destinationAsset : String
  sourceAmount : String
  expectedOutput : String
  feeAmount : String
  feeBps : Number
  slippageBps : Number
  reliabilityBps : Number
  path : Option (List String)
  minOutput : Option String
  deriving DecidableEq

/-- A quote that the selector consumes. -/
structure RouteQuote where
  id : String
  sourceAsset : String
  destinationAsset : String
  sourceAmount : String
  expectedDestinationAmount : String
  totalFeeBps : Number
  expectedSlippageBps : Number
  reliabilityBps : Number
  hopCount : Number
  hops : List RouteHop
  expiresAtLedger : Option Number
  deriving DecidableEq

structure RouteRequest where
  sourceAsset : String
  destinationAsset : String
  sourceAmount : String
  currentLedger : Option Number
  allowedIntermediates : Option (List String)

structure RouteProviderContext where
  maxHops : ℕ
  maxCandidates : ℕ

structure OracleReference where
  expectedDestinationAmount : String
  reliabilityBps : Number
  expiresAtLedger : Option Number

structure AmmPair where
  sourceAsset : String
  destinationAsset : String
  deriving DecidableEq

structure AmmHopQuote where
  expectedOutput : String
  feeAmount : Option String
  feeBps : Option Number
  slippageBps : Option Number
  reliabilityBps : Option Number
  minOutput : Option String

/-! ## Errors -/

/-- What discovery and planning throw. -/
inductive Thrown where
  | RouteUnavailable (code : RouteUnavailableCode) (message : String)
  | StellarAgent (code message : String) (cause : Option String)
  | Range (message : String)
  deriving DecidableEq

end StellarAgent.Routing
