import StellarAgent.Math.Literal

set_option autoImplicit false

/-! # The bid scorers

`sdk/rust/src/math/bid.rs` over the decimals of the Rust SDK, and `packages/core/src/math/bid.ts`
over `BigNumber`, whose values are rationals here: sums and products are exact, quotients keep 18
decimal places, and `bn` is what it reads of a string.
-/

namespace StellarAgent.Math

open Lib

/-! ## Bids -/

structure AgentBid where
  agent_address : String
  price : String
  reputation : String
  estimated_latency_seconds : String
  success_rate : String

structure BidWeights where
  price : String
  reputation : String
  latency : String
  reliability : String

structure ScoreBreakdown where
  price_score : String
  reputation_score : String
  latency_score : String
  reliability_score : String
  deriving DecidableEq

structure ScoredBid where
  agent_address : String
  score : String
  breakdown : ScoreBreakdown
  deriving DecidableEq

/-- The errors of both SDKs -/
inductive FixedPointError where
  | NotFinite (value : String)
  | DivisionByZero
  | PlacesTooLarge (places max : ℕ)
  | InvalidWeights (sum : String)

/-- The decimal places of a quotient -/
def DECIMAL_PLACES : ℕ := 18

/-! ## The Rust scorer -/

namespace Rust

open Decimal

def bn (value : String) : Except FixedPointError Decimal :=
  match parse value with
  | .ok a => .ok a
  | .error (.Syntax input) | .error (.NotFinite input) => .error (.NotFinite input)
  | .error (.ScaleTooLarge scale) =>
      .error (.PlacesTooLarge (min (max scale 0) U32_MAX).toNat MAX_SCALE)

def div (a b : Decimal) : Except FixedPointError Decimal :=
  match a.divTruncate b DECIMAL_PLACES with
  | some quotient => .ok quotient
  | none => .error .DivisionByZero

def clamp (value minimum maximum : Decimal) : Decimal :=
  let lifted := if value.cmp minimum = .gt then value else minimum
  if lifted.cmp maximum = .lt then lifted else maximum

def hundred : Decimal := ⟨100, 0⟩

/-- Truncated and then formatted -/
def fixed4 (value : Decimal) : String := (value.truncate 4).toFixed 4

def keepLarger (max : Option Decimal) (value : Decimal) : Option Decimal :=
  match max with
  | some current => if current.cmp value ≠ .lt then some current else some value
  | none => some value

/-- The largest value of one field, with 7 decimal places -/
def maxField (bids : List AgentBid) (field : AgentBid → String) :
    Except FixedPointError Decimal := do
  let values ← bids.mapM fun bid => bn (field bid)
  bn (((values.foldl keepLarger none).getD zero).toFixed 7)

def weightSum (weights : BidWeights) : Except FixedPointError Decimal := do
  let price ← bn weights.price
  let reputation ← bn weights.reputation
  let latency ← bn weights.latency
  let reliability ← bn weights.reliability
  return ((price.add reputation).add latency).add reliability

/-- The price score and the latency score: full marks for a zero normaliser -/
def ratioScore (field : String) (normaliser : Decimal) : Except FixedPointError Decimal :=
  if normaliser.isZero then .ok hundred
  else do
    let value ← bn field
    let ratio ← div value normaliser
    return clamp ((one.sub ratio).mul hundred) zero hundred

def scoreBid (bid : AgentBid) (max_bid max_latency : Decimal) (weights : BidWeights) :
    Except FixedPointError ScoredBid := do
  let weight_sum ← weightSum weights
  if weight_sum.eq one = false then .error (.InvalidWeights (weight_sum.toFixed 4))
  else
    let price_score ← ratioScore bid.price max_bid
    let reputation ← bn bid.reputation
    let reputation_score := clamp reputation zero hundred
    let latency_score ← ratioScore bid.estimated_latency_seconds max_latency
    let success_rate ← bn bid.success_rate
    let reliability_score := clamp (success_rate.mul hundred) zero hundred
    let price ← bn weights.price
    let reputation ← bn weights.reputation
    let latency ← bn weights.latency
    let reliability ← bn weights.reliability
    let composite := (((price_score.mul price).add (reputation_score.mul reputation)).add
      (latency_score.mul latency)).add (reliability_score.mul reliability)
    return {
      agent_address := bid.agent_address
      score := fixed4 composite
      breakdown := {
        price_score := fixed4 price_score
        reputation_score := fixed4 reputation_score
        latency_score := fixed4 latency_score
        reliability_score := fixed4 reliability_score } }

/-- The bytes of a string, by which strings are ordered -/
def utf8 (s : String) : List ℕ :=
  s.toList.flatMap fun c => (String.utf8EncodeChar c).map UInt8.toNat

/-- Highest score first, then by address -/
def ranksBefore (a b : Decimal × ScoredBid) : Bool :=
  match b.1.cmp a.1 with
  | .lt => true
  | .gt => false
  | .eq => decide (¬ utf8 b.2.agent_address < utf8 a.2.agent_address)

def rankBids (bids : List AgentBid) (weights : BidWeights) :
    Except FixedPointError (List ScoredBid) :=
  if bids.isEmpty then .ok []
  else do
    let max_bid ← maxField bids AgentBid.price
    let max_latency ← maxField bids AgentBid.estimated_latency_seconds
    let scored ← bids.mapM fun bid => scoreBid bid max_bid max_latency weights
    let keyed ← scored.mapM fun s => do
      let score ← bn s.score
      return (score, s)
    return (keyed.insertionSort fun a b => ranksBefore a b = true).map Prod.snd

end Rust

/-! ## The TypeScript scorer -/

namespace TypeScript

/-- `dividedBy` -/
def dividedBy (a b : ℚ) : ℚ := truncated DECIMAL_PLACES (a / b)

def clamp (value minimum maximum : ℚ) : ℚ := min (max value minimum) maximum

/-- `.decimalPlaces(4, ROUND_DOWN).toFixed(4)` -/
def fixed4 (value : ℚ) : String := fixedText 4 (truncated 4 value)

/-- The code units of a string, by which strings are ordered -/
def utf16 (s : String) : List ℕ :=
  s.toList.flatMap fun c =>
    if c.toNat < 0x10000 then [c.toNat]
    else [0xD800 + (c.toNat - 0x10000) / 0x400, 0xDC00 + (c.toNat - 0x10000) % 0x400]

section

/- The value that `BigNumber` reads of a string, if it is finite -/
variable (bigNumber : String → Option ℚ)

def bn (value : String) : Except FixedPointError ℚ :=
  match bigNumber value with
  | some x => .ok x
  | none => .error (.NotFinite value)

def div (a b : ℚ) : Except FixedPointError ℚ :=
  if b = 0 then .error .DivisionByZero else .ok (dividedBy a b)

def weightSum (weights : BidWeights) : Except FixedPointError ℚ := do
  let price ← bn bigNumber weights.price
  let reputation ← bn bigNumber weights.reputation
  let latency ← bn bigNumber weights.latency
  let reliability ← bn bigNumber weights.reliability
  return price + reputation + latency + reliability

/-- The price score and the latency score -/
def ratioScore (field normaliser : String) : Except FixedPointError ℚ := do
  let maximum ← bn bigNumber normaliser
  if maximum = 0 then return 100
  else
    let value ← bn bigNumber field
    let ratio ← div value maximum
    return clamp ((1 - ratio) * 100) 0 100

def scoreBid (bid : AgentBid) (maxBid maxLatency : String) (weights : BidWeights) :
    Except FixedPointError ScoredBid := do
  let weight_sum ← weightSum bigNumber weights
  if weight_sum ≠ 1 then .error (.InvalidWeights (fixedText 4 weight_sum))
  else
    let price_score ← ratioScore bigNumber bid.price maxBid
    let reputation ← bn bigNumber bid.reputation
    let reputation_score := clamp reputation 0 100
    let latency_score ← ratioScore bigNumber bid.estimated_latency_seconds maxLatency
    let success_rate ← bn bigNumber bid.success_rate
    let reliability_score := clamp (success_rate * 100) 0 100
    let price ← bn bigNumber weights.price
    let reputation ← bn bigNumber weights.reputation
    let latency ← bn bigNumber weights.latency
    let reliability ← bn bigNumber weights.reliability
    let composite := price_score * price + reputation_score * reputation +
      latency_score * latency + reliability_score * reliability
    return {
      agent_address := bid.agent_address
      score := fixed4 composite
      breakdown := {
        price_score := fixed4 price_score
        reputation_score := fixed4 reputation_score
        latency_score := fixed4 latency_score
        reliability_score := fixed4 reliability_score } }

/-- The largest value of one field, with 7 decimal places -/
def maxField (bids : List AgentBid) (field : AgentBid → String) :
    Except FixedPointError String := do
  let values ← bids.mapM fun bid => bn bigNumber (field bid)
  let max := values.tail.foldl (fun m v => if v > m then v else m) (values.headD 0)
  return fixedText 7 max

/-- The comparator of the sort; it reads scores that `toFixed` has written. -/
def compareScored (a b : ScoredBid) : ℤ :=
  let first := (bigNumber a.score).getD 0
  let second := (bigNumber b.score).getD 0
  if second < first then -1
  else if first < second then 1
  else if utf16 a.agent_address < utf16 b.agent_address then -1
  else 1

def rankBids (bids : List AgentBid) (weights : BidWeights) :
    Except FixedPointError (List ScoredBid) :=
  if bids.isEmpty then .ok []
  else do
    let maxBid ← maxField bigNumber bids AgentBid.price
    let maxLatency ← maxField bigNumber bids AgentBid.estimated_latency_seconds
    let scored ← bids.mapM fun bid => scoreBid bigNumber bid maxBid maxLatency weights
    return scored.insertionSort fun a b => compareScored bigNumber a b ≤ 0

end

end TypeScript

end StellarAgent.Math
