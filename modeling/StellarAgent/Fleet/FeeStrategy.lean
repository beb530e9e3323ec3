import Mathlib.Tactic.SplitIfs
import StellarAgent.Lib.Programs
import StellarAgent.Lib.Results

set_option autoImplicit false

/-! # Fee strategies

`packages/core/src/fleet/feeStrategy.ts`: what base fee rate to bid, in stroops per operation. A
strategy bids a fixed fee, asks application code, reads recent fees off the RPC server, or
multiplies what another strategy bids; whatever it is made of, it bids no less than the context asks
for (`getFee_bounds`).

Fees are numbers or texts of integers, and kept as the integers, or as `none` where `BigInt` throws.
A multiplier is kept as the integer `Math.ceil(multiplier * 1e6)`. How `RecentFeeStrategy` shares
and caches the statistics is left to the answer of `FeeOp.stats`.
-/

namespace StellarAgent.Fleet.Fees

open Lib
open Lib.Fallible (perform attempt)

def BASE_FEE : ℤ := 100

inductive FeePhase where
  | initial
  | fee_bump
  | sponsorship
  deriving DecidableEq

inductive FeePercentile where
  | min | mode | p10 | p20 | p30 | p40 | p50 | p60 | p70 | p80 | p90 | p95 | p99 | max
  deriving DecidableEq

def FeePercentile.name : FeePercentile → String
  | .min => "min"
  | .mode => "mode"
  | .p10 => "p10"
  | .p20 => "p20"
  | .p30 => "p30"
  | .p40 => "p40"
  | .p50 => "p50"
  | .p60 => "p60"
  | .p70 => "p70"
  | .p80 => "p80"
  | .p90 => "p90"
  | .p95 => "p95"
  | .p99 => "p99"
  | .max => "max"

/-- A value that is meant as a fee, as `BigInt` reads it -/
abbrev FeeValue := Option ℤ

abbrev FeeDistribution := FeePercentile → FeeValue

structure FeeStats where
  inclusionFee : FeeDistribution
  sorobanInclusionFee : FeeDistribution

structure FeeContext where
  phase : FeePhase
  operationCount : ℕ
  minimumFee : Option FeeValue
  previousFee : Option FeeValue
  soroban : Option Bool
  /-- Whether there is a `getFeeStats` -/
  hasFeeStats : Bool
  deriving DecidableEq

/-- A positive number of stroops -/
abbrev PositiveFee := {fee : ℤ // 0 < fee}

def positiveFee (value : FeeValue) (label : String) : Except String PositiveFee :=
  match value with
  | none => .error s!"{label} must be a positive integer number of stroops"
  | some parsed =>
      if h : 0 < parsed then .ok ⟨parsed, h⟩
      else .error s!"{label} must be a positive integer number of stroops"

/-- A multiplier, finite and greater than zero. Its product with the scale may be infinite. -/
structure Multiplier where
  scaled : Option ℕ
  pos : ∀ n, scaled = some n → 0 < n

def scale : ℤ := 1000000

def multiplyCeil (value : ℤ) (multiplier : Multiplier) : Except String ℤ :=
  match multiplier.scaled with
  | none => .error "The number Infinity cannot be converted to a BigInt"
  | some scaled => .ok ((value * scaled + scale - 1) / scale)

def clampToContext (value : ℤ) (context : FeeContext) : Except String ℤ := do
  let protocolMinimum ← positiveFee (context.minimumFee.getD (some BASE_FEE)) "minimum fee"
  return if value < protocolMinimum then protocolMinimum else value

/-- `RecentFeeStrategy`, with its options checked -/
structure RecentFeeStrategy where
  percentile : FeePercentile
  multiplier : Multiplier
  minimum : PositiveFee
  maximum : Option PositiveFee
  fallback : PositiveFee
  minimum_le : ∀ fee, maximum = some fee → minimum ≤ fee

inductive FeeStrategy where
  | Fixed (fee : PositiveFee)
  | Multiplier (multiplier : Multiplier) (base : FeeStrategy)
  | Callback
  | Recent (recent : RecentFeeStrategy)

inductive FeeOp where
  /-- The application's callback -/
  | callback (context : FeeContext)
  /-- `#stats` of the strategy -/
  | stats

@[reducible] def FeeAnswer : FeeOp → Type
  | .callback _ => Except String FeeValue
  | .stats => Except String FeeStats

abbrev FeeTask := Fallible FeeOp FeeAnswer String

/-- The statistic that a context looks at -/
def RecentFeeStrategy.statistic (recent : RecentFeeStrategy) (context : FeeContext)
    (stats : FeeStats) : Except String PositiveFee :=
  let distribution :=
    if context.soroban = some false then stats.inclusionFee else stats.sorobanInclusionFee
  positiveFee (distribution recent.percentile) s!"fee statistic {recent.percentile.name}"

/-- The `try` block: a fee that was sampled from the network -/
def RecentFeeStrategy.sample (recent : RecentFeeStrategy) (context : FeeContext) :
    FeeTask (Option PositiveFee) :=
  if context.hasFeeStats then do
    match ← perform FeeOp.stats with
    | .error _ => return none
    | .ok stats => return (recent.statistic context stats).toOption
  else return none

/-- The fee within the strategy's own bounds -/
def RecentFeeStrategy.bound (recent : RecentFeeStrategy) (fee : ℤ) : ℤ :=
  let minimum : ℤ := recent.minimum
  let fee := if fee < minimum then minimum else fee
  match recent.maximum with
  | none => fee
  | some maximum => if (maximum : ℤ) < fee then maximum else fee

/-- What is bid on a sample. Without one the fallback is bid as it is. -/
def RecentFeeStrategy.bidOn (recent : RecentFeeStrategy) : Option PositiveFee → Except String ℤ
  | some sampled => multiplyCeil sampled recent.multiplier
  | none => .ok recent.fallback

def RecentFeeStrategy.getFee (recent : RecentFeeStrategy) (context : FeeContext) : FeeTask ℤ := do
  let sampled ← recent.sample context
  let fee ← Fallible.ofExcept (recent.bidOn sampled)
  Fallible.ofExcept (clampToContext (recent.bound fee) context)

def FeeStrategy.getFee : FeeStrategy → FeeContext → FeeTask ℤ
  | .Fixed fee, context => Fallible.ofExcept (clampToContext fee context)
  | .Multiplier multiplier base, context => do
      let fee ← base.getFee context
      let fee ← Fallible.ofExcept (positiveFee (some fee) "fee")
      let fee ← Fallible.ofExcept (multiplyCeil fee multiplier)
      Fallible.ofExcept (clampToContext fee context)
  | .Callback, context => do
      let value ← Fallible.ofExcept (← perform (FeeOp.callback context))
      let fee ← Fallible.ofExcept (positiveFee value "callback fee")
      Fallible.ofExcept (clampToContext fee context)
  | .Recent recent, context => recent.getFee context

/-! ## What is bid -/

/-- What a context asks for at least -/
def FeeContext.minimum (context : FeeContext) : FeeValue := context.minimumFee.getD (some BASE_FEE)

/-- A bid is positive and no less than the context asks for. -/
def Bids (context : FeeContext) (fee : ℤ) : Prop :=
  ∃ minimum, context.minimum = some minimum ∧ 0 < minimum ∧ minimum ≤ fee

theorem positiveFee_eq_ok {value : FeeValue} {label : String} {fee : PositiveFee} :
    positiveFee value label = .ok fee ↔ value = some (fee : ℤ) := by
  cases value with
  | none => simp [positiveFee]
  | some parsed =>
      obtain ⟨fee, hfee⟩ := fee
      rw [positiveFee]
      split_ifs with h
      · simp
      · simp only [Option.some.injEq, false_iff]
        omega

/-- Clamping takes the larger of the value and what the context asks for. -/
theorem clampToContext_eq_ok {value fee : ℤ} {context : FeeContext} :
    clampToContext value context = .ok fee ↔
      ∃ minimum, context.minimum = some minimum ∧ 0 < minimum ∧ fee = max value minimum := by
  have hunfold : clampToContext value context = positiveFee context.minimum "minimum fee" >>=
      fun protocolMinimum =>
        .ok (if value < (protocolMinimum : ℤ) then (protocolMinimum : ℤ) else value) := rfl
  rw [hunfold, bind_eq_ok]
  constructor
  · rintro ⟨⟨minimum, hpos⟩, hminimum, hfee⟩
    have heq : (if value < minimum then minimum else value) = fee := Except.ok.inj hfee
    refine ⟨minimum, positiveFee_eq_ok.mp hminimum, hpos, ?_⟩
    split_ifs at heq <;> omega
  · rintro ⟨minimum, hminimum, hpos, rfl⟩
    refine ⟨⟨minimum, hpos⟩, positiveFee_eq_ok.mpr hminimum, congrArg Except.ok ?_⟩
    show (if value < minimum then minimum else value) = _
    split_ifs <;> omega

/-- A bid of a strategy is a value that has been clamped. -/
theorem getFee_clamped {strategy : FeeStrategy} {context : FeeContext}
    {es : List (Lib.Event FeeOp FeeAnswer)} {fee : ℤ}
    (h : Fallible.Trace (strategy.getFee context) es (.ok fee)) :
    ∃ value, clampToContext value context = .ok fee := by
  cases strategy with
  | Fixed fixed => exact ⟨fixed, (Fallible.trace_ofExcept.mp h).2.symm⟩
  | Multiplier multiplier base =>
      obtain ⟨_, herror, _⟩ | ⟨bid, _, es, _, _, h⟩ := Fallible.trace_bind.mp h
      · cases herror
      obtain ⟨_, _, _, herror⟩ | ⟨bid, _, h⟩ := Fallible.trace_ofExcept_bind.mp h
      · cases herror
      obtain ⟨_, _, _, herror⟩ | ⟨value, _, h⟩ := Fallible.trace_ofExcept_bind.mp h
      · cases herror
      exact ⟨value, (Fallible.trace_ofExcept.mp h).2.symm⟩
  | Callback =>
      obtain ⟨answer, es, _, h⟩ := Fallible.trace_perform_bind.mp h
      obtain ⟨_, _, _, herror⟩ | ⟨value, _, h⟩ := Fallible.trace_ofExcept_bind.mp h
      · cases herror
      obtain ⟨_, _, _, herror⟩ | ⟨value, _, h⟩ := Fallible.trace_ofExcept_bind.mp h
      · cases herror
      exact ⟨value, (Fallible.trace_ofExcept.mp h).2.symm⟩
  | Recent recent =>
      obtain ⟨_, herror, _⟩ | ⟨sampled, _, es, _, _, h⟩ := Fallible.trace_bind.mp h
      · cases herror
      obtain ⟨_, _, _, herror⟩ | ⟨value, _, h⟩ := Fallible.trace_ofExcept_bind.mp h
      · cases herror
      exact ⟨recent.bound value, (Fallible.trace_ofExcept.mp h).2.symm⟩

/-- **No strategy bids less than it is asked for.** -/
theorem getFee_bids {strategy : FeeStrategy} {context : FeeContext}
    {es : List (Lib.Event FeeOp FeeAnswer)} {fee : ℤ}
    (h : Fallible.Trace (strategy.getFee context) es (.ok fee)) : Bids context fee := by
  obtain ⟨value, hclamp⟩ := getFee_clamped h
  obtain ⟨minimum, hminimum, hpos, rfl⟩ := clampToContext_eq_ok.mp hclamp
  exact ⟨minimum, hminimum, hpos, le_max_right _ _⟩

/-- The strategy's own maximum is exceeded only where the context asks for more. -/
theorem recent_getFee_le {recent : RecentFeeStrategy} {maximum : PositiveFee}
    (hmaximum : recent.maximum = some maximum) {context : FeeContext}
    {es : List (Lib.Event FeeOp FeeAnswer)} {fee : ℤ}
    (h : Fallible.Trace (recent.getFee context) es (.ok fee)) :
    fee ≤ maximum ∨ context.minimum = some fee := by
  obtain ⟨_, herror, _⟩ | ⟨sampled, _, es, _, _, h⟩ := Fallible.trace_bind.mp h
  · cases herror
  obtain ⟨_, _, _, herror⟩ | ⟨value, _, h⟩ := Fallible.trace_ofExcept_bind.mp h
  · cases herror
  have hclamp := (Fallible.trace_ofExcept.mp h).2.symm
  obtain ⟨minimum, hminimum, _, rfl⟩ := clampToContext_eq_ok.mp hclamp
  have hbound : recent.bound value ≤ maximum := by
    unfold RecentFeeStrategy.bound
    rw [hmaximum]
    dsimp only
    split_ifs <;> omega
  rcases le_total (recent.bound value) minimum with hle | hle
  · exact Or.inr (by rw [max_eq_right hle, hminimum])
  · exact Or.inl (by rw [max_eq_left hle]; exact hbound)

end StellarAgent.Fleet.Fees
