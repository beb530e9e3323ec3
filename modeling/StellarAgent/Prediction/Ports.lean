import StellarAgent.Lib.Results
import StellarAgent.Math.PythonDecimal
import StellarAgent.Math.Bid
import StellarAgent.PaymentChannel.Storage

set_option autoImplicit false

/-! # The predictors of the Rust and the Python SDK

`sdk/rust/src/math/predict.rs` and `python/src/stellaragent/math/predict.py` say what a contract
would object to a payment, each from the same copies of the state. The Rust SDK adds ledgers in 32
bits and amounts exactly, and does not look at `active` of a rate limit. The Python SDK adds ledgers
exactly and amounts in the default decimal context, of 28 digits, and does look at it.

What that comes to is in `predictors_agree_iff`.
-/

namespace StellarAgent.Prediction.Ports

open Lib Math
open PaymentChannel (SpendPeriod)

/-! ## What both are given -/

structure ChannelSpendState where
  active : Bool
  limit_per_period : String
  spent_this_period : String
  period_start_ledger : UInt32
  period : SpendPeriod

structure RateLimitSpendState where
  configured : Bool
  active : Bool
  max_per_tx : String
  max_per_hour : String
  max_per_day : String
  max_txs_per_hour : UInt32
  hourly_spend : String
  daily_spend : String
  hourly_tx_count : UInt32
  hour_window_start_ledger : UInt32
  day_window_start_ledger : UInt32

structure PredictPaymentParams where
  channel_state : Option ChannelSpendState
  rate_limit_state : Option RateLimitSpendState
  amount : String
  current_ledger : UInt32

/-- `ledgers_per_channel_period`, and `LEDGERS_PER_CHANNEL_PERIOD` -/
def ledgersPerChannelPeriod : SpendPeriod → ℕ
  | .PerLedger => 1
  | .Hourly => 720
  | .Daily => 17280

def RATE_LIMIT_LEDGERS_PER_HOUR : ℕ := 720
def RATE_LIMIT_LEDGERS_PER_DAY : ℕ := 17280

/-- Of the reasons in one SDK or the other -/
structure PaymentPrediction (ρ : Type) where
  would_block : Bool
  reasons : List ρ

/-! ## The Rust predictor -/

namespace Rust

open Math.Rust (bn)

inductive BlockReason where
  | InvalidAmount
  | ChannelInactive
  | ChannelSpendLimit
  | RateLimitPerTx
  | RateLimitHourly
  | RateLimitDaily
  | RateLimitTxCount

/-- `BlockReason::as_str` -/
def BlockReason.asStr : BlockReason → String
  | .InvalidAmount => "invalid_amount"
  | .ChannelInactive => "channel_inactive"
  | .ChannelSpendLimit => "channel_spend_limit"
  | .RateLimitPerTx => "rate_limit_per_tx"
  | .RateLimitHourly => "rate_limit_hourly"
  | .RateLimitDaily => "rate_limit_daily"
  | .RateLimitTxCount => "rate_limit_tx_count"

/-- `is_window_expired`; the addition saturates. -/
def isWindowExpired (window_start_ledger : UInt32) (ledgers_per_window : ℕ)
    (current_ledger : UInt32) : Bool :=
  decide (current_ledger.toNat ≥ min (window_start_ledger.toNat + ledgers_per_window) U32_MAX)

/-- `is_within_spend_limit` -/
def isWithinSpendLimit (spent_this_period limit_per_period : String) (proposed_amount : Decimal) :
    Except FixedPointError Bool := do
  let spent ← bn spent_this_period
  let limit ← bn limit_per_period
  return (spent.add proposed_amount).cmp limit ≠ .gt

/-- The channel's part of `predict_payment_outcome` -/
def channelReasons (amount_value : Decimal) (current_ledger : UInt32) :
    Option ChannelSpendState → Except FixedPointError (List BlockReason)
  | none => return []
  | some channel =>
      if channel.active = false then return [.ChannelInactive]
      else do
        let expired := isWindowExpired channel.period_start_ledger
          (ledgersPerChannelPeriod channel.period) current_ledger
        let effective_spent := if expired then "0" else channel.spent_this_period
        let within ← isWithinSpendLimit effective_spent channel.limit_per_period amount_value
        return if within then [] else [.ChannelSpendLimit]

/-- The rate limit's part; `active` is not looked at. -/
def rateLimitReasons (amount_value : Decimal) (current_ledger : UInt32) :
    Option RateLimitSpendState → Except FixedPointError (List BlockReason)
  | none => return []
  | some limit =>
      if limit.configured = false then return []
      else do
        let max_per_tx ← bn limit.max_per_tx
        let hour_expired := isWindowExpired limit.hour_window_start_ledger
          RATE_LIMIT_LEDGERS_PER_HOUR current_ledger
        let day_expired := isWindowExpired limit.day_window_start_ledger
          RATE_LIMIT_LEDGERS_PER_DAY current_ledger
        let effective_hourly := if hour_expired then "0" else limit.hourly_spend
        let effective_daily := if day_expired then "0" else limit.daily_spend
        let effective_tx_count := if hour_expired then 0 else limit.hourly_tx_count
        let hourly ← bn effective_hourly
        let max_per_hour ← bn limit.max_per_hour
        let daily ← bn effective_daily
        let max_per_day ← bn limit.max_per_day
        return (if amount_value.cmp max_per_tx = .gt then [.RateLimitPerTx] else []) ++
          (if (hourly.add amount_value).cmp max_per_hour = .gt then [.RateLimitHourly] else []) ++
          (if (daily.add amount_value).cmp max_per_day = .gt then [.RateLimitDaily] else []) ++
          (if effective_tx_count ≥ limit.max_txs_per_hour then [.RateLimitTxCount] else [])

def predictPaymentOutcome (params : PredictPaymentParams) :
    Except FixedPointError (PaymentPrediction BlockReason) := do
  let amount_value ← bn params.amount
  let channel ← channelReasons amount_value params.current_ledger params.channel_state
  let rate_limit ← rateLimitReasons amount_value params.current_ledger params.rate_limit_state
  let reasons := (if amount_value.isPositive then [] else [.InvalidAmount]) ++ channel ++ rate_limit
  return { would_block := !reasons.isEmpty, reasons }

end Rust

/-! ## The Python predictor -/

namespace Python

open Math.Python (decimal)

/-- The context that `decimal` starts with -/
def defaultContext : DecimalContext where
  prec := 28
  rounding := .half_even
  Emin := -999999
  Emax := 999999
  prec_pos := by decide

/-- `_d`, of finite numbers -/
def d (value : String) : Except DecimalSignal DecimalFloat :=
  match decimal value with
  | some x => .ok x
  | none => .error .InvalidOperation

/-- `is_window_expired` -/
def isWindowExpired (window_start : UInt32) (ledgers_per_window : ℕ) (current_ledger : UInt32) :
    Bool :=
  decide (current_ledger.toNat ≥ window_start.toNat + ledgers_per_window)

/-- `effective + amt > limit` -/
def exceeds (effective amt limit : DecimalFloat) : Except DecimalSignal Bool := do
  let total ← defaultContext.add effective amt
  return decide (total.value > limit.value)

/-- The channel's part of `predict_payment_outcome` -/
def channelReasons (amt : DecimalFloat) (current_ledger : UInt32) :
    Option ChannelSpendState → Except DecimalSignal (List String)
  | none => return []
  | some ch =>
      if ch.active = false then return ["channel_inactive"]
      else do
        let expired := isWindowExpired ch.period_start_ledger (ledgersPerChannelPeriod ch.period)
          current_ledger
        let effective_spent ← d (if expired then "0" else ch.spent_this_period)
        let limit ← d ch.limit_per_period
        let exceeded ← exceeds effective_spent amt limit
        return if exceeded then ["channel_spend_limit"] else []

/-- The rate limit's part -/
def rateLimitReasons (amt : DecimalFloat) (current_ledger : UInt32) :
    Option RateLimitSpendState → Except DecimalSignal (List String)
  | none => return []
  | some rl =>
      if rl.configured = false then return []
      else if rl.active = false then return ["rate_limit_inactive"]
      else do
        let max_per_tx ← d rl.max_per_tx
        let hour_expired := isWindowExpired rl.hour_window_start_ledger RATE_LIMIT_LEDGERS_PER_HOUR
          current_ledger
        let day_expired := isWindowExpired rl.day_window_start_ledger RATE_LIMIT_LEDGERS_PER_DAY
          current_ledger
        let hourly_spend ← d (if hour_expired then "0" else rl.hourly_spend)
        let daily_spend ← d (if day_expired then "0" else rl.daily_spend)
        let hourly_tx_count := if hour_expired then 0 else rl.hourly_tx_count
        let max_per_hour ← d rl.max_per_hour
        let hourly ← exceeds hourly_spend amt max_per_hour
        let max_per_day ← d rl.max_per_day
        let daily ← exceeds daily_spend amt max_per_day
        return (if amt.value > max_per_tx.value then ["rate_limit_per_tx"] else []) ++
          (if hourly then ["rate_limit_hourly"] else []) ++
          (if daily then ["rate_limit_daily"] else []) ++
          (if hourly_tx_count ≥ rl.max_txs_per_hour then ["rate_limit_tx_count"] else [])

def predictPaymentOutcome (params : PredictPaymentParams) :
    Except DecimalSignal (PaymentPrediction String) := do
  let amt ← d params.amount
  let channel ← channelReasons amt params.current_ledger params.channel_state
  let rate_limit ← rateLimitReasons amt params.current_ledger params.rate_limit_state
  let reasons := (if amt.value ≤ 0 then ["invalid_amount"] else []) ++ channel ++ rate_limit
  return { would_block := decide (reasons.length > 0), reasons }

end Python

/-! ## Amounts -/

/-- A literal of at most 28 digits that both SDKs accept -/
def Accepted (s : String) : Prop :=
  ∃ a x, Decimal.parse s = .ok a ∧ Math.Python.decimal s = some x ∧ x.coefficient < 10 ^ 28

/-- The number that a literal stands for -/
def amountOf (s : String) : ℚ :=
  match Decimal.parse s with
  | .ok a => a.value
  | .error _ => 0

/-- The sum of two literals in the default context -/
def roundedSum (s t : String) : ℚ :=
  match Math.Python.decimal s, Math.Python.decimal t with
  | some x, some y =>
      match Python.defaultContext.add x y with
      | .ok total => total.value
      | .error _ => 0
  | _, _ => 0

structure AcceptedChannel (channel : ChannelSpendState) : Prop where
  limit_per_period : Accepted channel.limit_per_period
  spent_this_period : Accepted channel.spent_this_period

structure AcceptedRateLimit (limit : RateLimitSpendState) : Prop where
  max_per_tx : Accepted limit.max_per_tx
  max_per_hour : Accepted limit.max_per_hour
  max_per_day : Accepted limit.max_per_day
  hourly_spend : Accepted limit.hourly_spend
  daily_spend : Accepted limit.daily_spend

structure AcceptedParams (params : PredictPaymentParams) : Prop where
  amount : Accepted params.amount
  channel_state : ∀ channel ∈ params.channel_state, AcceptedChannel channel
  rate_limit_state : ∀ limit ∈ params.rate_limit_state, AcceptedRateLimit limit

section

variable {s t limit : String}

theorem Accepted.rust (h : Accepted s) : ∃ a, Math.Rust.bn s = .ok a ∧ a.value = amountOf s := by
  obtain ⟨a, x, ha, -, -⟩ := h
  refine ⟨a, ?_, ?_⟩
  · rw [Math.Rust.bn, ha]
  · rw [amountOf, ha]

theorem Accepted.python (h : Accepted s) : ∃ x, Math.Python.decimal s = some x ∧
    Python.d s = .ok x ∧ x.value = amountOf s ∧ x.coefficient < 10 ^ 28 ∧
      -(MAX_SCALE : ℤ) ≤ x.exponent ∧ x.exponent ≤ MAX_SCALE := by
  obtain ⟨a, x, ha, hx, hdigits⟩ := h
  obtain ⟨hvalue, hlow, hhigh⟩ := Math.Python.decimal_value ha hx
  refine ⟨x, hx, ?_, ?_, hdigits, hlow, hhigh⟩
  · rw [Python.d, hx]
  · rw [hvalue, amountOf, ha]

theorem accepted_zero : Accepted "0" :=
  ⟨⟨0, 0⟩, ⟨false, 0, 0⟩, by rfl, by rfl, by decide⟩

theorem amountOf_zero : amountOf "0" = 0 := by
  have hparse : Decimal.parse "0" = .ok ⟨0, 0⟩ := by rfl
  rw [amountOf, hparse]
  simp [Decimal.value]

/-- The default context can write an accepted literal. -/
theorem Accepted.writable (h : Accepted s) : Python.defaultContext.Writable (amountOf s) := by
  obtain ⟨x, -, -, hvalue, hdigits, hlow, -⟩ := h.python
  refine ⟨x.signed, x.exponent, ?_, ?_, ?_⟩
  · have hsigned : |x.signed| = x.coefficient := by
      unfold DecimalFloat.signed
      split <;> simp
    rw [hsigned]
    exact_mod_cast hdigits
  · show (-999999 : ℤ) - 28 + 1 ≤ x.exponent
    have hscale : MAX_SCALE = 10000 := rfl
    omega
  · rw [← hvalue]
    rfl

theorem Accepted.magnitude_lt {x : DecimalFloat} (hdigits : x.coefficient < 10 ^ 28)
    (hhigh : x.exponent ≤ MAX_SCALE) : x.magnitude < 10 ^ (10028 : ℤ) := by
  have hcast : (x.coefficient : ℚ) < 10 ^ 28 := by exact_mod_cast hdigits
  have hpow : (10 : ℚ) ^ x.exponent ≤ 10 ^ (10000 : ℤ) :=
    zpow_le_zpow_right₀ (by norm_num) hhigh
  calc x.magnitude < 10 ^ 28 * 10 ^ x.exponent :=
        mul_lt_mul_of_pos_right hcast (by positivity)
    _ ≤ 10 ^ 28 * 10 ^ (10000 : ℤ) := mul_le_mul_of_nonneg_left hpow (by positivity)
    _ = 10 ^ (10028 : ℤ) := by
        rw [← zpow_natCast, ← zpow_add₀ (by norm_num : (10 : ℚ) ≠ 0)]
        norm_num

/-- The sum of two accepted literals is far below the largest number of the context. -/
theorem Accepted.add (hs : Accepted s) (ht : Accepted t) :
    ∃ x y total, Python.d s = .ok x ∧ Python.d t = .ok y ∧
      Python.defaultContext.add x y = .ok total ∧ total.value = roundedSum s t ∧
      (x.exactAdd .half_even y).value = amountOf s + amountOf t ∧
      Python.defaultContext.Etiny ≤ (x.exactAdd .half_even y).exponent := by
  obtain ⟨x, hx, hdx, hxvalue, hxdigits, hxlow, hxhigh⟩ := hs.python
  obtain ⟨y, hy, hdy, hyvalue, hydigits, hylow, hyhigh⟩ := ht.python
  have htiny : Python.defaultContext.Etiny ≤ -(MAX_SCALE : ℤ) := by decide
  have hsum : (x.exactAdd .half_even y).value = amountOf s + amountOf t := by
    rw [DecimalFloat.exactAdd_value, hxvalue, hyvalue]
  have hbound : (x.exactAdd .half_even y).magnitude < 10 ^ (999999 : ℤ) := by
    have hxlt := Accepted.magnitude_lt hxdigits hxhigh
    have hylt := Accepted.magnitude_lt hydigits hyhigh
    rw [← DecimalFloat.abs_value, DecimalFloat.exactAdd_value]
    rw [← DecimalFloat.abs_value] at hxlt hylt
    calc |x.value + y.value| ≤ |x.value| + |y.value| := abs_add_le _ _
      _ ≤ 10 ^ (10028 : ℤ) + 10 ^ (10028 : ℤ) := (add_lt_add hxlt hylt).le
      _ = 2 * 10 ^ (10028 : ℤ) := (two_mul _).symm
      _ < 10 * 10 ^ (10028 : ℤ) := mul_lt_mul_of_pos_right (by norm_num) (by positivity)
      _ = 10 ^ (10029 : ℤ) := by
          rw [← zpow_one_add₀ (by norm_num : (10 : ℚ) ≠ 0)]
          norm_num
      _ ≤ 10 ^ (999999 : ℤ) := zpow_le_zpow_right₀ (by norm_num) (by norm_num)
  obtain ⟨total, htotal⟩ := DecimalContext.finish_ok
    (show Python.defaultContext.Emin < Python.defaultContext.Emax by decide) hbound
  have hadd : Python.defaultContext.add x y = .ok total := htotal
  refine ⟨x, y, total, hdx, hdy, hadd, ?_, hsum, htiny.trans (le_min hxlow hylow)⟩
  rw [roundedSum, hx, hy]
  dsimp only
  rw [hadd]

/-- The rounded sum is over a limit only if the sum is, and then it is over it or has been rounded
onto it. -/
theorem Accepted.lt_roundedSum (hs : Accepted s) (ht : Accepted t) (hlimit : Accepted limit) :
    amountOf limit < roundedSum s t ↔
      amountOf limit < amountOf s + amountOf t ∧ roundedSum s t ≠ amountOf limit := by
  obtain ⟨x, y, total, -, -, hadd, hrounded, hsum, -⟩ := hs.add ht
  rw [← hrounded, ← hsum]
  constructor
  · intro h
    refine ⟨?_, h.ne'⟩
    by_contra hle
    exact absurd (DecimalContext.finish_le hadd hlimit.writable (not_lt.mp hle)) (not_le.mpr h)
  · rintro ⟨h, hne⟩
    exact lt_of_le_of_ne (DecimalContext.le_finish hadd hlimit.writable h.le) hne.symm

end

/-! ## Objections -/

/-- What each check says -/
structure Objections where
  invalid_amount : Bool
  channel_inactive : Bool
  channel_spend_limit : Bool
  rate_limit_inactive : Bool
  rate_limit_per_tx : Bool
  rate_limit_hourly : Bool
  rate_limit_daily : Bool
  rate_limit_tx_count : Bool
  deriving DecidableEq

/-- A reason, if there is one -/
def reasonIf (objection : Bool) (reason : String) : List String :=
  if objection then [reason] else []

def Objections.reasons (o : Objections) : List String :=
  reasonIf o.invalid_amount "invalid_amount" ++ reasonIf o.channel_inactive "channel_inactive" ++
    reasonIf o.channel_spend_limit "channel_spend_limit" ++
    reasonIf o.rate_limit_inactive "rate_limit_inactive" ++
    reasonIf o.rate_limit_per_tx "rate_limit_per_tx" ++
    reasonIf o.rate_limit_hourly "rate_limit_hourly" ++
    reasonIf o.rate_limit_daily "rate_limit_daily" ++
    reasonIf o.rate_limit_tx_count "rate_limit_tx_count"

theorem mem_reasonIf {objection : Bool} {reason other : String} :
    other ∈ reasonIf objection reason ↔ objection = true ∧ other = reason := by
  unfold reasonIf
  split <;> simp_all

/-- The reasons tell which checks object. -/
theorem Objections.reasons_inj {o o' : Objections} : o.reasons = o'.reasons ↔ o = o' := by
  refine ⟨fun h => ?_, fun h => h ▸ rfl⟩
  have hmem : ∀ reason, reason ∈ o.reasons ↔ reason ∈ o'.reasons := fun reason => by rw [h]
  simp only [Objections.reasons, List.mem_append, mem_reasonIf] at hmem
  have h1 := hmem "invalid_amount"
  have h2 := hmem "channel_inactive"
  have h3 := hmem "channel_spend_limit"
  have h4 := hmem "rate_limit_inactive"
  have h5 := hmem "rate_limit_per_tx"
  have h6 := hmem "rate_limit_hourly"
  have h7 := hmem "rate_limit_daily"
  have h8 := hmem "rate_limit_tx_count"
  simp only [String.reduceEq, and_false, or_false, false_or, and_true, ← Bool.eq_iff_iff] at h1 h2 h3 h4 h5 h6 h7 h8
  cases o
  cases o'
  simp_all

/-- What is left of an amount that was spent, in a window that may have ended -/
def liveAmount (expired : Bool) (spent : String) : String := if expired then "0" else spent

/-- What the checks of an SDK say: given when a window has ended for it, when it finds a limit
exceeded, and whether it looks at `active` of a rate limit. -/
def objections (expired : UInt32 → ℕ → UInt32 → Bool) (exceeded : String → String → String → Bool)
    (gated : Bool) (params : PredictPaymentParams) : Objections where
  invalid_amount := decide (amountOf params.amount ≤ 0)
  channel_inactive := params.channel_state.any fun channel => !channel.active
  channel_spend_limit := params.channel_state.any fun channel => channel.active &&
    exceeded (liveAmount (expired channel.period_start_ledger
        (ledgersPerChannelPeriod channel.period) params.current_ledger) channel.spent_this_period)
      params.amount channel.limit_per_period
  rate_limit_inactive := params.rate_limit_state.any fun limit =>
    limit.configured && (gated && !limit.active)
  rate_limit_per_tx := params.rate_limit_state.any fun limit =>
    limit.configured && (!gated || limit.active) &&
      decide (amountOf limit.max_per_tx < amountOf params.amount)
  rate_limit_hourly := params.rate_limit_state.any fun limit =>
    limit.configured && (!gated || limit.active) &&
      exceeded (liveAmount (expired limit.hour_window_start_ledger RATE_LIMIT_LEDGERS_PER_HOUR
        params.current_ledger) limit.hourly_spend) params.amount limit.max_per_hour
  rate_limit_daily := params.rate_limit_state.any fun limit =>
    limit.configured && (!gated || limit.active) &&
      exceeded (liveAmount (expired limit.day_window_start_ledger RATE_LIMIT_LEDGERS_PER_DAY
        params.current_ledger) limit.daily_spend) params.amount limit.max_per_day
  rate_limit_tx_count := params.rate_limit_state.any fun limit =>
    limit.configured && (!gated || limit.active) &&
      decide (limit.max_txs_per_hour ≤
        if expired limit.hour_window_start_ledger RATE_LIMIT_LEDGERS_PER_HOUR params.current_ledger
        then 0 else limit.hourly_tx_count)

def Rust.exceeded (spent amount limit : String) : Bool :=
  decide (amountOf limit < amountOf spent + amountOf amount)

def Python.exceeded (spent amount limit : String) : Bool :=
  decide (amountOf limit < roundedSum spent amount)

section

variable {params : PredictPaymentParams}

theorem Accepted.live {spent : String} (h : Accepted spent) (expired : Bool) :
    Accepted (liveAmount expired spent) := by
  cases expired with
  | false => exact h
  | true => exact accepted_zero

theorem gt_iff (a b : Decimal) : a.cmp b = .gt ↔ b.value < a.value := by
  rw [Decimal.cmp_eq, compare_gt_iff_gt]

/-- The comparison that the Rust SDK makes -/
theorem rust_exceeded {s t limit : String} {amount : Decimal} (hamount : amount.value = amountOf t)
    (hs : Accepted s) (hlimit : Accepted limit) :
    ∃ spent bound, Math.Rust.bn s = .ok spent ∧ Math.Rust.bn limit = .ok bound ∧
      ((spent.add amount).cmp bound = .gt ↔ Rust.exceeded s t limit = true) := by
  obtain ⟨spent, hspent, hspentValue⟩ := hs.rust
  obtain ⟨bound, hbound, hboundValue⟩ := hlimit.rust
  refine ⟨spent, bound, hspent, hbound, ?_⟩
  rw [gt_iff, Decimal.add_value, hamount, hspentValue, hboundValue, Rust.exceeded,
    decide_eq_true_eq]

/-- The comparison that the Python SDK makes -/
theorem python_exceeded {s t limit : String} {amt : DecimalFloat} (hamount : Python.d t = .ok amt)
    (hs : Accepted s) (ht : Accepted t) (hlimit : Accepted limit) :
    ∃ spent bound, Python.d s = .ok spent ∧ Python.d limit = .ok bound ∧
      Python.exceeds spent amt bound = .ok (Python.exceeded s t limit) := by
  obtain ⟨spent, amt', total, hspent, hamount', hadd, htotal, -⟩ := hs.add ht
  obtain rfl : amt = amt' := Except.ok.inj (hamount.symm.trans hamount')
  obtain ⟨bound, -, hbound, hboundValue, -⟩ := hlimit.python
  refine ⟨spent, bound, hspent, hbound, ?_⟩
  rw [Python.exceeds, hadd, Lib.ok_bind, htotal, hboundValue]
  rfl

/-- The channel's part of the reasons -/
def Objections.channelReasons (o : Objections) : List String :=
  reasonIf o.channel_inactive "channel_inactive" ++
    reasonIf o.channel_spend_limit "channel_spend_limit"

/-- The rate limit's part of the reasons -/
def Objections.rateLimitReasons (o : Objections) : List String :=
  reasonIf o.rate_limit_inactive "rate_limit_inactive" ++
    (reasonIf o.rate_limit_per_tx "rate_limit_per_tx" ++
      (reasonIf o.rate_limit_hourly "rate_limit_hourly" ++
        (reasonIf o.rate_limit_daily "rate_limit_daily" ++
          reasonIf o.rate_limit_tx_count "rate_limit_tx_count")))

theorem Objections.reasons_eq (o : Objections) : o.reasons =
    reasonIf o.invalid_amount "invalid_amount" ++ o.channelReasons ++ o.rateLimitReasons := by
  simp only [Objections.reasons, Objections.channelReasons, Objections.rateLimitReasons,
    List.append_assoc]

theorem rust_channelReasons {amount : Decimal} (hamount : amount.value = amountOf params.amount)
    (h : ∀ channel ∈ params.channel_state, AcceptedChannel channel) :
    ∃ reasons, Rust.channelReasons amount params.current_ledger params.channel_state =
        .ok reasons ∧ reasons.map Rust.BlockReason.asStr =
      (objections Rust.isWindowExpired Rust.exceeded false params).channelReasons := by
  unfold objections Objections.channelReasons
  dsimp only
  cases hchannel : params.channel_state with
  | none => exact ⟨[], rfl, rfl⟩
  | some channel =>
      obtain ⟨hlimit, hspent⟩ := h channel hchannel
      by_cases hactive : channel.active = false
      · refine ⟨[.ChannelInactive], ?_, ?_⟩
        · rw [Rust.channelReasons, if_pos hactive]
          rfl
        · simp [hactive, reasonIf, Rust.BlockReason.asStr]
      · obtain ⟨spent, bound, hbn, hbn', hexceeded⟩ := rust_exceeded hamount
          (hspent.live (Rust.isWindowExpired channel.period_start_ledger
            (ledgersPerChannelPeriod channel.period) params.current_ledger)) hlimit
        rw [Rust.channelReasons, if_neg hactive]
        unfold liveAmount at hbn hexceeded ⊢
        dsimp only
        rw [Rust.isWithinSpendLimit, hbn, Lib.ok_bind, hbn', Lib.ok_bind]
        refine ⟨_, rfl, ?_⟩
        rw [Bool.not_eq_false] at hactive
        by_cases hgt : (spent.add amount).cmp bound = .gt
        · simp [hgt, hexceeded.mp hgt, hactive, reasonIf, Rust.BlockReason.asStr]
        · have hwithin := (Bool.not_eq_true _).mp fun h => hgt (hexceeded.mpr h)
          simp [hgt, hwithin, hactive, reasonIf]

theorem map_asStr_ite {p : Prop} [Decidable p] {objection : Bool} (h : p ↔ objection = true)
    (reason : Rust.BlockReason) :
    (if p then [reason] else []).map Rust.BlockReason.asStr =
      reasonIf objection reason.asStr := by
  unfold reasonIf
  by_cases hp : p
  · rw [if_pos hp, if_pos (h.mp hp)]
    rfl
  · rw [if_neg hp, if_neg fun hobjection => hp (h.mpr hobjection)]
    rfl

theorem rust_rateLimitReasons {amount : Decimal} (hamount : amount.value = amountOf params.amount)
    (h : ∀ limit ∈ params.rate_limit_state, AcceptedRateLimit limit) :
    ∃ reasons, Rust.rateLimitReasons amount params.current_ledger params.rate_limit_state =
        .ok reasons ∧ reasons.map Rust.BlockReason.asStr =
      (objections Rust.isWindowExpired Rust.exceeded false params).rateLimitReasons := by
  unfold objections Objections.rateLimitReasons
  dsimp only
  cases hstate : params.rate_limit_state with
  | none => exact ⟨[], rfl, rfl⟩
  | some limit =>
      obtain ⟨hmax, hmaxHour, hmaxDay, hhourly, hdaily⟩ := h limit hstate
      by_cases hconfigured : limit.configured = false
      · refine ⟨[], ?_, ?_⟩
        · rw [Rust.rateLimitReasons, if_pos hconfigured]
          rfl
        · simp [hconfigured, reasonIf]
      · obtain ⟨max, hbn, hmaxValue⟩ := hmax.rust
        obtain ⟨hour, hourBound, hbnHour, hbnHour', hhour⟩ := rust_exceeded hamount
          (hhourly.live (Rust.isWindowExpired limit.hour_window_start_ledger
            RATE_LIMIT_LEDGERS_PER_HOUR params.current_ledger)) hmaxHour
        obtain ⟨day, dayBound, hbnDay, hbnDay', hday⟩ := rust_exceeded hamount
          (hdaily.live (Rust.isWindowExpired limit.day_window_start_ledger
            RATE_LIMIT_LEDGERS_PER_DAY params.current_ledger)) hmaxDay
        have hperTx : amount.cmp max = .gt ↔
            decide (amountOf limit.max_per_tx < amountOf params.amount) = true := by
          rw [gt_iff, hamount, hmaxValue, decide_eq_true_eq]
        rw [Bool.not_eq_false] at hconfigured
        rw [Rust.rateLimitReasons, if_neg (by rw [hconfigured]; exact Bool.noConfusion)]
        unfold liveAmount at hbnHour hbnDay hhour hday ⊢
        dsimp only
        rw [hbn, Lib.ok_bind, hbnHour, Lib.ok_bind, hbnHour', Lib.ok_bind, hbnDay, Lib.ok_bind,
          hbnDay', Lib.ok_bind]
        refine ⟨_, rfl, ?_⟩
        rw [List.map_append, List.map_append, List.map_append, map_asStr_ite hperTx,
          map_asStr_ite hhour, map_asStr_ite hday, map_asStr_ite decide_eq_true_iff.symm]
        simp only [Option.any_some, hconfigured, Bool.true_and, Bool.false_and, Bool.not_false,
          Bool.true_or, List.append_assoc, Rust.BlockReason.asStr, ge_iff_le]
        rfl

theorem rust_predict (h : AcceptedParams params) :
    ∃ prediction, Rust.predictPaymentOutcome params = .ok prediction ∧
      prediction.reasons.map Rust.BlockReason.asStr =
        (objections Rust.isWindowExpired Rust.exceeded false params).reasons ∧
      prediction.would_block = !prediction.reasons.isEmpty := by
  obtain ⟨amount, hbn, hamount⟩ := h.amount.rust
  obtain ⟨channel, hchannel, hchannelReasons⟩ := rust_channelReasons hamount h.channel_state
  obtain ⟨limit, hlimit, hlimitReasons⟩ := rust_rateLimitReasons hamount h.rate_limit_state
  rw [Rust.predictPaymentOutcome, hbn, Lib.ok_bind, hchannel, Lib.ok_bind, hlimit, Lib.ok_bind]
  refine ⟨_, rfl, ?_, rfl⟩
  rw [Objections.reasons_eq, ← hchannelReasons, ← hlimitReasons, List.map_append, List.map_append]
  congr 2
  rw [objections, ← hamount, Decimal.isPositive]
  by_cases hpositive : 0 < amount.unscaled
  · rw [if_pos (decide_eq_true hpositive), decide_eq_false (not_le.mpr
      ((Decimal.value_pos amount).mpr hpositive))]
    rfl
  · rw [if_neg (by simpa using hpositive), decide_eq_true (not_lt.mp fun h =>
      hpositive ((Decimal.value_pos amount).mp h))]
    rfl

theorem python_channelReasons {amt : DecimalFloat} (hamt : Python.d params.amount = .ok amt)
    (h : AcceptedParams params) :
    Python.channelReasons amt params.current_ledger params.channel_state =
      .ok (objections Python.isWindowExpired Python.exceeded true params).channelReasons := by
  unfold objections Objections.channelReasons
  dsimp only
  cases hchannel : params.channel_state with
  | none => rfl
  | some channel =>
      obtain ⟨hlimit, hspent⟩ := h.channel_state channel hchannel
      by_cases hactive : channel.active = false
      · rw [Python.channelReasons, if_pos hactive]
        simp [hactive, reasonIf, Lib.pure_eq_ok]
      · obtain ⟨spent, bound, hd, hd', hexceeds⟩ := python_exceeded hamt
          (hspent.live (Python.isWindowExpired channel.period_start_ledger
            (ledgersPerChannelPeriod channel.period) params.current_ledger)) h.amount hlimit
        rw [Python.channelReasons, if_neg hactive]
        unfold liveAmount at hd hexceeds ⊢
        dsimp only
        rw [hd, Lib.ok_bind, hd', Lib.ok_bind, hexceeds, Lib.ok_bind]
        rw [Bool.not_eq_false] at hactive
        simp [hactive, reasonIf, Lib.pure_eq_ok]

theorem python_rateLimitReasons {amt : DecimalFloat} (hamt : Python.d params.amount = .ok amt)
    (h : AcceptedParams params) :
    Python.rateLimitReasons amt params.current_ledger params.rate_limit_state =
      .ok (objections Python.isWindowExpired Python.exceeded true params).rateLimitReasons := by
  unfold objections Objections.rateLimitReasons
  dsimp only
  cases hstate : params.rate_limit_state with
  | none => rfl
  | some limit =>
      obtain ⟨hmax, hmaxHour, hmaxDay, hhourly, hdaily⟩ := h.rate_limit_state limit hstate
      by_cases hconfigured : limit.configured = false
      · rw [Python.rateLimitReasons, if_pos hconfigured]
        simp [hconfigured, reasonIf, Lib.pure_eq_ok]
      rw [Bool.not_eq_false] at hconfigured
      rw [Python.rateLimitReasons, if_neg (by rw [hconfigured]; exact Bool.noConfusion)]
      by_cases hactive : limit.active = false
      · rw [if_pos hactive]
        simp [hconfigured, hactive, reasonIf, Lib.pure_eq_ok]
      · obtain ⟨max, -, hd, hmaxValue, -⟩ := hmax.python
        obtain ⟨hour, hourBound, hdHour, hdHour', hhour⟩ := python_exceeded hamt
          (hhourly.live (Python.isWindowExpired limit.hour_window_start_ledger
            RATE_LIMIT_LEDGERS_PER_HOUR params.current_ledger)) h.amount hmaxHour
        obtain ⟨day, dayBound, hdDay, hdDay', hday⟩ := python_exceeded hamt
          (hdaily.live (Python.isWindowExpired limit.day_window_start_ledger
            RATE_LIMIT_LEDGERS_PER_DAY params.current_ledger)) h.amount hmaxDay
        obtain ⟨amt', -, hamt', hamount, -⟩ := h.amount.python
        obtain rfl : amt = amt' := Except.ok.inj (hamt.symm.trans hamt')
        rw [if_neg hactive]
        unfold liveAmount at hdHour hdDay hhour hday ⊢
        dsimp only
        rw [hd, Lib.ok_bind, hdHour, Lib.ok_bind, hdDay, Lib.ok_bind, hdHour', Lib.ok_bind, hhour,
          Lib.ok_bind, hdDay', Lib.ok_bind, hday, Lib.ok_bind, hmaxValue, hamount]
        rw [Bool.not_eq_false] at hactive
        simp [hconfigured, hactive, reasonIf, Lib.pure_eq_ok]

theorem python_predict (h : AcceptedParams params) :
    ∃ prediction, Python.predictPaymentOutcome params = .ok prediction ∧
      prediction.reasons =
        (objections Python.isWindowExpired Python.exceeded true params).reasons ∧
      prediction.would_block = !prediction.reasons.isEmpty := by
  obtain ⟨amt, -, hamt, hamount, -⟩ := h.amount.python
  rw [Python.predictPaymentOutcome, hamt, Lib.ok_bind, python_channelReasons hamt h, Lib.ok_bind,
    python_rateLimitReasons hamt h, Lib.ok_bind]
  refine ⟨_, rfl, ?_, ?_⟩
  · rw [Objections.reasons_eq]
    simp [objections, hamount, reasonIf]
  · dsimp only
    rw [Bool.eq_iff_iff, decide_eq_true_eq, Bool.not_eq_true', ← Bool.not_eq_true,
      List.isEmpty_iff, gt_iff_lt, List.length_pos_iff]

end

/-! ## Where the SDKs differ -/

/-- A sum that is over a limit, and that the default context rounds onto it -/
def RoundedOnto (spent amount limit : String) : Prop :=
  amountOf limit < amountOf spent + amountOf amount ∧
    RoundedTo 28 (amountOf spent + amountOf amount) (amountOf limit)

/-- The window ends past the last ledger, which is the current one. -/
def Saturates (start : UInt32) (ledgers : ℕ) (current : UInt32) : Prop :=
  U32_MAX < start.toNat + ledgers ∧ current.toNat = U32_MAX

/-- Both SDKs say the same about the limit of a window: the window goes on for both, and the sum is
not rounded onto the limit; or it has ended for both; or it has ended for the Rust SDK only, and
what was spent in it makes no difference. -/
def SameLimit (start : UInt32) (ledgers : ℕ) (current : UInt32) (spent amount limit : String) :
    Prop :=
  (current.toNat < start.toNat + ledgers → ¬ Saturates start ledgers current →
    ¬ RoundedOnto spent amount limit) ∧
  (Saturates start ledgers current →
    (amountOf limit < amountOf amount ↔
      amountOf limit < amountOf spent + amountOf amount ∧ ¬ RoundedOnto spent amount limit))

/-- **What both SDKs answer alike**: payments with which no active channel and no rate limit that is
configured runs into a difference, and no rate limit that is configured has been killed. -/
structure Alike (params : PredictPaymentParams) : Prop where
  channel_state : ∀ channel ∈ params.channel_state, channel.active = true →
    SameLimit channel.period_start_ledger (ledgersPerChannelPeriod channel.period)
      params.current_ledger channel.spent_this_period params.amount channel.limit_per_period
  active : ∀ limit ∈ params.rate_limit_state, limit.configured = true → limit.active = true
  hourly : ∀ limit ∈ params.rate_limit_state, limit.configured = true →
    SameLimit limit.hour_window_start_ledger RATE_LIMIT_LEDGERS_PER_HOUR params.current_ledger
      limit.hourly_spend params.amount limit.max_per_hour
  daily : ∀ limit ∈ params.rate_limit_state, limit.configured = true →
    SameLimit limit.day_window_start_ledger RATE_LIMIT_LEDGERS_PER_DAY params.current_ledger
      limit.daily_spend params.amount limit.max_per_day
  tx_count : ∀ limit ∈ params.rate_limit_state, limit.configured = true →
    Saturates limit.hour_window_start_ledger RATE_LIMIT_LEDGERS_PER_HOUR params.current_ledger →
    limit.max_txs_per_hour ≤ limit.hourly_tx_count → limit.max_txs_per_hour = 0

section

variable {s t limit : String} {start : UInt32} {ledgers : ℕ} {current : UInt32}

theorem Accepted.roundedSum_iff (hs : Accepted s) (ht : Accepted t)
    (hover : amountOf limit < amountOf s + amountOf t) :
    roundedSum s t = amountOf limit ↔
      RoundedTo 28 (amountOf s + amountOf t) (amountOf limit) := by
  obtain ⟨x, y, total, -, -, hadd, hrounded, hsum, htiny⟩ := hs.add ht
  rw [← hrounded, ← hsum]
  by_cases hzero : (x.exactAdd .half_even y).coefficient = 0
  · -- a sum of zero is not rounded, and it is not zero that it is over
    have hvalue : (x.exactAdd .half_even y).value = 0 := by
      rw [← abs_eq_zero, DecimalFloat.abs_value, DecimalFloat.magnitude, hzero, Nat.cast_zero,
        zero_mul]
    have htotal : total.value = 0 := by
      obtain ⟨-, hmagnitude | ⟨hne, -⟩⟩ := DecimalContext.finish_cases hadd
      · rw [← abs_eq_zero, DecimalFloat.abs_value, hmagnitude, ← DecimalFloat.abs_value]
        exact abs_eq_zero.mpr hvalue
      · exact absurd hzero hne
    rw [← hsum, hvalue] at hover
    rw [htotal, hvalue]
    refine iff_of_false hover.ne' ?_
    rintro ⟨m, e, -, hlow, -⟩
    rw [abs_zero] at hlow
    exact absurd hlow (not_le.mpr (by positivity))
  · exact DecimalContext.finish_value_iff rfl hzero htiny hadd _

theorem python_exceeded_iff (hs : Accepted s) (ht : Accepted t) (hlimit : Accepted limit) :
    Python.exceeded s t limit = true ↔
      Rust.exceeded s t limit = true ∧ ¬ RoundedOnto s t limit := by
  rw [Python.exceeded, Rust.exceeded, decide_eq_true_eq, decide_eq_true_eq,
    hs.lt_roundedSum ht hlimit]
  refine and_congr_right fun hover => not_congr ?_
  rw [hs.roundedSum_iff ht hover, RoundedOnto]
  exact (and_iff_right hover).symm

/-- The windows differ exactly where the addition saturates. -/
theorem isWindowExpired_eq_iff :
    Rust.isWindowExpired start ledgers current = Python.isWindowExpired start ledgers current ↔
      ¬ Saturates start ledgers current := by
  have hcurrent : current.toNat ≤ U32_MAX := Nat.le_of_lt_succ current.toNat_lt
  rw [Rust.isWindowExpired, Python.isWindowExpired, decide_eq_decide, Saturates]
  omega

theorem Saturates.expired (h : Saturates start ledgers current) :
    Rust.isWindowExpired start ledgers current = true ∧
      Python.isWindowExpired start ledgers current = false := by
  obtain ⟨hend, hcurrent⟩ := h
  rw [Rust.isWindowExpired, Python.isWindowExpired, decide_eq_true_eq, decide_eq_false_iff_not]
  omega

/-- In a window that has ended nothing is rounded. -/
theorem not_roundedOnto_zero (ht : Accepted t) : ¬ RoundedOnto "0" t limit := by
  rintro ⟨hover, hrounded⟩
  obtain ⟨x, y, total, -, -, hadd, htotal, hsum, -⟩ := accepted_zero.add ht
  have honto : roundedSum "0" t = amountOf limit :=
    (accepted_zero.roundedSum_iff ht hover).mpr hrounded
  rw [amountOf_zero, zero_add] at hsum hover
  have hexact : total.value = amountOf t :=
    le_antisymm (DecimalContext.finish_le hadd ht.writable hsum.le)
      (DecimalContext.le_finish hadd ht.writable hsum.ge)
  rw [← honto, ← htotal, hexact] at hover
  exact hover.ne rfl

theorem sameLimit_iff (hs : Accepted s) (ht : Accepted t) (hlimit : Accepted limit) :
    Rust.exceeded (liveAmount (Rust.isWindowExpired start ledgers current) s) t limit =
        Python.exceeded (liveAmount (Python.isWindowExpired start ledgers current) s) t limit ↔
      SameLimit start ledgers current s t limit := by
  rw [Bool.eq_iff_iff, python_exceeded_iff (hs.live _) ht hlimit]
  by_cases hsaturates : Saturates start ledgers current
  · obtain ⟨hrust, hpython⟩ := hsaturates.expired
    rw [hrust, hpython, SameLimit, and_iff_right fun _ h => absurd hsaturates h,
      forall_prop_of_true hsaturates]
    unfold liveAmount Rust.exceeded
    rw [if_pos rfl, if_neg Bool.false_ne_true, decide_eq_true_eq, decide_eq_true_eq,
      amountOf_zero, zero_add]
  · rw [isWindowExpired_eq_iff.mpr hsaturates, SameLimit,
      and_iff_left (fun h => absurd h hsaturates)]
    by_cases hended : Python.isWindowExpired start ledgers current = true
    · have hnone : ¬ RoundedOnto (liveAmount true s) t limit := not_roundedOnto_zero ht
      rw [hended, and_iff_left hnone]
      rw [Python.isWindowExpired, decide_eq_true_eq] at hended
      exact iff_of_true Iff.rfl fun hopen => absurd hopen (not_lt.mpr hended)
    · rw [Bool.not_eq_true] at hended
      have hopen : current.toNat < start.toNat + ledgers := by
        rw [Python.isWindowExpired, decide_eq_false_iff_not] at hended
        exact not_le.mp hended
      rw [hended, forall_prop_of_true hopen, forall_prop_of_true hsaturates]
      unfold liveAmount
      rw [if_neg Bool.false_ne_true]
      constructor
      · intro h honto
        exact (h.mp (decide_eq_true honto.1)).2 honto
      · exact fun hclear => ⟨fun hover => ⟨hover, hclear⟩, And.left⟩

/-- The counts are compared alike unless the hour ends past the last ledger. -/
theorem sameCount_iff (max count : UInt32) :
    (max ≤ if Rust.isWindowExpired start ledgers current then 0 else count) =
        (max ≤ if Python.isWindowExpired start ledgers current then 0 else count) ↔
      (Saturates start ledgers current → max ≤ count → max = 0) := by
  have hzero : max ≤ 0 ↔ max = 0 := by
    rw [UInt32.le_iff_toNat_le, ← UInt32.toNat_inj]
    exact Nat.le_zero
  rw [eq_iff_iff]
  by_cases hsaturates : Saturates start ledgers current
  · obtain ⟨hrust, hpython⟩ := hsaturates.expired
    rw [hrust, hpython, if_pos rfl, if_neg Bool.false_ne_true, hzero,
      forall_prop_of_true hsaturates]
    refine ⟨Iff.mpr, fun h => ⟨fun hmax => ?_, h⟩⟩
    rw [hmax, UInt32.le_iff_toNat_le]
    exact Nat.zero_le _
  · rw [isWindowExpired_eq_iff.mpr hsaturates]
    exact iff_of_true Iff.rfl fun h => absurd h hsaturates

end

/-- The predictors return the same answer, with the same reasons in the same order. -/
def SameAnswer (params : PredictPaymentParams) : Prop :=
  ∃ rust python, Rust.predictPaymentOutcome params = .ok rust ∧
    Python.predictPaymentOutcome params = .ok python ∧
    rust.would_block = python.would_block ∧
    rust.reasons.map Rust.BlockReason.asStr = python.reasons

theorem sameAnswer_iff {params : PredictPaymentParams} (h : AcceptedParams params) :
    SameAnswer params ↔ objections Rust.isWindowExpired Rust.exceeded false params =
      objections Python.isWindowExpired Python.exceeded true params := by
  obtain ⟨rust, hrust, hrustReasons, hrustBlock⟩ := rust_predict h
  obtain ⟨python, hpython, hpythonReasons, hpythonBlock⟩ := python_predict h
  rw [← Objections.reasons_inj, ← hrustReasons, ← hpythonReasons]
  constructor
  · rintro ⟨rust', python', hrust', hpython', -, hreasons⟩
    obtain rfl := Except.ok.inj (hrust.symm.trans hrust')
    obtain rfl := Except.ok.inj (hpython.symm.trans hpython')
    exact hreasons
  · intro hreasons
    refine ⟨rust, python, hrust, hpython, ?_, hreasons⟩
    rw [hrustBlock, hpythonBlock, ← hreasons, List.isEmpty_map]

/-- **The ports.** On amounts that both SDKs accept, the Rust and the Python predictor give the same
answer exactly where no difference between them is run into. -/
theorem predictors_agree_iff {params : PredictPaymentParams} (h : AcceptedParams params) :
    SameAnswer params ↔ Alike params := by
  rw [sameAnswer_iff h]
  unfold objections
  rw [Objections.mk.injEq]
  constructor
  · rintro ⟨-, -, hchannel, hinactive, -, hhourly, hdaily, hcount⟩
    have hactive : ∀ limit ∈ params.rate_limit_state, limit.configured = true →
        limit.active = true := by
      intro limit hlimit hconfigured
      rw [hlimit] at hinactive
      simpa [hconfigured] using hinactive
    refine ⟨fun channel hmem hopen => ?_, hactive, fun limit hmem hconfigured => ?_,
      fun limit hmem hconfigured => ?_, fun limit hmem hconfigured => ?_⟩
    · obtain ⟨hlimit, hspent⟩ := h.channel_state channel hmem
      rw [hmem] at hchannel
      exact (sameLimit_iff hspent h.amount hlimit).mp (by simpa [hopen] using hchannel)
    · obtain ⟨-, hmax, -, hspent, -⟩ := h.rate_limit_state limit hmem
      rw [hmem] at hhourly
      have hopen := hactive limit hmem hconfigured
      exact (sameLimit_iff hspent h.amount hmax).mp (by simpa [hopen, hconfigured] using hhourly)
    · obtain ⟨-, -, hmax, -, hspent⟩ := h.rate_limit_state limit hmem
      rw [hmem] at hdaily
      have hopen := hactive limit hmem hconfigured
      exact (sameLimit_iff hspent h.amount hmax).mp (by simpa [hopen, hconfigured] using hdaily)
    · rw [hmem] at hcount
      have hopen := hactive limit hmem hconfigured
      exact (sameCount_iff _ _).mp (propext (by simpa [hopen, hconfigured] using hcount))
  · intro halike
    obtain ⟨hchannel, hactive, hhourly, hdaily, hcount⟩ := halike
    refine ⟨rfl, rfl, ?_, ?_, ?_, ?_, ?_, ?_⟩
    · cases hstate : params.channel_state with
      | none => rfl
      | some channel =>
          obtain ⟨hlimit, hspent⟩ := h.channel_state channel hstate
          rw [Option.any_some, Option.any_some]
          cases hopen : channel.active with
          | false => rw [Bool.false_and, Bool.false_and]
          | true =>
              rw [Bool.true_and, Bool.true_and]
              exact (sameLimit_iff hspent h.amount hlimit).mpr (hchannel channel hstate hopen)
    all_goals
      cases hstate : params.rate_limit_state with
      | none => rfl
      | some limit =>
          rw [Option.any_some, Option.any_some]
          cases hconfigured : limit.configured with
          | false => simp only [Bool.false_and]
          | true =>
              have hopen := hactive limit hstate hconfigured
              obtain ⟨-, hmaxHour, hmaxDay, hhour, hday⟩ := h.rate_limit_state limit hstate
              have hsameHour := (sameLimit_iff hhour h.amount hmaxHour).mpr
                (hhourly limit hstate hconfigured)
              have hsameDay := (sameLimit_iff hday h.amount hmaxDay).mpr
                (hdaily limit hstate hconfigured)
              have hsameCount := (sameCount_iff limit.max_txs_per_hour limit.hourly_tx_count).mpr
                (hcount limit hstate hconfigured)
              simp [hopen, hsameHour, hsameDay, hsameCount]

/-! ### Samples -/

/-- An hourly channel with 100 left, in its hour -/
def openChannel : ChannelSpendState where
  active := true
  limit_per_period := "10000"
  spent_this_period := "9900"
  period_start_ledger := 1000
  period := .Hourly

/-- What is left of the limit -/
def lastPayment : PredictPaymentParams where
  channel_state := some openChannel
  rate_limit_state := none
  amount := "100"
  current_ledger := 1500

theorem lastPayment_accepted : AcceptedParams lastPayment where
  amount := ⟨⟨100, 0⟩, ⟨false, 100, 0⟩, by rfl, by rfl, by decide⟩
  channel_state := by
    intro channel hchannel
    obtain rfl := Option.some.inj hchannel
    exact ⟨⟨⟨10000, 0⟩, ⟨false, 10000, 0⟩, by rfl, by rfl, by decide⟩,
      ⟨⟨9900, 0⟩, ⟨false, 9900, 0⟩, by rfl, by rfl, by decide⟩⟩
  rate_limit_state := fun _ h => nomatch h

theorem predictors_agree_lastPayment : AcceptedParams lastPayment ∧ SameAnswer lastPayment := by
  refine ⟨lastPayment_accepted, (predictors_agree_iff lastPayment_accepted).mpr ?_⟩
  refine ⟨fun channel hchannel _ => ?_, (fun _ h => nomatch h), (fun _ h => nomatch h),
    (fun _ h => nomatch h), (fun _ h => nomatch h)⟩
  obtain rfl := Option.some.inj hchannel
  constructor
  · rintro - - ⟨hover, -⟩
    have hlimit : Decimal.parse openChannel.limit_per_period = .ok ⟨10000, 0⟩ := by rfl
    have hspent : Decimal.parse openChannel.spent_this_period = .ok ⟨9900, 0⟩ := by rfl
    have hamount : Decimal.parse lastPayment.amount = .ok ⟨100, 0⟩ := by rfl
    rw [amountOf, amountOf, amountOf, hlimit, hspent, hamount] at hover
    norm_num [Decimal.value] at hover
  · intro hsaturates
    exact absurd hsaturates.2 (by decide)

/-- A limit of an agent that was killed, far from being reached -/
def killedLimit : RateLimitSpendState where
  configured := true
  active := false
  max_per_tx := "100"
  max_per_hour := "100"
  max_per_day := "100"
  max_txs_per_hour := 10
  hourly_spend := "0"
  daily_spend := "0"
  hourly_tx_count := 0
  hour_window_start_ledger := 1000
  day_window_start_ledger := 1000

def killedPayment : PredictPaymentParams where
  channel_state := none
  rate_limit_state := some killedLimit
  amount := "1"
  current_ledger := 1500

/-- Only the Python SDK looks at the kill flag. -/
theorem killed_limit_differs :
    AcceptedParams killedPayment ∧
      Rust.predictPaymentOutcome killedPayment = .ok ⟨false, []⟩ ∧
      Python.predictPaymentOutcome killedPayment = .ok ⟨true, ["rate_limit_inactive"]⟩ ∧
      ¬ SameAnswer killedPayment := by
  have hone : Accepted "1" := ⟨⟨1, 0⟩, ⟨false, 1, 0⟩, by rfl, by rfl, by decide⟩
  have hhundred : Accepted "100" := ⟨⟨100, 0⟩, ⟨false, 100, 0⟩, by rfl, by rfl, by decide⟩
  have haccepted : AcceptedParams killedPayment := by
    refine ⟨hone, (fun _ h => nomatch h), fun limit hlimit => ?_⟩
    obtain rfl := Option.some.inj hlimit
    exact ⟨hhundred, hhundred, hhundred, accepted_zero, accepted_zero⟩
  have hrust : Rust.predictPaymentOutcome killedPayment = .ok ⟨false, []⟩ := by rfl
  have hpython : Python.predictPaymentOutcome killedPayment =
      .ok ⟨true, ["rate_limit_inactive"]⟩ := by
    have hd : Python.d killedPayment.amount = .ok ⟨false, 1, 0⟩ := by rfl
    rw [Python.predictPaymentOutcome, hd, Lib.ok_bind]
    have hpositive : ¬ (DecimalFloat.mk false 1 0).value ≤ 0 := by
      norm_num [DecimalFloat.value, DecimalFloat.signed]
    rw [if_neg hpositive]
    rfl
  refine ⟨haccepted, hrust, hpython, ?_⟩
  rintro ⟨rust, python, hrust', hpython', hblock, -⟩
  obtain rfl := Except.ok.inj (hrust.symm.trans hrust')
  obtain rfl := Except.ok.inj (hpython.symm.trans hpython')
  cases hblock

end StellarAgent.Prediction.Ports
