import StellarAgent.PaymentChannel.Storage

set_option autoImplicit false

/-! # The pre-flight predictor

`packages/core/src/math/predict.ts`: whether a payment would be blocked by the spend limit of a
channel or by a rate limiter, from plain copies of their state. Amounts are decimal strings of
stroops there, which `BigNumber` reads and adds exactly; they are integers here.
-/

namespace StellarAgent.Prediction

open PaymentChannel (SpendPeriod)

/-! ## Constants -/

def LEDGERS_PER_CHANNEL_PERIOD : SpendPeriod → ℕ
  | .PerLedger => 1
  | .Hourly => 720
  | .Daily => 17280

def RATE_LIMIT_LEDGERS_PER_HOUR : ℕ := 720
def RATE_LIMIT_LEDGERS_PER_DAY : ℕ := 17280

/-! ## Input state -/

structure ChannelSpendState where
  active : Bool
  limitPerPeriod : ℤ
  spentThisPeriod : ℤ
  periodStartLedger : ℕ
  period : SpendPeriod

/-- The buckets are listed oldest first. -/
structure RateLimitSpendState where
  configured : Bool
  active : Bool
  maxPerTx : ℤ
  maxPerHour : ℤ
  maxPerDay : ℤ
  maxTxsPerHour : ℕ
  hourlyBuckets : List ℤ
  dailyBuckets : List ℤ
  hourlyTxBuckets : List ℕ
  hourWindowStartLedger : ℕ
  dayWindowStartLedger : ℕ

inductive BlockReason where
  | invalid_amount
  | channel_inactive
  | channel_spend_limit
  | rate_limit_per_tx
  | rate_limit_hourly
  | rate_limit_daily
  | rate_limit_tx_count
  deriving DecidableEq

structure PaymentPrediction where
  wouldBlock : Bool
  reasons : List BlockReason

/-! ## Windows -/

def isWindowExpired (windowStartLedger ledgersPerWindow currentLedger : ℕ) : Bool :=
  currentLedger ≥ windowStartLedger + ledgersPerWindow

/-- The loop of `sumLiveBuckets` and of `sumLiveTxBuckets`, from bucket `i` on -/
def sumLiveFrom {M : Type} [Add M] (windowStartLedger ledgersPerWindow currentLedger bucketSize : ℕ) :
    ℕ → List M → M → M
  | _, [], total => total
  | i, bucket :: buckets, total =>
      let bucketStart := windowStartLedger + i * bucketSize
      sumLiveFrom windowStartLedger ledgersPerWindow currentLedger bucketSize (i + 1) buckets
        (if isWindowExpired bucketStart ledgersPerWindow currentLedger then total
          else total + bucket)

def sumLiveBuckets (buckets : List ℤ) (windowStartLedger ledgersPerWindow currentLedger : ℕ) : ℤ :=
  sumLiveFrom windowStartLedger ledgersPerWindow currentLedger (ledgersPerWindow / buckets.length)
    0 buckets 0

def sumLiveTxBuckets (buckets : List ℕ) (windowStartLedger ledgersPerWindow currentLedger : ℕ) :
    ℕ :=
  sumLiveFrom windowStartLedger ledgersPerWindow currentLedger (ledgersPerWindow / buckets.length)
    0 buckets 0

/-! ## The predictor -/

def isWithinSpendLimit (spentThisPeriod limitPerPeriod proposedAmount : ℤ) : Bool :=
  spentThisPeriod + proposedAmount ≤ limitPerPeriod

/-- What the period of a channel has left of `spentThisPeriod` -/
def effectiveSpent (channelState : ChannelSpendState) (currentLedger : ℕ) : ℤ :=
  if isWindowExpired channelState.periodStartLedger
      (LEDGERS_PER_CHANNEL_PERIOD channelState.period) currentLedger then 0
  else channelState.spentThisPeriod

/-- The reasons that `predictPaymentOutcome` takes from the channel -/
def channelReasons (channelState : Option ChannelSpendState) (amount : ℤ) (currentLedger : ℕ) :
    List BlockReason :=
  match channelState with
  | none => []
  | some channelState =>
      if channelState.active = false then [.channel_inactive]
      else if isWithinSpendLimit (effectiveSpent channelState currentLedger)
          channelState.limitPerPeriod amount then []
      else [.channel_spend_limit]

/-- The reasons that it takes from the rate limiter; `active` is not looked at. -/
def rateLimitReasons (rateLimitState : Option RateLimitSpendState) (amount : ℤ)
    (currentLedger : ℕ) : List BlockReason :=
  match rateLimitState with
  | none => []
  | some rateLimitState =>
      if rateLimitState.configured = false then []
      else
        let effectiveHourlySpend := sumLiveBuckets rateLimitState.hourlyBuckets
          rateLimitState.hourWindowStartLedger RATE_LIMIT_LEDGERS_PER_HOUR currentLedger
        let effectiveDailySpend := sumLiveBuckets rateLimitState.dailyBuckets
          rateLimitState.dayWindowStartLedger RATE_LIMIT_LEDGERS_PER_DAY currentLedger
        let effectiveHourlyTxCount := sumLiveTxBuckets rateLimitState.hourlyTxBuckets
          rateLimitState.hourWindowStartLedger RATE_LIMIT_LEDGERS_PER_HOUR currentLedger
        (if amount > rateLimitState.maxPerTx then [.rate_limit_per_tx] else []) ++
          (if effectiveHourlySpend + amount > rateLimitState.maxPerHour then [.rate_limit_hourly]
            else []) ++
          (if effectiveDailySpend + amount > rateLimitState.maxPerDay then [.rate_limit_daily]
            else []) ++
          (if effectiveHourlyTxCount ≥ rateLimitState.maxTxsPerHour then [.rate_limit_tx_count]
            else [])

def predictPaymentOutcome (channelState : Option ChannelSpendState)
    (rateLimitState : Option RateLimitSpendState) (amount : ℤ) (currentLedger : ℕ) :
    PaymentPrediction :=
  let reasons := (if amount ≤ 0 then [.invalid_amount] else []) ++
    channelReasons channelState amount currentLedger ++
    rateLimitReasons rateLimitState amount currentLedger
  { wouldBlock := decide (reasons.length > 0), reasons }

end StellarAgent.Prediction
