import StellarAgent.Lib.Truncation
import StellarAgent.Prediction.Agreement
import StellarAgent.Prediction.Decoding

set_option autoImplicit false

/-! # The prediction of an agent, end to end

`StellarAgent.predictPayment` of `packages/core/src/agent/`: `get_channel` and `get_limits` are
decoded, mapped onto the public records and from there onto the state of the predictor. Decimal
strings are rationals here, since `BigNumber` reads them exactly.

For an agent with limits there is no prediction (`prediction_never_agrees`): the decoder refuses
what `get_limits` returns. Past the decoder the mapped limits have no buckets, which the predictor
wants (`mapped_limits_unpredictable`); and for an agent without limits it compares an amount in XLM
with the stroops of the channel (`unlimited_prediction`).
-/

namespace StellarAgent.Prediction.EndToEnd

open Lib Soroban RateLimiter
open PaymentChannel (Channel)
open Prediction (BlockReason PaymentPrediction RATE_LIMIT_LEDGERS_PER_HOUR
  RATE_LIMIT_LEDGERS_PER_DAY)

/-! ## Stroops -/

def STROOP_SCALE : ℚ := 10 ^ 7

def toStroops (amount : ℚ) : ℤ := towardZero (amount * STROOP_SCALE)

/-- A quotient keeps 18 decimal places. -/
def fromStroops (stroops : ℤ) : ℚ := truncated 7 (truncated 18 (stroops / STROOP_SCALE))

/-! ## The public records -/

structure ChannelInfo where
  id : ℕ
  agent : String
  owner : String
  token : String
  limitPerPeriod : ℤ
  period : String
  spentThisPeriod : ℤ
  periodStartLedger : ℤ
  totalSpent : ℤ
  active : Bool

def toChannelInfo (channelId : ℕ) (raw : RawChannel) : ChannelInfo where
  id := channelId
  agent := raw.agent
  owner := raw.owner
  token := raw.token
  limitPerPeriod := raw.limit_per_period
  period := raw.period
  spentThisPeriod := raw.spent_this_period
  periodStartLedger := raw.period_start_ledger
  totalSpent := raw.total_spent
  active := raw.active

structure RateLimitStatus where
  configured : Bool
  active : Bool
  maxPerTx : ℚ
  maxPerHour : ℚ
  maxPerDay : ℚ
  maxTxsPerHour : ℤ
  spentThisHour : ℚ
  spentToday : ℚ
  txsThisHour : ℤ
  hourWindowStartLedger : ℤ
  dayWindowStartLedger : ℤ

def toRateLimitStatus (raw : RawRateLimit) : RateLimitStatus where
  configured := true
  active := raw.active
  maxPerTx := fromStroops raw.max_per_tx
  maxPerHour := fromStroops raw.max_per_hour
  maxPerDay := fromStroops raw.max_per_day
  maxTxsPerHour := raw.max_txs_per_hour
  spentThisHour := fromStroops raw.hourly_spend
  spentToday := fromStroops raw.daily_spend
  txsThisHour := raw.hourly_tx_count
  hourWindowStartLedger := raw.hour_window_start
  dayWindowStartLedger := raw.day_window_start

def UNCONFIGURED_RATE_LIMIT : RateLimitStatus where
  configured := false
  active := true
  maxPerTx := 0
  maxPerHour := 0
  maxPerDay := 0
  maxTxsPerHour := 0
  spentThisHour := 0
  spentToday := 0
  txsThisHour := 0
  hourWindowStartLedger := 0
  dayWindowStartLedger := 0

/-! ## The state of the predictor -/

structure ChannelSpendState where
  active : Bool
  limitPerPeriod : ℚ
  spentThisPeriod : ℚ
  periodStartLedger : ℤ
  period : String

/-- What the predictor reads of the limits, and the three counters that the mapping gives instead
of buckets. A field that is `none` is `undefined`. -/
structure RateLimitSpendState where
  configured : Bool
  active : Bool
  maxPerTx : ℚ
  maxPerHour : ℚ
  maxPerDay : ℚ
  maxTxsPerHour : ℤ
  hourlyBuckets : Option (List ℚ)
  dailyBuckets : Option (List ℚ)
  hourlyTxBuckets : Option (List ℤ)
  hourlySpend : Option ℚ
  dailySpend : Option ℚ
  hourlyTxCount : Option ℤ
  hourWindowStartLedger : ℤ
  dayWindowStartLedger : ℤ

/-- The amounts stay in stroops. -/
def toChannelSpendState (channel : ChannelInfo) : ChannelSpendState where
  active := channel.active
  limitPerPeriod := channel.limitPerPeriod
  spentThisPeriod := channel.spentThisPeriod
  periodStartLedger := channel.periodStartLedger
  period := channel.period

def toRateLimitSpendState (status : RateLimitStatus) : RateLimitSpendState where
  configured := status.configured
  active := status.active
  maxPerTx := status.maxPerTx
  maxPerHour := status.maxPerHour
  maxPerDay := status.maxPerDay
  maxTxsPerHour := status.maxTxsPerHour
  hourlyBuckets := none
  dailyBuckets := none
  hourlyTxBuckets := none
  hourlySpend := some status.spentThisHour
  dailySpend := some status.spentToday
  hourlyTxCount := some status.txsThisHour
  hourWindowStartLedger := status.hourWindowStartLedger
  dayWindowStartLedger := status.dayWindowStartLedger

/-! ## The predictor -/

/-- `undefined` for another string -/
def LEDGERS_PER_CHANNEL_PERIOD : String → Option ℤ
  | "per_ledger" => some 1
  | "hourly" => some 720
  | "daily" => some 17280
  | _ => none

def isWindowExpired (windowStartLedger ledgersPerWindow currentLedger : ℤ) : Bool :=
  currentLedger ≥ windowStartLedger + ledgersPerWindow

def isWithinSpendLimit (spentThisPeriod limitPerPeriod proposedAmount : ℚ) : Bool :=
  spentThisPeriod + proposedAmount ≤ limitPerPeriod

/-- The loop of `sumLiveBuckets` and of `sumLiveTxBuckets`, from bucket `i` on -/
def sumLiveFrom {M : Type} [Add M]
    (windowStartLedger ledgersPerWindow currentLedger bucketSize : ℤ) : ℤ → List M → M → M
  | _, [], total => total
  | i, bucket :: buckets, total =>
      sumLiveFrom windowStartLedger ledgersPerWindow currentLedger bucketSize (i + 1) buckets
        (if isWindowExpired (windowStartLedger + i * bucketSize) ledgersPerWindow currentLedger then
          total
        else total + bucket)

/-- Both start with the length of the buckets. -/
def sumLiveBuckets {M : Type} [Add M] [Zero M] (buckets : Option (List M))
    (windowStartLedger ledgersPerWindow currentLedger : ℤ) : Except Thrown M :=
  match buckets with
  | none => .error (.typeError "Cannot read properties of undefined (reading 'length')")
  | some buckets => .ok (sumLiveFrom windowStartLedger ledgersPerWindow currentLedger
      (ledgersPerWindow / buckets.length) 0 buckets 0)

/-- The reasons that `predictPaymentOutcome` takes from the channel -/
def channelReasons (channelState : Option ChannelSpendState) (amount : ℚ) (currentLedger : ℤ) :
    List BlockReason :=
  match channelState with
  | none => []
  | some channelState =>
      if channelState.active = false then [.channel_inactive]
      else
        let expired := match LEDGERS_PER_CHANNEL_PERIOD channelState.period with
          | some ledgersPerPeriod =>
              isWindowExpired channelState.periodStartLedger ledgersPerPeriod currentLedger
          | none => false
        let effectiveSpent := if expired then 0 else channelState.spentThisPeriod
        if isWithinSpendLimit effectiveSpent channelState.limitPerPeriod amount then []
        else [.channel_spend_limit]

/-- The reasons that it takes from the rate limiter -/
def rateLimitReasons (rateLimitState : Option RateLimitSpendState) (amount : ℚ)
    (currentLedger : ℤ) : Except Thrown (List BlockReason) :=
  match rateLimitState with
  | none => .ok []
  | some rateLimitState =>
      if rateLimitState.configured = false then .ok []
      else do
        let effectiveHourlySpend ← sumLiveBuckets rateLimitState.hourlyBuckets
          rateLimitState.hourWindowStartLedger RATE_LIMIT_LEDGERS_PER_HOUR currentLedger
        let effectiveDailySpend ← sumLiveBuckets rateLimitState.dailyBuckets
          rateLimitState.dayWindowStartLedger RATE_LIMIT_LEDGERS_PER_DAY currentLedger
        let effectiveHourlyTxCount ← sumLiveBuckets rateLimitState.hourlyTxBuckets
          rateLimitState.hourWindowStartLedger RATE_LIMIT_LEDGERS_PER_HOUR currentLedger
        return (if amount > rateLimitState.maxPerTx then [.rate_limit_per_tx] else []) ++
          (if effectiveHourlySpend + amount > rateLimitState.maxPerHour then [.rate_limit_hourly]
            else []) ++
          (if effectiveDailySpend + amount > rateLimitState.maxPerDay then [.rate_limit_daily]
            else []) ++
          (if effectiveHourlyTxCount ≥ rateLimitState.maxTxsPerHour then [.rate_limit_tx_count]
            else [])

def predictPaymentOutcome (channelState : Option ChannelSpendState)
    (rateLimitState : Option RateLimitSpendState) (amount : ℚ) (currentLedger : ℤ) :
    Except Thrown PaymentPrediction := do
  let limited ← rateLimitReasons rateLimitState amount currentLedger
  let reasons := (if amount > 0 then [] else [.invalid_amount]) ++
    channelReasons channelState amount currentLedger ++ limited
  return { wouldBlock := decide (reasons.length > 0), reasons }

/-! ## The queries -/

section

/- What `String(value)` gives for a value that is not a string, and the text of an address -/
variable (asString : Native → String) (strkey : Address → String)

def getChannel (channelId : ℕ) (value : Native) : Except Thrown ChannelInfo := do
  let raw ← decodeChannel asString value
  return toChannelInfo channelId raw

/-- Of the errors of `get_limits`, the one for an agent without limits is caught. -/
def getRateLimitStatus (answer : Except Thrown Native) : Except Thrown RateLimitStatus :=
  match answer with
  | .ok value => toRateLimitStatus <$> decodeRateLimit asString value
  | .error (.stellarAgentError code message) =>
      if code = "RATE_LIMIT_NOT_FOUND" then .ok UNCONFIGURED_RATE_LIMIT
      else .error (.stellarAgentError code message)
  | .error (.typeError message) => .error (.typeError message)

/-- What comes back from `get_limits`: its panic is mapped by `contractError`. -/
def getLimits (w : State) (agent : Address) : Except Thrown Native :=
  match limitOf w agent with
  | some limit => .ok (nativeRateLimit strkey limit)
  | none => .error (.stellarAgentError "RATE_LIMIT_NOT_FOUND" "no rate limit for agent")

/-- `predictPayment` over a channel of the contract and the limits of an agent in `w`, at the ledger
of `w`. Of two rejections either may be the one that is seen. -/
def predictPayment (channelId : ℕ) (channel : Channel) (w : State) (agent : Address)
    (amount : ℚ) : Except Thrown PaymentPrediction := do
  let channel ← getChannel asString channelId (nativeChannel strkey channel)
  let rateLimit ← getRateLimitStatus asString (getLimits strkey w agent)
  predictPaymentOutcome (some (toChannelSpendState channel))
    (some (toRateLimitSpendState rateLimit)) amount w.sequence

/-! ## No prediction -/

theorem getRateLimitStatus_throws {w : State} {agent : Address} {limit : RateLimit}
    (hlimit : limitOf w agent = some limit) :
    getRateLimitStatus asString (getLimits strkey w agent) =
      malformed "RateLimit.daily_spend (expected an integer)" := by
  rw [getLimits, hlimit]
  show toRateLimitStatus <$> decodeRateLimit asString (nativeRateLimit strkey limit) = _
  rw [decodeRateLimit_nativeRateLimit]
  rfl

/-- **An agent with limits gets no prediction.** -/
theorem predictPayment_throws {w : State} {agent : Address} {limit : RateLimit}
    (hlimit : limitOf w agent = some limit) (channelId : ℕ) (channel : Channel) (amount : ℚ) :
    ∃ thrown, predictPayment asString strkey channelId channel w agent amount = .error thrown := by
  unfold predictPayment
  rw [getRateLimitStatus_throws asString strkey hlimit]
  cases getChannel asString channelId (nativeChannel strkey channel) with
  | error thrown => exact ⟨thrown, rfl⟩
  | ok channel => exact ⟨_, rfl⟩

/-- Whether the spend limit of the channel or the limits of the agent refuse an amount of stroops -/
def Refused (channel : Channel) (w : State) (agent : Address) (amount : ℤ) : Prop :=
  payChecks channel w.sequence amount ≠ .ok () ∨ check w agent amount ≠ .ok true

/-- **The prediction succeeds and says what the chain does.** -/
def Foresees (channelId : ℕ) (channel : Channel) (w : State) (agent : Address)
    (amount : ℚ) : Prop :=
  ∃ prediction, predictPayment asString strkey channelId channel w agent amount = .ok prediction ∧
    (prediction.wouldBlock = true ↔ Refused channel w agent (toStroops amount))

/-- **For an agent with limits no prediction is right**: there is none. -/
theorem prediction_never_agrees {w : State} {agent : Address} {limit : RateLimit}
    (hlimit : limitOf w agent = some limit) (channelId : ℕ) (channel : Channel) (amount : ℚ) :
    ¬ Foresees asString strkey channelId channel w agent amount := by
  rintro ⟨prediction, hok, _⟩
  obtain ⟨thrown, hthrown⟩ :=
    predictPayment_throws asString strkey hlimit channelId channel amount
  rw [hthrown] at hok
  cases hok

open LocalNet in
/-- The agent is killed. -/
theorem prediction_never_agrees_killed :
    (limitOf (limitedWorld [kills]) (account 2)).isSome = true ∧
      ∀ asString strkey,
        ¬ Foresees asString strkey 1 sampleChannel (limitedWorld [kills]) (account 2) 1 := by
  have hlimited : (limitOf (limitedWorld [kills]) (account 2)).isSome = true := by
    decide +kernel
  obtain ⟨limit, hlimit⟩ := Option.isSome_iff_exists.mp hlimited
  exact ⟨hlimited, fun asString strkey =>
    prediction_never_agrees asString strkey hlimit 1 sampleChannel 1⟩

/-! ## Past the decoder -/

/-- **Limits that come through the mapping cannot be predicted either.** -/
theorem mapped_limits_unpredictable (channelState : Option ChannelSpendState)
    (raw : RawRateLimit) (amount : ℚ) (currentLedger : ℤ) :
    predictPaymentOutcome channelState (some (toRateLimitSpendState (toRateLimitStatus raw)))
      amount currentLedger =
      .error (.typeError "Cannot read properties of undefined (reading 'length')") := rfl

/-- The period of a decoded channel ends when that of the channel does. -/
theorem isWindowExpired_decoded (channel : Channel) (now : ℕ) :
    (match LEDGERS_PER_CHANNEL_PERIOD (periodTag channel.period) with
      | some ledgersPerPeriod =>
          isWindowExpired channel.period_start_ledger ledgersPerPeriod now
      | none => false) =
      Prediction.isWindowExpired channel.period_start_ledger
        (Prediction.LEDGERS_PER_CHANNEL_PERIOD channel.period) now := by
  have hcast : ∀ window : ℕ, isWindowExpired channel.period_start_ledger window now =
      Prediction.isWindowExpired channel.period_start_ledger window now := by
    intro window
    simp only [isWindowExpired, Prediction.isWindowExpired, ge_iff_le, decide_eq_decide]
    omega
  cases hperiod : channel.period with
  | PerLedger => exact hcast 1
  | Hourly => exact hcast 720
  | Daily => exact hcast 17280

/-- **Without limits the amount in XLM is compared with the stroops of the channel.** -/
theorem unlimited_prediction {w : State} {agent : Address} (hlimit : limitOf w agent = none)
    (channelId : ℕ) {channel : Channel} (hdispute : channel.dispute_ledgers ≤ U32_MAX)
    (hstart : channel.period_start_ledger ≤ U32_MAX) (hactive : channel.active = true)
    {amount : ℚ} (hamount : 0 < amount) :
    ∃ prediction, predictPayment asString strkey channelId channel w agent amount = .ok prediction ∧
      (prediction.wouldBlock = true ↔
        (channel.limit_per_period : ℚ) <
          effectiveSpent (Prediction.toChannelSpendState channel) w.sequence + amount) := by
  have hchannel : getChannel asString channelId (nativeChannel strkey channel) =
      .ok (toChannelInfo channelId (rawChannel strkey channel)) := by
    rw [getChannel, decodeChannel_nativeChannel asString strkey hdispute hstart]
    rfl
  have hstatus : getRateLimitStatus asString (getLimits strkey w agent) =
      .ok UNCONFIGURED_RATE_LIMIT := by
    rw [getLimits, hlimit]
    rfl
  have hexpired := isWindowExpired_decoded channel w.sequence
  rw [predictPayment, hchannel, hstatus]
  refine ⟨_, rfl, ?_⟩
  rw [if_pos hamount]
  simp only [channelReasons, toChannelSpendState, toChannelInfo, rawChannel, hactive, hexpired,
    effectiveSpent, Prediction.toChannelSpendState, isWithinSpendLimit]
  have hblocked : ∀ spent : ℚ, 0 < (if spent + amount ≤ channel.limit_per_period then []
      else [BlockReason.channel_spend_limit]).length ↔
      (channel.limit_per_period : ℚ) < spent + amount := by
    intro spent
    by_cases hfits : spent + amount ≤ channel.limit_per_period
    · simp [hfits]
    · simp [hfits, not_le.mp hfits]
  by_cases hperiod : Prediction.isWindowExpired channel.period_start_ledger
      (Prediction.LEDGERS_PER_CHANNEL_PERIOD channel.period) w.sequence = true
  · simpa [hperiod] using hblocked 0
  · simpa [hperiod] using hblocked channel.spent_this_period

end

/-! ## On the local network -/

section

open LocalNet

/-- Payments of 60 and, 100 ledgers later, of 0.000004 XLM: no prediction for the second one -/
theorem second_payment_unpredicted :
    (∃ tr, Runs platform deployed deployment tr (limitedWorld [records 60, .wait 100])) ∧
      toStroops 0.000004 = 40 ∧
      ¬ Refused sampleChannel (limitedWorld [records 60, .wait 100]) (account 2) 40 ∧
      ∀ asString strkey, ¬ Foresees asString strkey 1 sampleChannel
        (limitedWorld [records 60, .wait 100]) (account 2) 0.000004 := by
  refine ⟨limitedWorld_runs _ (by decide +kernel), ?_, ?_, ?_⟩
  · have hwhole : (0.000004 : ℚ) * STROOP_SCALE = (40 : ℤ) := by norm_num [STROOP_SCALE]
    rw [toStroops, hwhole, towardZero_intCast]
  · rw [Refused, not_or, not_not, not_not]
    constructor
    · decide +kernel
    · decide +kernel
  · rintro asString strkey ⟨prediction, hok, _⟩
    have hlimited : (limitOf (limitedWorld [records 60, .wait 100]) (account 2)).isSome = true := by
      decide +kernel
    obtain ⟨limit, hlimit⟩ := Option.isSome_iff_exists.mp hlimited
    obtain ⟨thrown, hthrown⟩ :=
      predictPayment_throws asString strkey hlimit 1 sampleChannel 0.000004
    rw [hthrown] at hok
    cases hok

end

end StellarAgent.Prediction.EndToEnd
