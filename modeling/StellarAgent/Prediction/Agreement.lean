import StellarAgent.Prediction.Checks
import StellarAgent.RateLimiter.Windows

set_option autoImplicit false

/-! # The predictor against the chain

`predictPaymentOutcome` on the plain copies of a channel and of the limits of an agent agrees with
the checks of both contracts exactly if the agent is not killed and nothing that only the predictor
counts decides a comparison (`prediction_agrees`). It does not for a killed agent, nor for a daily
ring, whose buckets the predictor takes to be 24 times as long as they are
(`killed_and_stale_not_foreseen`).
-/

namespace StellarAgent.Prediction

open Lib Soroban RateLimiter
open PaymentChannel (Channel)

/-! ## Reasons -/

/-- A comparison is named among some reasons. -/
def Named (reasons : List BlockReason) (comparison : Comparison) : Prop :=
  ∃ reason ∈ reasons, comparison.reason = some reason

theorem named_iff {reasons : List BlockReason} {comparison : Comparison} {reason : BlockReason}
    (h : comparison.reason = some reason) : Named reasons comparison ↔ reason ∈ reasons := by
  unfold Named
  rw [h]
  constructor
  · rintro ⟨_, hmem, hsame⟩
    obtain rfl := Option.some.inj hsame
    exact hmem
  · exact fun hmem => ⟨reason, hmem, rfl⟩

theorem not_named {reasons : List BlockReason} {comparison : Comparison}
    (h : comparison.reason = none) : ¬ Named reasons comparison := by
  rintro ⟨_, _, hsome⟩
  rw [h] at hsome
  cases hsome

/-! ## The plain state -/

def toChannelSpendState (channel : Channel) : ChannelSpendState where
  active := channel.active
  limitPerPeriod := channel.limit_per_period
  spentThisPeriod := channel.spent_this_period
  periodStartLedger := channel.period_start_ledger
  period := channel.period

/-- The limits of an agent as plain state. A window starts with its oldest bucket. -/
def toRateLimitSpendState : Option RateLimit → RateLimitSpendState
  | none => {
      configured := false
      active := true
      maxPerTx := 0
      maxPerHour := 0
      maxPerDay := 0
      maxTxsPerHour := 0
      hourlyBuckets := []
      dailyBuckets := []
      hourlyTxBuckets := []
      hourWindowStartLedger := 0
      dayWindowStartLedger := 0 }
  | some limit => {
      configured := true
      active := limit.active
      maxPerTx := limit.max_per_tx
      maxPerHour := limit.max_per_hour
      maxPerDay := limit.max_per_day
      maxTxsPerHour := limit.max_txs_per_hour
      hourlyBuckets := spends limit.hourly_buckets
      dailyBuckets := spends limit.daily_buckets
      hourlyTxBuckets := txCounts limit.hourly_buckets
      hourWindowStartLedger := oldestStart limit.hourly_buckets
      dayWindowStartLedger := oldestStart limit.daily_buckets }

/-- The prediction for a payment of an agent -/
def predicted (channel : Option Channel) (w : State) (agent : Address) (amount : ℤ) :
    PaymentPrediction :=
  predictPaymentOutcome (channel.map toChannelSpendState)
    (some (toRateLimitSpendState (limitOf w agent))) amount w.sequence

/-- **The prediction agrees with the chain.** -/
structure Agrees (channel : Option Channel) (w : State) (agent : Address) (amount : ℤ) : Prop where
  blocks : (predicted channel w agent amount).wouldBlock = true ↔
    (∃ record, channel = some record ∧ payChecks record w.sequence amount ≠ .ok ()) ∨
      check w agent amount ≠ .ok true
  names : ∀ comparison, Named (predicted channel w agent amount).reasons comparison ↔
    Fails channel (limitOf w agent) w.sequence amount comparison

/-! ## The condition -/

/-- What only the predictor counts does not bring the payment over the cap, nor back under it. -/
structure Undisturbed (cap amount stale : ℤ) (kept : List ℤ) : Prop where
  above : cap < stale + kept.sum + amount → ¬ (Fits kept ∧ kept.sum + amount ≤ cap)
  below : stale + kept.sum + amount ≤ cap → Fits kept ∧ kept.sum + amount ≤ cap

section

variable (limit : RateLimit) (now : ℕ)

/-- The hourly spend that only the predictor counts -/
def hourStale : ℤ :=
  stale SpendBucket.spend HOURLY_BUCKETS RATE_LIMIT_LEDGERS_PER_HOUR now limit.hourly_buckets

def hourKept : List ℤ := kept SpendBucket.spend HOURLY_BUCKETS now limit.hourly_buckets

/-- The daily spend that only the predictor counts -/
def dayStale : ℤ :=
  stale SpendBucket.spend DAILY_BUCKETS RATE_LIMIT_LEDGERS_PER_DAY now limit.daily_buckets

def dayKept : List ℤ := kept SpendBucket.spend DAILY_BUCKETS now limit.daily_buckets

/-- The payments that only the predictor counts -/
def txStale : ℕ :=
  stale SpendBucket.tx_count HOURLY_BUCKETS RATE_LIMIT_LEDGERS_PER_HOUR now limit.hourly_buckets

def txKept : ℕ := (kept SpendBucket.tx_count HOURLY_BUCKETS now limit.hourly_buckets).sum

end

/-- The agent is not killed, its rings can be advanced to `now`, and what only the predictor counts
decides no comparison. -/
structure LimitConcordant (limit : RateLimit) (now : ℕ) (amount : ℤ) : Prop where
  active : limit.active = true
  hour_advances : Advances HOURLY_BUCKETS now limit.hourly_buckets
  day_advances : Advances DAILY_BUCKETS now limit.daily_buckets
  hour : Undisturbed limit.max_per_hour amount (hourStale limit now) (hourKept limit now)
  day : Undisturbed limit.max_per_day amount (dayStale limit now) (dayKept limit now)
  txs : txKept limit now < limit.max_txs_per_hour →
    txStale limit now + txKept limit now < limit.max_txs_per_hour

/-- The end of the period of an active channel is a `u32`, or the payment is over its limit. -/
def ChannelConcordant (channel : Channel) (now : ℕ) (amount : ℤ) : Prop :=
  channel.active = true →
    channel.period_start_ledger + PaymentChannel.ledgersPerPeriod channel.period ≤ U32_MAX ∨
      channel.limit_per_period < effectiveSpent (toChannelSpendState channel) now + amount

/-! ## Agreement -/

/-- The spend check of `pay` in closed form -/
theorem channelSpend_iff {channel : Channel} {now : ℕ} {amount : ℤ} (hpos : 0 < amount)
    (hactive : channel.active = true) (hlimit : channel.limit_per_period ≤ I128_MAX)
    (hspent : I128_MIN ≤ channel.spent_this_period) :
    payChecks channel now amount = .ok () ↔
      channel.period_start_ledger + PaymentChannel.ledgersPerPeriod channel.period ≤ U32_MAX ∧
        effectiveSpent (toChannelSpendState channel) now + amount ≤ channel.limit_per_period := by
  have hperiod : LEDGERS_PER_CHANNEL_PERIOD channel.period =
      PaymentChannel.ledgersPerPeriod channel.period := by
    cases channel.period <;> rfl
  have hmin : I128_MIN ≤ 0 := by decide
  unfold effectiveSpent isWindowExpired toChannelSpendState
  simp only [payChecks, PaymentChannel.rollPeriod, Result.bind_eq_ok, panicIf_eq_ok,
    checkU32_eq_ok, checkI128_eq_ok, hactive, hperiod, decide_eq_true_eq]
  constructor
  · rintro ⟨_, _, rolled, ⟨_, ⟨hfits, rfl⟩, hroll⟩, _, ⟨_, rfl⟩, hle⟩
    refine ⟨hfits, ?_⟩
    split at hroll
    · rename_i hexpired
      cases hroll
      rw [if_pos hexpired]
      exact not_lt.mp hle
    · rename_i hrunning
      cases hroll
      rw [if_neg hrunning]
      exact not_lt.mp hle
  · rintro ⟨hfits, hle⟩
    refine ⟨(), by simp, ?_⟩
    split at hle
    · rename_i hexpired
      refine ⟨_, ⟨_, ⟨hfits, rfl⟩, by rw [if_pos hexpired]; rfl⟩, _, ⟨⟨?_, ?_⟩, rfl⟩, ?_⟩
      · show I128_MIN ≤ 0 + amount
        omega
      · exact hle.trans hlimit
      · exact not_lt.mpr hle
    · rename_i hrunning
      refine ⟨_, ⟨_, ⟨hfits, rfl⟩, by rw [if_neg hrunning]; rfl⟩, _, ⟨⟨?_, ?_⟩, rfl⟩, ?_⟩
      · omega
      · exact hle.trans hlimit
      · exact not_lt.mpr hle

/-- **The channel**: the reasons taken from it name the comparisons of `pay` that fail. -/
theorem channel_named_iff {channel : Channel} {now : ℕ} {amount : ℤ} (hpos : 0 < amount)
    (hlimit : channel.limit_per_period ≤ I128_MAX)
    (hspent : I128_MIN ≤ channel.spent_this_period) :
    (∀ comparison, Named (channelReasons (some (toChannelSpendState channel)) amount now) comparison ↔
      channelComparison channel now amount comparison ≠ .ok true) ↔
        ChannelConcordant channel now amount := by
  by_cases hclosed : channel.active = false
  · have hreasons : channelReasons (some (toChannelSpendState channel)) amount now =
        [.channel_inactive] := if_pos hclosed
    rw [hreasons]
    constructor
    · intro _ hactive
      rw [hclosed] at hactive
      cases hactive
    · intro _ comparison
      cases comparison with
      | channel_active =>
          rw [named_iff rfl]
          simp [channelComparison, hclosed]
      | channel_spend_limit =>
          rw [named_iff rfl]
          simp [channelComparison, hclosed]
      | _ => simp [Named, Comparison.reason, channelComparison]
  · have hactive : channel.active = true := Bool.not_eq_false _ ▸ hclosed
    have hreasons : channelReasons (some (toChannelSpendState channel)) amount now =
        if effectiveSpent (toChannelSpendState channel) now + amount ≤ channel.limit_per_period
          then [] else [.channel_spend_limit] := by
      refine (if_neg hclosed).trans ?_
      unfold isWithinSpendLimit
      simp only [decide_eq_true_eq]
      rfl
    have hspend : channelComparison channel now amount .channel_spend_limit = .ok true ↔
        payChecks channel now amount = .ok () := by
      simp only [channelComparison, if_neg hclosed, Result.map_eq_ok]
      constructor
      · rintro ⟨_, hok, -⟩
        exact hok
      · exact fun hok => ⟨(), hok, trivial⟩
    rw [channelSpend_iff hpos hactive hlimit hspent] at hspend
    unfold ChannelConcordant
    constructor
    · intro h _
      have hnamed := h .channel_spend_limit
      rw [named_iff rfl, hreasons, ne_eq, hspend] at hnamed
      by_cases hle : effectiveSpent (toChannelSpendState channel) now + amount ≤
          channel.limit_per_period
      · rw [if_pos hle] at hnamed
        left
        by_contra hover
        exact List.not_mem_nil (hnamed.mpr (fun hboth => hover hboth.1))
      · exact Or.inr (not_le.mp hle)
    · intro h comparison
      cases comparison with
      | channel_spend_limit =>
          rw [named_iff rfl, hreasons, ne_eq, hspend]
          rcases h hactive with hfits | hover
          · split
            · rename_i hle
              simp [hfits, hle]
            · rename_i hover
              simp [hover]
          · rw [if_neg (not_le.mpr hover)]
            simp [not_le.mpr hover]
      | channel_active =>
          rw [named_iff rfl, hreasons]
          split <;> simp [channelComparison, hactive]
      | _ =>
          rw [hreasons]
          split <;> simp [Named, Comparison.reason, channelComparison]

/-- The reasons that the predictor takes from the limits of an agent -/
theorem rateLimitReasons_eq {limit : RateLimit} (h : Sound limit) (now : ℕ) (amount : ℤ) :
    rateLimitReasons (some (toRateLimitSpendState (some limit))) amount now =
      (if amount > limit.max_per_tx then [.rate_limit_per_tx] else []) ++
      (if hourStale limit now + (hourKept limit now).sum + amount > limit.max_per_hour
        then [.rate_limit_hourly] else []) ++
      (if dayStale limit now + (dayKept limit now).sum + amount > limit.max_per_day
        then [.rate_limit_daily] else []) ++
      (if txStale limit now + txKept limit now ≥ limit.max_txs_per_hour
        then [.rate_limit_tx_count] else []) := by
  have hhour : sumLiveBuckets (spends limit.hourly_buckets) (oldestStart limit.hourly_buckets)
      RATE_LIMIT_LEDGERS_PER_HOUR now = hourStale limit now + (hourKept limit now).sum := by
    unfold sumLiveBuckets
    rw [spends, List.length_map, h.hour.1]
    exact sumLive_ring SpendBucket.spend (by decide) (by decide) (by decide) (by decide) h.hour
  have hday : sumLiveBuckets (spends limit.daily_buckets) (oldestStart limit.daily_buckets)
      RATE_LIMIT_LEDGERS_PER_DAY now = dayStale limit now + (dayKept limit now).sum := by
    unfold sumLiveBuckets
    rw [spends, List.length_map, h.day.1]
    exact sumLive_ring SpendBucket.spend (by decide) (by decide) (by decide) (by decide) h.day
  have htxs : sumLiveTxBuckets (txCounts limit.hourly_buckets) (oldestStart limit.hourly_buckets)
      RATE_LIMIT_LEDGERS_PER_HOUR now = txStale limit now + txKept limit now := by
    unfold sumLiveTxBuckets
    rw [txCounts, List.length_map, h.hour.1]
    exact sumLive_ring SpendBucket.tx_count (by decide) (by decide) (by decide) (by decide) h.hour
  unfold rateLimitReasons toRateLimitSpendState
  dsimp only
  rw [if_neg (by decide), hhour, hday, htxs]

/-- The comparisons of `check` in closed form -/
theorem limitComparison_iff {limit : RateLimit} (h : Sound limit) {now : ℕ} {amount : ℤ}
    (hpos : 0 < amount) (hactive : limit.active = true)
    (hhour : Advances HOURLY_BUCKETS now limit.hourly_buckets)
    (hday : Advances DAILY_BUCKETS now limit.daily_buckets) :
    (limitComparison limit now amount .per_tx = .ok true ↔ amount ≤ limit.max_per_tx) ∧
    (limitComparison limit now amount .hourly = .ok true ↔
      Fits (hourKept limit now) ∧ (hourKept limit now).sum + amount ≤ limit.max_per_hour) ∧
    (limitComparison limit now amount .daily = .ok true ↔
      Fits (dayKept limit now) ∧ (dayKept limit now).sum + amount ≤ limit.max_per_day) ∧
    (limitComparison limit now amount .tx_count = .ok true ↔
      txKept limit now < limit.max_txs_per_hour) := by
  have hopen : ¬ limit.active = false := by simp [hactive]
  have hreset := resetWindowsIfNeeded_eq h now
  rw [if_pos ⟨hhour, hday⟩] at hreset
  have honce := onceReset_ok hopen hreset
  refine ⟨?_, ?_, ?_, ?_⟩
  · simp [limitComparison, honce]
  · rw [limitComparison, honce]
    exact spendComparison_ring h.max_per_hour hpos
  · rw [limitComparison, honce]
    exact spendComparison_ring h.max_per_day hpos
  · rw [limitComparison, honce]
    exact txComparison_ring h.max_txs_per_hour

/-- **The limits**: the reasons taken from them name the comparisons of `check` that fail. -/
theorem limit_named_iff {limit : RateLimit} (h : Sound limit) {now : ℕ} {amount : ℤ}
    (hpos : 0 < amount) :
    (∀ comparison,
      Named (rateLimitReasons (some (toRateLimitSpendState (some limit))) amount now) comparison ↔
        limitComparison limit now amount comparison ≠ .ok true) ↔
      LimitConcordant limit now amount := by
  have hreasons := rateLimitReasons_eq h now amount
  generalize rateLimitReasons (some (toRateLimitSpendState (some limit))) amount now = reasons
    at hreasons ⊢
  have htxMem : Named reasons .per_tx ↔ limit.max_per_tx < amount := by
    rw [named_iff rfl, hreasons]
    simp
  have hhourMem : Named reasons .hourly ↔
      limit.max_per_hour < hourStale limit now + (hourKept limit now).sum + amount := by
    rw [named_iff rfl, hreasons]
    simp
  have hdayMem : Named reasons .daily ↔
      limit.max_per_day < dayStale limit now + (dayKept limit now).sum + amount := by
    rw [named_iff rfl, hreasons]
    simp
  have htxsMem : Named reasons .tx_count ↔
      limit.max_txs_per_hour ≤ txStale limit now + txKept limit now := by
    rw [named_iff rfl, hreasons]
    simp
  constructor
  · intro hnamed
    have hactive : limit.active = true := by
      by_contra hclosed
      refine not_named rfl ((hnamed .limit_active).mpr (fun hok => hclosed ?_))
      exact Except.ok.inj hok
    have hopen : ¬ limit.active = false := by simp [hactive]
    have hadvances : Advances HOURLY_BUCKETS now limit.hourly_buckets ∧
        Advances DAILY_BUCKETS now limit.daily_buckets := by
      by_contra hover
      refine not_named rfl ((hnamed .rings_advance).mpr (fun hok => ?_))
      rw [limitComparison, if_neg hopen, resetWindowsIfNeeded_eq h now, if_neg hover] at hok
      cases hok
    obtain ⟨htx, hhour, hday, htxs⟩ :=
      limitComparison_iff h hpos hactive hadvances.1 hadvances.2
    have hhour' := hnamed .hourly
    have hday' := hnamed .daily
    have htxs' := hnamed .tx_count
    rw [hhourMem, ne_eq, hhour] at hhour'
    rw [hdayMem, ne_eq, hday] at hday'
    rw [htxsMem, ne_eq, htxs] at htxs'
    refine ⟨hactive, hadvances.1, hadvances.2, ⟨hhour'.mp, fun hle => ?_⟩,
      ⟨hday'.mp, fun hle => ?_⟩, fun hlt => ?_⟩
    · exact not_not.mp (fun hnot => absurd (hhour'.mpr hnot) (not_lt.mpr hle))
    · exact not_not.mp (fun hnot => absurd (hday'.mpr hnot) (not_lt.mpr hle))
    · exact not_le.mp (fun hle => htxs'.mp hle hlt)
  · rintro ⟨hactive, hhourly, hdaily, hhourU, hdayU, htxsU⟩ comparison
    obtain ⟨htx, hhour, hday, htxs⟩ := limitComparison_iff h hpos hactive hhourly hdaily
    have hopen : ¬ limit.active = false := by simp [hactive]
    cases comparison with
    | limit_active =>
        have hnot : ¬ Named reasons .limit_active := not_named rfl
        simp [hnot, limitComparison, hactive]
    | rings_advance =>
        have hnot : ¬ Named reasons .rings_advance := not_named rfl
        have hreset := resetWindowsIfNeeded_eq h now
        rw [if_pos ⟨hhourly, hdaily⟩] at hreset
        simp [hnot, limitComparison, hopen, hreset]
    | per_tx => rw [htxMem, ne_eq, htx, not_le]
    | hourly =>
        rw [hhourMem, ne_eq, hhour]
        exact ⟨hhourU.above, fun hnot => not_le.mp (fun hle => hnot (hhourU.below hle))⟩
    | daily =>
        rw [hdayMem, ne_eq, hday]
        exact ⟨hdayU.above, fun hnot => not_le.mp (fun hle => hnot (hdayU.below hle))⟩
    | tx_count =>
        rw [htxsMem, ne_eq, htxs, not_lt]
        refine ⟨fun hle => ?_, fun hle => hle.trans (Nat.le_add_left _ _)⟩
        by_contra hlt
        exact absurd hle (not_le.mpr (htxsU (not_le.mp hlt)))
    | channel_active =>
        rw [named_iff rfl, hreasons]
        simp [limitComparison]
    | channel_spend_limit =>
        rw [named_iff rfl, hreasons]
        simp [limitComparison]

theorem named_append {xs ys : List BlockReason} {comparison : Comparison} :
    Named (xs ++ ys) comparison ↔ Named xs comparison ∨ Named ys comparison := by
  unfold Named
  simp only [List.mem_append, or_and_right, exists_or]

/-- A comparison of `pay` -/
def Comparison.OfChannel (comparison : Comparison) : Prop :=
  comparison = .channel_active ∨ comparison = .channel_spend_limit

theorem mem_channelReasons {channelState : Option ChannelSpendState} {amount : ℤ} {now : ℕ}
    {reason : BlockReason} (h : reason ∈ channelReasons channelState amount now) :
    reason = .channel_inactive ∨ reason = .channel_spend_limit := by
  unfold channelReasons at h
  split at h
  · cases h
  · split at h
    · exact Or.inl (List.mem_singleton.mp h)
    · split at h
      · cases h
      · exact Or.inr (List.mem_singleton.mp h)

theorem mem_rateLimitReasons {rateLimitState : Option RateLimitSpendState} {amount : ℤ} {now : ℕ}
    {reason : BlockReason} (h : reason ∈ rateLimitReasons rateLimitState amount now) :
    reason ≠ .invalid_amount ∧ reason ≠ .channel_inactive ∧ reason ≠ .channel_spend_limit := by
  unfold rateLimitReasons at h
  split at h
  · cases h
  · split at h
    · cases h
    · simp only [List.mem_append, List.mem_ite_nil_right, List.mem_singleton] at h
      rcases h with ((⟨_, rfl⟩ | ⟨_, rfl⟩) | ⟨_, rfl⟩) | ⟨_, rfl⟩ <;> decide

theorem channel_only {channelState : Option ChannelSpendState} {amount : ℤ} {now : ℕ}
    {comparison : Comparison} (h : Named (channelReasons channelState amount now) comparison) :
    comparison.OfChannel := by
  obtain ⟨reason, hmem, hreason⟩ := h
  rcases mem_channelReasons hmem with rfl | rfl
  · cases comparison <;> simp_all [Comparison.reason, Comparison.OfChannel]
  · cases comparison <;> simp_all [Comparison.reason, Comparison.OfChannel]

theorem limit_only {rateLimitState : Option RateLimitSpendState} {amount : ℤ} {now : ℕ}
    {comparison : Comparison} (h : Named (rateLimitReasons rateLimitState amount now) comparison) :
    ¬ comparison.OfChannel := by
  obtain ⟨reason, hmem, hreason⟩ := h
  obtain ⟨_, hinactive, hspend⟩ := mem_rateLimitReasons hmem
  rintro (rfl | rfl)
  · exact hinactive (Option.some.inj hreason).symm
  · exact hspend (Option.some.inj hreason).symm

/-- The reasons for a positive amount -/
theorem reasons_eq {channelState : Option ChannelSpendState}
    {rateLimitState : Option RateLimitSpendState} {amount : ℤ} {now : ℕ} (hpos : 0 < amount) :
    (predictPaymentOutcome channelState rateLimitState amount now).reasons =
      channelReasons channelState amount now ++ rateLimitReasons rateLimitState amount now := by
  unfold predictPaymentOutcome
  dsimp only
  rw [if_neg (not_le.mpr hpos), List.nil_append]

/-- Channel and limits are compared apart. -/
theorem names_split {channel : Option Channel} {limit : Option RateLimit} {now : ℕ} {amount : ℤ}
    (hpos : 0 < amount) :
    (∀ comparison, Named (predictPaymentOutcome (channel.map toChannelSpendState)
        (some (toRateLimitSpendState limit)) amount now).reasons comparison ↔
      Fails channel limit now amount comparison) ↔
    (∀ record, channel = some record → ∀ comparison,
      Named (channelReasons (some (toChannelSpendState record)) amount now) comparison ↔
        channelComparison record now amount comparison ≠ .ok true) ∧
    ∀ record, limit = some record → ∀ comparison,
      Named (rateLimitReasons (some (toRateLimitSpendState (some record))) amount now) comparison ↔
        limitComparison record now amount comparison ≠ .ok true := by
  have hreasons : ∀ comparison, Named (predictPaymentOutcome (channel.map toChannelSpendState)
        (some (toRateLimitSpendState limit)) amount now).reasons comparison ↔
      Named (channelReasons (channel.map toChannelSpendState) amount now) comparison ∨
        Named (rateLimitReasons (some (toRateLimitSpendState limit)) amount now) comparison := by
    intro comparison
    rw [reasons_eq hpos, named_append]
  have hpay : ∀ record comparison, channelComparison record now amount comparison ≠ .ok true →
      comparison.OfChannel := by
    intro record comparison hfails
    cases comparison with
    | channel_active => exact Or.inl rfl
    | channel_spend_limit => exact Or.inr rfl
    | _ => exact absurd rfl hfails
  have hcheck : ∀ record comparison, limitComparison record now amount comparison ≠ .ok true →
      ¬ comparison.OfChannel := by
    rintro record comparison hfails (rfl | rfl)
    · exact hfails rfl
    · exact hfails rfl
  have hnone : ∀ comparison, ¬ Named (channelReasons none amount now) comparison ∧
      ¬ Named (rateLimitReasons (some (toRateLimitSpendState none)) amount now) comparison := by
    intro comparison
    constructor
    · rintro ⟨_, hmem, _⟩
      cases hmem
    · rintro ⟨_, hmem, _⟩
      cases hmem
  constructor
  · intro h
    constructor
    · rintro record rfl comparison
      have hboth := h comparison
      rw [hreasons] at hboth
      constructor
      · intro hnamed
        rcases hboth.mp (.inl hnamed) with ⟨_, hsame, hfails⟩ | ⟨other, _, hfails⟩
        · obtain rfl := Option.some.inj hsame
          exact hfails
        · exact absurd (channel_only hnamed) (hcheck other comparison hfails)
      · intro hfails
        rcases hboth.mpr (.inl ⟨record, rfl, hfails⟩) with hnamed | hnamed
        · exact hnamed
        · exact absurd (hpay record comparison hfails) (limit_only hnamed)
    · rintro record rfl comparison
      have hboth := h comparison
      rw [hreasons] at hboth
      constructor
      · intro hnamed
        rcases hboth.mp (.inr hnamed) with ⟨other, _, hfails⟩ | ⟨_, hsame, hfails⟩
        · exact absurd (hpay other comparison hfails) (limit_only hnamed)
        · obtain rfl := Option.some.inj hsame
          exact hfails
      · intro hfails
        rcases hboth.mpr (.inr ⟨record, rfl, hfails⟩) with hnamed | hnamed
        · exact absurd (channel_only hnamed) (hcheck record comparison hfails)
        · exact hnamed
  · rintro ⟨hchannel, hlimit⟩ comparison
    rw [hreasons]
    refine or_congr ?_ ?_
    · cases channel with
      | none =>
          refine ⟨fun hnamed => absurd hnamed (hnone comparison).1, ?_⟩
          rintro ⟨_, hsome, _⟩
          cases hsome
      | some record =>
          refine (hchannel record rfl comparison).trans ⟨fun hfails => ⟨record, rfl, hfails⟩, ?_⟩
          rintro ⟨_, hsame, hfails⟩
          obtain rfl := Option.some.inj hsame
          exact hfails
    · cases limit with
      | none =>
          refine ⟨fun hnamed => absurd hnamed (hnone comparison).2, ?_⟩
          rintro ⟨_, hsome, _⟩
          cases hsome
      | some record =>
          refine (hlimit record rfl comparison).trans ⟨fun hfails => ⟨record, rfl, hfails⟩, ?_⟩
          rintro ⟨_, hsame, hfails⟩
          obtain rfl := Option.some.inj hsame
          exact hfails

/-- Who names the comparisons that fail foresees whether the payment is blocked. -/
theorem blocks_of_names {channel : Option Channel} {w : State} {agent : Address} {amount : ℤ}
    (hpos : 0 < amount)
    (hnames : ∀ comparison, Named (predicted channel w agent amount).reasons comparison ↔
      Fails channel (limitOf w agent) w.sequence amount comparison) :
    (predicted channel w agent amount).wouldBlock = true ↔
      (∃ record, channel = some record ∧ payChecks record w.sequence amount ≠ .ok ()) ∨
        check w agent amount ≠ .ok true := by
  have hsome : (predicted channel w agent amount).wouldBlock = true ↔
      ∃ comparison, Named (predicted channel w agent amount).reasons comparison := by
    have hlength : (predicted channel w agent amount).wouldBlock = true ↔
        0 < (predicted channel w agent amount).reasons.length := decide_eq_true_iff
    rw [hlength, List.length_pos_iff_exists_mem]
    constructor
    · rintro ⟨reason, hmem⟩
      cases reason with
      | invalid_amount =>
          unfold predicted at hmem
          rw [reasons_eq hpos, List.mem_append] at hmem
          rcases hmem with hchannel | hlimit
          · rcases mem_channelReasons hchannel with hsame | hsame
            · cases hsame
            · cases hsame
          · exact absurd rfl (mem_rateLimitReasons hlimit).1
      | channel_inactive => exact ⟨.channel_active, _, hmem, rfl⟩
      | channel_spend_limit => exact ⟨.channel_spend_limit, _, hmem, rfl⟩
      | rate_limit_per_tx => exact ⟨.per_tx, _, hmem, rfl⟩
      | rate_limit_hourly => exact ⟨.hourly, _, hmem, rfl⟩
      | rate_limit_daily => exact ⟨.daily, _, hmem, rfl⟩
      | rate_limit_tx_count => exact ⟨.tx_count, _, hmem, rfl⟩
    · rintro ⟨comparison, reason, hmem, _⟩
      exact ⟨reason, hmem⟩
  rw [hsome]
  simp only [hnames, Fails, exists_or]
  refine or_congr ?_ ?_
  · constructor
    · rintro ⟨comparison, record, hrecord, hfails⟩
      exact ⟨record, hrecord, fun hok => hfails (payChecks_iff.mp hok comparison)⟩
    · rintro ⟨record, hrecord, hfails⟩
      rw [ne_eq, payChecks_iff] at hfails
      push Not at hfails
      obtain ⟨comparison, hfails⟩ := hfails
      exact ⟨comparison, record, hrecord, hfails⟩
  · constructor
    · rintro ⟨comparison, record, hrecord, hfails⟩
      exact fun hok => hfails ((check_iff hrecord).mp hok comparison)
    · intro hfails
      cases hlimit : limitOf w agent with
      | none =>
          have hfound : (limits w).lookup agent = none := hlimit
          rw [check, hfound] at hfails
          exact absurd rfl hfails
      | some record =>
          rw [ne_eq, check_iff hlimit] at hfails
          push Not at hfails
          obtain ⟨comparison, hfails⟩ := hfails
          exact ⟨comparison, record, rfl, hfails⟩

/-- **The prediction agrees with the chain** exactly if the agent is not killed, its rings can be
advanced, nothing that only the predictor counts decides a comparison, and the period of the channel
does not end beyond the last ledger (unless the payment is over its limit anyway). -/
theorem prediction_agrees {P : Platform} {d : Deployment} {w0 w : State} {tr : List Tx}
    (hgenesis : Genesis w0) (hrun : Runs P d w0 tr w) {channel : Option Channel}
    (hchannel : ∀ record, channel = some record →
      IsI128 record.limit_per_period ∧ IsI128 record.spent_this_period)
    {amount : ℤ} (hpos : 0 < amount) (agent : Address) :
    Agrees channel w agent amount ↔
      (∀ record, channel = some record → ChannelConcordant record w.sequence amount) ∧
        ∀ limit, limitOf w agent = some limit → LimitConcordant limit w.sequence amount := by
  have hnames : (∀ comparison, Named (predicted channel w agent amount).reasons comparison ↔
      Fails channel (limitOf w agent) w.sequence amount comparison) ↔ _ := names_split hpos
  have hagrees : Agrees channel w agent amount ↔
      ∀ comparison, Named (predicted channel w agent amount).reasons comparison ↔
        Fails channel (limitOf w agent) w.sequence amount comparison :=
    ⟨Agrees.names, fun h => ⟨blocks_of_names hpos h, h⟩⟩
  rw [hagrees, hnames]
  refine and_congr ?_ ?_
  · refine forall_congr' (fun record => forall_congr' (fun hrecord => ?_))
    obtain ⟨hlimit, hspent⟩ := hchannel record hrecord
    exact channel_named_iff hpos hlimit.2 hspent.1
  · refine forall_congr' (fun limit => forall_congr' (fun hlimit => ?_))
    exact limit_named_iff (sound_run hgenesis hrun agent limit hlimit) hpos

/-! ## On the local network -/

section

open LocalNet

/-- Account 1 sets limits for the agent with account 2. -/
def limitedScript (script : List Line) : List Line := setsLimits 1 closeCaps :: script

def limitedWorld (script : List Line) : State :=
  rateLimiter.outcome deployment (limitedScript script)

theorem limitedWorld_runs (script : List Line)
    (hlegal : rateLimiter.legal deployment (limitedScript script) = true) :
    ∃ tr, Runs platform deployed deployment tr (limitedWorld script) :=
  ⟨_, Contract.script_runs (limitedScript script) hlegal⟩

/-- An hourly channel of account 2 -/
def sampleChannel : Channel where
  agent := account 2
  owner := account 1
  token := token
  limit_per_period := 100
  period := .Hourly
  spent_this_period := 60
  period_start_ledger := 100
  total_spent := 60
  active := true
  collateral := 1000
  allocated := 0
  voucher_signer := none
  dispute_ledgers := 720

/-- Payments of 60 and, 100 ledgers later, of 40: a prediction for the second one -/
theorem prediction_agrees_close :
    Agrees (some sampleChannel) (limitedWorld [records 60, .wait 100]) (account 2) 40 := by
  obtain ⟨tr, hrun⟩ := limitedWorld_runs [records 60, .wait 100] (by decide +kernel)
  have hvalues : (limitOf (limitedWorld [records 60, .wait 100]) (account 2)).map (fun limit =>
      decide (limit.active = true ∧ Advances HOURLY_BUCKETS 200 limit.hourly_buckets ∧
        Advances DAILY_BUCKETS 200 limit.daily_buckets ∧ limit.max_per_hour = 100 ∧
        limit.max_per_day = 250 ∧ limit.max_txs_per_hour = 2 ∧
        hourStale limit 200 = 0 ∧ (hourKept limit 200).sum = 60 ∧ Fits (hourKept limit 200) ∧
        dayStale limit 200 = 0 ∧ (dayKept limit 200).sum = 60 ∧ Fits (dayKept limit 200) ∧
        txStale limit 200 = 0 ∧ txKept limit 200 = 1)) = some true := by decide +kernel
  have hsequence : (limitedWorld [records 60, .wait 100]).sequence = 200 := by decide +kernel
  refine (prediction_agrees deployment_genesis hrun ?_ (by decide) (account 2)).mpr ⟨?_, ?_⟩
  · rintro record hrecord
    obtain rfl := Option.some.inj hrecord
    decide
  · rintro record hrecord _
    obtain rfl := Option.some.inj hrecord
    exact Or.inl (by decide)
  · intro limit hlimit
    rw [hlimit] at hvalues
    obtain ⟨hactive, hhour, hday, hmaxHour, hmaxDay, hmaxTxs, hhourStale, hhourKept, hhourFits,
      hdayStale, hdayKept, hdayFits, htxStale, htxKept⟩ :=
      of_decide_eq_true (Option.some.inj hvalues)
    rw [hsequence]
    refine ⟨hactive, hhour, hday, ⟨fun _ => ?_, fun _ => ⟨hhourFits, ?_⟩⟩,
      ⟨fun _ => ?_, fun _ => ⟨hdayFits, ?_⟩⟩, fun _ => ?_⟩
    all_goals omega

/-- Two payments of 100, and then none for 2000 ledgers -/
def stalePayment : List Line := [records 100, records 100, .wait 2000]

/-- Account 1 kills the agent. -/
def kills : Line := signed [account 1] (.killAgent (account 1) (account 2))

/-- **Two predictions that fail**: one for a killed agent, and one for an agent whose last payment
left the daily ring long ago. -/
theorem killed_and_stale_not_foreseen :
    (∃ tr, Runs platform deployed deployment tr (limitedWorld [kills]) ∧
      (predicted none (limitedWorld [kills]) (account 2) 40).reasons = [] ∧
      check (limitedWorld [kills]) (account 2) 40 ≠ .ok true ∧
      ¬ Agrees none (limitedWorld [kills]) (account 2) 40) ∧
    ∃ tr, Runs platform deployed deployment tr (limitedWorld stalePayment) ∧
      (predicted none (limitedWorld stalePayment) (account 2) 100).reasons = [.rate_limit_daily] ∧
      check (limitedWorld stalePayment) (account 2) 100 = .ok true ∧
      ¬ Agrees none (limitedWorld stalePayment) (account 2) 100 := by
  obtain ⟨killed, hkilled⟩ := limitedWorld_runs [kills] (by decide +kernel)
  obtain ⟨late, hlate⟩ := limitedWorld_runs stalePayment (by decide +kernel)
  have hnone : (predicted none (limitedWorld [kills]) (account 2) 40).reasons = [] := by
    decide +kernel
  have hrefused : check (limitedWorld [kills]) (account 2) 40 ≠ .ok true := by decide +kernel
  have hdaily : (predicted none (limitedWorld stalePayment) (account 2) 100).reasons =
      [.rate_limit_daily] := by decide +kernel
  have hallowed : check (limitedWorld stalePayment) (account 2) 100 = .ok true := by
    decide +kernel
  refine ⟨⟨killed, hkilled, hnone, hrefused, fun h => ?_⟩,
    ⟨late, hlate, hdaily, hallowed, fun h => ?_⟩⟩
  · have hblocks := h.blocks.mpr (.inr hrefused)
    revert hblocks
    decide +kernel
  · have hblock : (predicted none (limitedWorld stalePayment) (account 2) 100).wouldBlock = true :=
      by decide +kernel
    rcases h.blocks.mp hblock with ⟨_, hsome, _⟩ | hnot
    · cases hsome
    · exact hnot hallowed

end

end StellarAgent.Prediction
