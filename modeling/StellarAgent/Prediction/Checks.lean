import StellarAgent.PaymentChannel.Payments
import StellarAgent.Prediction.Rings
import StellarAgent.RateLimiter.Effects

set_option autoImplicit false

/-! # The checks that can stop a payment

`Comparison` lists them: those of `PaymentChannel::pay` up to the spend limit, and those of
`RateLimiter::check`. On the records of a run (`sound_run`) those of the rings have a closed form:
what is left of a ring after its rotations is added up.
-/

namespace StellarAgent.Prediction

open Lib Soroban RateLimiter
open PaymentChannel (Channel)

/-! ## The checks on the chain -/

/-- The checks of `pay` up to the spend limit, other than that of the caller -/
def payChecks (channel : Channel) (current_ledger : ℕ) (amount : ℤ) : Result Unit := do
  panicIf (channel.active = false) "channel is closed"
  let channel ← PaymentChannel.rollPeriod current_ledger channel
  let spent ← checkI128 (channel.spent_this_period + amount)
  panicIf (spent > channel.limit_per_period) "spend limit exceeded for this period"

/-- **A payment that goes through has passed them.** -/
theorem payChecks_of_pay {env : Env} {w w' : PaymentChannel.State} {agent recipient : Address}
    {channel_id : ℕ} {amount : ℤ} {memo : Bytes}
    (h : PaymentChannel.pay env w agent channel_id recipient amount memo = .ok w') :
    ∃ channel, PaymentChannel.unwrapChannel w channel_id = .ok channel ∧
      payChecks channel w.sequence amount = .ok () := by
  unfold PaymentChannel.pay PaymentChannel.checkSpend at h
  simp only [Result.bind_eq_ok, panicIf_eq_ok] at h
  obtain ⟨_, _, _, _, channel, hchannel, _, hactive, _, _, _, _, rolled, hroll, _,
    ⟨spent, hspent, _, hlimit, _⟩, _⟩ := h
  refine ⟨channel, hchannel, ?_⟩
  simp only [payChecks, Result.bind_eq_ok, panicIf_eq_ok]
  exact ⟨(), hactive, rolled, hroll, spent, hspent, hlimit⟩

inductive Comparison where
  | channel_active
  | channel_spend_limit
  | limit_active
  /-- the rings can be advanced without an overflow -/
  | rings_advance
  | per_tx
  | hourly
  | daily
  | tx_count
  deriving DecidableEq

/-- The reason that names a comparison. -/
def Comparison.reason : Comparison → Option BlockReason
  | .channel_active => some .channel_inactive
  | .channel_spend_limit => some .channel_spend_limit
  | .limit_active => none
  | .rings_advance => none
  | .per_tx => some .rate_limit_per_tx
  | .hourly => some .rate_limit_hourly
  | .daily => some .rate_limit_daily
  | .tx_count => some .rate_limit_tx_count

/-- A comparison of `check` that is only made for an active agent, with advanced rings. -/
def onceReset (limit : RateLimit) (now : ℕ) (compare : RateLimit → Result Bool) : Result Bool :=
  if limit.active = false then .ok true
  else match resetWindowsIfNeeded limit now with
    | .ok limit => compare limit
    | .error _ => .ok true

/-- A sum over a ring against a cap -/
def spendComparison (buckets : List SpendBucket) (cap amount : ℤ) : Result Bool := do
  let total ← sumSpend buckets
  let total ← checkI128 (total + amount)
  return decide (total ≤ cap)

def txComparison (buckets : List SpendBucket) (cap : ℕ) : Result Bool := do
  let txs ← sumTxCount buckets
  return decide (txs < cap)

/-- What a comparison of `check` finds: `true` where it lets the payment pass or is not made -/
def limitComparison (limit : RateLimit) (now : ℕ) (amount : ℤ) : Comparison → Result Bool
  | .limit_active => .ok limit.active
  | .rings_advance =>
      if limit.active = false then .ok true
      else (fun _ => true) <$> resetWindowsIfNeeded limit now
  | .per_tx => onceReset limit now fun limit => .ok (decide (amount ≤ limit.max_per_tx))
  | .hourly => onceReset limit now fun limit =>
      spendComparison limit.hourly_buckets limit.max_per_hour amount
  | .daily => onceReset limit now fun limit =>
      spendComparison limit.daily_buckets limit.max_per_day amount
  | .tx_count => onceReset limit now fun limit =>
      txComparison limit.hourly_buckets limit.max_txs_per_hour
  | .channel_active => .ok true
  | .channel_spend_limit => .ok true

/-- What a comparison of `pay` finds -/
def channelComparison (channel : Channel) (now : ℕ) (amount : ℤ) : Comparison → Result Bool
  | .channel_active => .ok channel.active
  | .channel_spend_limit =>
      if channel.active = false then .ok true
      else (fun _ => true) <$> payChecks channel now amount
  | _ => .ok true

/-- **A comparison fails**: it finds that the payment must not pass, or it overflows. -/
def Fails (channel : Option Channel) (limit : Option RateLimit) (now : ℕ) (amount : ℤ)
    (comparison : Comparison) : Prop :=
  (∃ record, channel = some record ∧ channelComparison record now amount comparison ≠ .ok true) ∨
    ∃ record, limit = some record ∧ limitComparison record now amount comparison ≠ .ok true

/-- `pay` passes its checks if no comparison of it fails. -/
theorem payChecks_iff {channel : Channel} {now : ℕ} {amount : ℤ} :
    payChecks channel now amount = .ok () ↔
      ∀ comparison, channelComparison channel now amount comparison = .ok true := by
  constructor
  · intro h comparison
    have hactive : ¬ channel.active = false := by
      unfold payChecks at h
      simp only [Result.bind_eq_ok, panicIf_eq_ok] at h
      obtain ⟨_, hactive, _⟩ := h
      exact hactive
    cases comparison with
    | channel_active => exact congrArg Except.ok (Bool.not_eq_false _ ▸ hactive)
    | channel_spend_limit =>
        unfold channelComparison
        rw [if_neg hactive, h]
        rfl
    | _ => rfl
  · intro h
    have hactive : channel.active = true := Except.ok.inj (h .channel_active)
    have hspend := h .channel_spend_limit
    have hopen : ¬ channel.active = false := by simp [hactive]
    simp only [channelComparison, if_neg hopen, Result.map_eq_ok] at hspend
    obtain ⟨_, hok, _⟩ := hspend
    exact hok

theorem onceReset_ok {limit reset : RateLimit} {now : ℕ} (hactive : ¬ limit.active = false)
    (hreset : resetWindowsIfNeeded limit now = .ok reset) (compare : RateLimit → Result Bool) :
    onceReset limit now compare = compare reset := by
  unfold onceReset
  rw [if_neg hactive, hreset]

/-- The comparisons of an active agent whose rings can be advanced -/
theorem limitComparisons_iff {limit reset : RateLimit} {now : ℕ} {amount : ℤ}
    (hactive : ¬ limit.active = false) (hreset : resetWindowsIfNeeded limit now = .ok reset) :
    (∀ comparison, limitComparison limit now amount comparison = .ok true) ↔
      amount ≤ reset.max_per_tx ∧
        spendComparison reset.hourly_buckets reset.max_per_hour amount = .ok true ∧
        spendComparison reset.daily_buckets reset.max_per_day amount = .ok true ∧
        txComparison reset.hourly_buckets reset.max_txs_per_hour = .ok true := by
  have honce := onceReset_ok hactive hreset
  constructor
  · intro h
    have htx := h .per_tx
    have hhour := h .hourly
    have hday := h .daily
    have htxs := h .tx_count
    simp only [limitComparison, honce] at htx hhour hday htxs
    exact ⟨of_decide_eq_true (Except.ok.inj htx), hhour, hday, htxs⟩
  · rintro ⟨htx, hhour, hday, htxs⟩ comparison
    cases comparison with
    | limit_active => exact congrArg Except.ok (Bool.not_eq_false _ ▸ hactive)
    | rings_advance =>
        simp only [limitComparison, if_neg hactive, hreset]
        rfl
    | per_tx => exact (honce _).trans (congrArg Except.ok (decide_eq_true htx))
    | hourly => exact (honce _).trans hhour
    | daily => exact (honce _).trans hday
    | tx_count => exact (honce _).trans htxs
    | channel_active => rfl
    | channel_spend_limit => rfl

/-- **`check` answers true if no comparison of it fails.** -/
theorem check_iff {w : State} {agent : Address} {limit : RateLimit} {amount : ℤ}
    (hlimit : limitOf w agent = some limit) :
    check w agent amount = .ok true ↔
      ∀ comparison, limitComparison limit w.sequence amount comparison = .ok true := by
  have hfound : (limits w).lookup agent = some limit := hlimit
  rw [check, hfound]
  dsimp only
  by_cases hactive : limit.active = false
  · rw [if_pos hactive]
    refine ⟨fun h => (nomatch h), fun h => ?_⟩
    have hopen : limit.active = true := Except.ok.inj (h .limit_active)
    rw [hactive] at hopen
    cases hopen
  rw [if_neg hactive]
  cases hreset : resetWindowsIfNeeded limit w.sequence with
  | error panic =>
      refine ⟨fun h => (nomatch h), fun h => ?_⟩
      have hadvance := h .rings_advance
      unfold limitComparison at hadvance
      rw [if_neg hactive, hreset] at hadvance
      cases hadvance
  | ok reset =>
      show (if amount > reset.max_per_tx then pure false else do
        let hourly ← sumSpend reset.hourly_buckets
        let hourly ← checkI128 (hourly + amount)
        if hourly > reset.max_per_hour then pure false else do
          let daily ← sumSpend reset.daily_buckets
          let daily ← checkI128 (daily + amount)
          if daily > reset.max_per_day then pure false else do
            let txs ← sumTxCount reset.hourly_buckets
            pure (decide (txs < reset.max_txs_per_hour))) = .ok true ↔ _
      rw [limitComparisons_iff hactive hreset]
      by_cases htx : amount > reset.max_per_tx
      · rw [if_pos htx]
        exact ⟨fun h => (nomatch h), fun h => absurd h.1 (not_le.mpr htx)⟩
      rw [if_neg htx]
      simp only [spendComparison, txComparison, Result.bind_eq_ok, Result.pure_eq_ok,
        decide_eq_true_eq]
      constructor
      · rintro ⟨hourly, hhourly, hour, hhour, h⟩
        split at h
        · cases h
        · rename_i hhour_le
          simp only [Result.bind_eq_ok] at h
          obtain ⟨daily, hdaily, day, hday, h⟩ := h
          split at h
          · cases h
          · rename_i hday_le
            simp only [Result.bind_eq_ok, Result.pure_eq_ok, decide_eq_true_eq] at h
            exact ⟨not_lt.mp htx, ⟨hourly, hhourly, hour, hhour, not_lt.mp hhour_le⟩,
              ⟨daily, hdaily, day, hday, not_lt.mp hday_le⟩, h⟩
      · rintro ⟨_, ⟨hourly, hhourly, hour, hhour, hhour_le⟩,
          ⟨daily, hdaily, day, hday, hday_le⟩, h⟩
        refine ⟨hourly, hhourly, hour, hhour, ?_⟩
        rw [if_neg (not_lt.mpr hhour_le)]
        simp only [Result.bind_eq_ok]
        refine ⟨daily, hdaily, day, hday, ?_⟩
        rw [if_neg (not_lt.mpr hday_le)]
        simp only [Result.bind_eq_ok, Result.pure_eq_ok, decide_eq_true_eq]
        exact h

/-! ## The records of a run -/

/-- What is known of the limits that a rate limiter stores. -/
structure Sound (limit : RateLimit) : Prop where
  hour : Shaped HOURLY_BUCKETS limit.hourly_buckets
  day : Shaped DAILY_BUCKETS limit.daily_buckets
  max_per_hour : limit.max_per_hour ≤ I128_MAX
  max_per_day : limit.max_per_day ≤ I128_MAX
  max_txs_per_hour : limit.max_txs_per_hour ≤ U32_MAX

theorem Sound.withPayment {limit limit' : RateLimit} {now : ℕ} {amount : ℤ} (h : Sound limit)
    (hok : withPayment limit now amount = .ok limit') : Sound limit' := by
  simp only [RateLimiter.withPayment, resetWindowsIfNeeded, Result.bind_eq_ok,
    Result.pure_eq_ok] at hok
  obtain ⟨_, ⟨_, hhourly, _, hdaily, rfl⟩, _, hhourly', _, hdaily', rfl⟩ := hok
  obtain ⟨hhour, hhour_last⟩ := h.hour.advance (by decide) (by decide) hhourly
  obtain ⟨hday, hday_last⟩ := h.day.advance (by decide) (by decide) hdaily
  exact ⟨hhour.add (by decide) (by decide) hhour_last hhourly',
    hday.add (by decide) (by decide) hday_last hdaily', h.max_per_hour, h.max_per_day,
    h.max_txs_per_hour⟩

theorem sound_step {P : Platform} {d : Deployment} {w w' : State} {a : Action Call}
    (h : ∀ agent limit, limitOf w agent = some limit → Sound limit) (hst : Step P d w a w')
    (agent : Address) (limit : RateLimit) (hlimit : limitOf w' agent = some limit) :
    Sound limit := by
  have htyped : ∀ env call, rateLimiter.Calls ⟨w, a, w'⟩ env call → call.WellTyped := by
    rintro env call ⟨hact, _⟩
    have hallowed := hst.1
    dsimp only at hact
    subst hact
    exact hallowed.2.2
  cases step_life hst agent with
  | untouched record _ => exact h agent limit (record.symm.trans hlimit)
  | @set owner caps sets record _ =>
      obtain ⟨env, hcalls⟩ := sets
      obtain ⟨_, hhour, hday, htxs⟩ := htyped env _ hcalls
      obtain rfl := Option.some.inj (record.symm.trans hlimit)
      exact ⟨newBuckets_shaped _ _, newBuckets_shaped _ _, hhour.2, hday.2, htxs⟩
  | @updated caps before _ updates record _ =>
      obtain ⟨env, hcalls⟩ := updates
      obtain ⟨_, hhour, hday, htxs⟩ := htyped env _ hcalls
      obtain rfl := Option.some.inj (record.symm.trans hlimit)
      exact ⟨newBuckets_shaped _ _, newBuckets_shaped _ _, hhour.2, hday.2, htxs⟩
  | paid _ before _ added record _ =>
      obtain rfl := Option.some.inj (record.symm.trans hlimit)
      exact (h agent _ before).withPayment added
  | killed before _ _ record _ =>
      obtain rfl := Option.some.inj (record.symm.trans hlimit)
      have hsound := h agent _ before
      exact ⟨hsound.hour, hsound.day, hsound.max_per_hour, hsound.max_per_day,
        hsound.max_txs_per_hour⟩

theorem sound_run {P : Platform} {d : Deployment} {w0 w : State} {tr : List Tx}
    (hgenesis : Genesis w0) (hrun : Runs P d w0 tr w) (agent : Address) (limit : RateLimit)
    (hlimit : limitOf w agent = some limit) : Sound limit := by
  have hall := hrun.invariant (I := fun w => ∀ agent limit, limitOf w agent = some limit →
    Sound limit) ?_ (fun w a w' h hst => sound_step h hst)
  · exact hall agent limit hlimit
  · intro agent limit hnone
    unfold limitOf limits at hnone
    rw [hgenesis] at hnone
    cases hnone

/-! ## The comparisons in closed form -/

/-- `reset_windows_if_needed` rotates both rings, or overflows. -/
theorem resetWindowsIfNeeded_eq {limit : RateLimit} (h : Sound limit) (now : ℕ) :
    resetWindowsIfNeeded limit now =
      if Advances HOURLY_BUCKETS now limit.hourly_buckets ∧
          Advances DAILY_BUCKETS now limit.daily_buckets then
        .ok { limit with
          hourly_buckets := (rotated (bucketSize HOURLY_BUCKETS))^[rotations HOURLY_BUCKETS now
            limit.hourly_buckets] limit.hourly_buckets
          daily_buckets := (rotated (bucketSize DAILY_BUCKETS))^[rotations DAILY_BUCKETS now
            limit.daily_buckets] limit.daily_buckets }
      else .error .overflow := by
  unfold resetWindowsIfNeeded
  rw [advanceBuckets_eq (by decide) (by decide) h.hour.1,
    advanceBuckets_eq (by decide) (by decide) h.day.1]
  by_cases hhour : Advances HOURLY_BUCKETS now limit.hourly_buckets
  · by_cases hday : Advances DAILY_BUCKETS now limit.daily_buckets
    · rw [if_pos hhour, if_pos hday, if_pos ⟨hhour, hday⟩]
      rfl
    · rw [if_pos hhour, if_neg hday, if_neg (fun hboth => hday hboth.2)]
      rfl
  · have hnot : ¬ (Advances HOURLY_BUCKETS now limit.hourly_buckets ∧
        Advances DAILY_BUCKETS now limit.daily_buckets) := fun hboth => hhour hboth.1
    rw [if_neg hhour, if_neg hnot]
    rfl

/-- The sum over a ring that has been rotated up to `now` -/
theorem spendComparison_ring {buckets : List SpendBucket} {count now : ℕ} {cap amount : ℤ}
    (hcap : cap ≤ I128_MAX) (hpos : 0 < amount) :
    spendComparison ((rotated (bucketSize count))^[rotations count now buckets] buckets) cap amount
        = .ok true ↔
      Fits (kept SpendBucket.spend count now buckets) ∧
        (kept SpendBucket.spend count now buckets).sum + amount ≤ cap := by
  obtain ⟨m, hm⟩ := map_rotations SpendBucket.spend (fun _ => rfl) (bucketSize count)
    (rotations count now buckets) buckets
  have hfits : Fits (spends ((rotated (bucketSize count))^[rotations count now buckets] buckets)) ↔
      Fits (kept SpendBucket.spend count now buckets) := by
    rw [spends, hm]
    exact fitsFrom_zeros zero_isI128 m
  have hsum : (spends ((rotated (bucketSize count))^[rotations count now buckets] buckets)).sum =
      (kept SpendBucket.spend count now buckets).sum := by
    rw [spends, hm, List.sum_append, List.sum_replicate, smul_zero, add_zero]
    rfl
  simp only [spendComparison, Result.bind_eq_ok, Result.pure_eq_ok, decide_eq_true_eq,
    sumSpend_eq_ok, checkI128_eq_ok, hfits, hsum]
  constructor
  · rintro ⟨_, ⟨hfits, rfl⟩, _, ⟨_, rfl⟩, hle⟩
    exact ⟨hfits, hle⟩
  · rintro ⟨hfits, hle⟩
    have hrange := hfits.sum zero_isI128
    rw [zero_add] at hrange
    exact ⟨_, ⟨hfits, rfl⟩, _, ⟨⟨by have := hrange.1; omega, hle.trans hcap⟩, rfl⟩, hle⟩

theorem txComparison_ring {buckets : List SpendBucket} {count now cap : ℕ} (hcap : cap ≤ U32_MAX) :
    txComparison ((rotated (bucketSize count))^[rotations count now buckets] buckets) cap
        = .ok true ↔ (kept SpendBucket.tx_count count now buckets).sum < cap := by
  obtain ⟨m, hm⟩ := map_rotations SpendBucket.tx_count (fun _ => rfl) (bucketSize count)
    (rotations count now buckets) buckets
  have hsum : (txCounts ((rotated (bucketSize count))^[rotations count now buckets] buckets)).sum =
      (kept SpendBucket.tx_count count now buckets).sum := by
    rw [txCounts, hm, List.sum_append, List.sum_replicate, smul_zero, add_zero]
    rfl
  simp only [txComparison, Result.bind_eq_ok, Result.pure_eq_ok, decide_eq_true_eq,
    sumTxCount_eq_ok, hsum]
  constructor
  · rintro ⟨_, ⟨_, rfl⟩, hlt⟩
    exact hlt
  · intro hlt
    exact ⟨_, ⟨by omega, rfl⟩, hlt⟩

end StellarAgent.Prediction
