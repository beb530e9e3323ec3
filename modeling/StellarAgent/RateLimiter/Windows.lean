import StellarAgent.RateLimiter.Buckets

set_option autoImplicit false

/-! # What the limits bound

The hourly ring has 6 buckets of 120 ledgers, and the daily ring 24 of 30: neither reaches back
more than 720 ledgers, and by the phase of the ledger up to a bucket less. A payment that has left
a ring while a window of 720 or 17280 ledgers still covers it is not counted by `check` any more.
Where that never happens, and nothing is recorded between a check and the payment it was made for,
the limits hold in every window (`windows_hold`).
-/

namespace StellarAgent.RateLimiter

open Lib Soroban BucketRing

/-- The ledgers of a day, as `max_per_day` has it. -/
def LEDGERS_PER_DAY : Nat := 17280

/-! ## Payments -/

/-- The payments of `agent` in a history. -/
def paymentLog (agent : Address) (tr : List Tx) : DebitLog := tr.flatMap (Tx.payments · agent)

/-- The same payments, each with a one for the count. -/
def tagged (log : DebitLog) : PaymentLog := log.map fun e => (e.1, (e.2, 1))

/-- The same payments, each counting one. -/
def ones (log : DebitLog) : DebitLog := log.map fun e => (e.1, 1)

section

variable {agent : Address} {log : DebitLog}

@[simp] theorem paymentLog_nil (agent : Address) : paymentLog agent [] = [] := rfl

theorem paymentLog_append (agent : Address) (xs ys : List Tx) :
    paymentLog agent (xs ++ ys) = paymentLog agent xs ++ paymentLog agent ys :=
  List.flatMap_append

theorem paymentLog_snoc (agent : Address) (xs : List Tx) (x : Tx) :
    paymentLog agent (xs ++ [x]) = paymentLog agent xs ++ x.payments agent := by
  rw [paymentLog_append, paymentLog, paymentLog, List.flatMap_singleton]

theorem paymentLog_idle {xs : List Tx} (h : ∀ x ∈ xs, x.payments agent = []) :
    paymentLog agent xs = [] := List.flatMap_eq_nil_iff.mpr h

theorem tagged_snoc (log : DebitLog) (now : ℕ) (amount : ℤ) :
    tagged (log ++ [(now, amount)]) = tagged log ++ [(now, (amount, 1))] := List.map_append

theorem ones_snoc (log : DebitLog) (now : ℕ) (amount : ℤ) :
    ones (log ++ [(now, amount)]) = ones log ++ [(now, 1)] := List.map_append

/-- What a ring holds, as amounts and as a number. -/
theorem recent_tagged (s : ℕ) (log : DebitLog) (c m : ℕ) :
    (recent s (tagged log) c m).1 = recent s log c m ∧
      ((recent s (tagged log) c m).2 : ℤ) = recent s (ones log) c m := by
  have hamounts := recent_map (AddMonoidHom.fst ℤ ℕ) s (tagged log) c m
  have hnumber := recent_map ((Nat.castAddMonoidHom ℤ).comp (AddMonoidHom.snd ℤ ℕ)) s
    (tagged log) c m
  rw [tagged, List.map_map] at hamounts hnumber
  constructor
  · have hlog : log.map ((fun e : ℕ × (ℤ × ℕ) => (e.1, AddMonoidHom.fst ℤ ℕ e.2)) ∘
        fun e => (e.1, (e.2, 1))) = log := List.map_id' log
    rw [hlog] at hamounts
    exact hamounts.symm
  · exact hnumber.symm

/-- The number of payments in a window. -/
theorem within_ones (log : DebitLog) (a b : ℕ) :
    DebitLog.within (ones log) a b = (log.countP fun e => a ≤ e.1 ∧ e.1 < b : ℕ) := by
  induction log using List.reverseRecOn with
  | nil => rfl
  | append_singleton log e ih =>
      obtain ⟨now, amount⟩ := e
      rw [ones_snoc, DebitLog.within_snoc, ih, List.countP_append, List.countP_singleton]
      by_cases hin : a ≤ now ∧ now < b
      · simp [hin]
      · simp [hin]

end

/-! ## The record against the log -/

/-- The record of `agent` has the numbers `caps`, and rings that hold the log. -/
def Tracked (agent : Address) (caps : Caps) (log : DebitLog) (w : State) : Prop :=
  ∃ limit, limitOf w agent = some limit ∧ limit.caps = caps ∧
    Holds HOURLY_BUCKETS (tagged log) w.sequence limit.hourly_buckets ∧
    Holds DAILY_BUCKETS (tagged log) w.sequence limit.daily_buckets

/-- The rings leave room for a payment of `amount` at ledger `now`. -/
structure Room (caps : Caps) (log : DebitLog) (now : ℕ) (amount : ℤ) : Prop where
  hour : recent 120 log (now / 120) 6 + amount ≤ caps.max_per_hour
  txs : recent 120 (ones log) (now / 120) 6 + 1 ≤ caps.max_txs_per_hour
  day : recent 30 log (now / 30) 24 + amount ≤ caps.max_per_day

/-- No window of an hour covers two payments of which the later one was made when the hourly ring
had forgotten the earlier one. -/
def HourRemembered (log : DebitLog) : Prop := Remembers 120 6 LEDGERS_PER_HOUR (log.map Prod.fst)

instance : DecidablePred HourRemembered := fun _ => inferInstanceAs (Decidable (Remembers ..))

/-- The same for the windows of a day and the daily ring. -/
def DayRemembered (log : DebitLog) : Prop := Remembers 30 24 LEDGERS_PER_DAY (log.map Prod.fst)

instance : DecidablePred DayRemembered := fun _ => inferInstanceAs (Decidable (Remembers ..))

/-- The windows are within the limits, as far as the rings remember what the windows cover. -/
structure Bounded (caps : Caps) (log : DebitLog) : Prop where
  nonneg : ∀ e ∈ log, 0 ≤ e.2
  hour : HourRemembered log → ∀ a,
    DebitLog.within log a (a + LEDGERS_PER_HOUR) ≤ caps.max_per_hour
  txs : HourRemembered log → ∀ a,
    DebitLog.within (ones log) a (a + LEDGERS_PER_HOUR) ≤ caps.max_txs_per_hour
  day : DayRemembered log → ∀ a,
    DebitLog.within log a (a + LEDGERS_PER_DAY) ≤ caps.max_per_day

section

variable {P : Platform} {d : Deployment} {w w' : State} {a : Action Call} {agent : Address}
  {caps : Caps} {log : DebitLog} {amount : ℤ} {now : ℕ}

theorem resetWindowsIfNeeded_ok {limit limit' : RateLimit}
    (hhour : Holds HOURLY_BUCKETS (tagged log) now limit.hourly_buckets)
    (hday : Holds DAILY_BUCKETS (tagged log) now limit.daily_buckets)
    (h : resetWindowsIfNeeded limit now = .ok limit') :
    limit'.caps = limit.caps ∧
      Advanced HOURLY_BUCKETS (tagged log) now limit'.hourly_buckets ∧
      Advanced DAILY_BUCKETS (tagged log) now limit'.daily_buckets := by
  simp only [resetWindowsIfNeeded, Result.bind_eq_ok, Result.pure_eq_ok] at h
  obtain ⟨_, hhourly, _, hdaily, rfl⟩ := h
  exact ⟨rfl, advanceBuckets_ok (by decide) (by decide) hhour hhourly,
    advanceBuckets_ok (by decide) (by decide) hday hdaily⟩

/-- The sum over an advanced ring. -/
theorem Advanced.sum {count : Nat} {buckets : List SpendBucket}
    (h : Advanced count (tagged log) now buckets) :
    (values buckets).sum.1 = recent (bucketSize count) log (now / bucketSize count) count ∧
      ((values buckets).sum.2 : ℤ)
        = recent (bucketSize count) (ones log) (now / bucketSize count) count := by
  have hsum := h.covers.sum_eq
  rw [values, List.length_map, h.length, ← values] at hsum
  rw [hsum]
  exact recent_tagged _ log _ count

/-- **A check that passes** has found room in the rings. -/
theorem check_ok (h : Tracked agent caps log w) (hcheck : check w agent amount = .ok true) :
    Room caps log w.sequence amount := by
  obtain ⟨limit, hlimit, rfl, hhour, hday⟩ := h
  have hfound : (limits w).lookup agent = some limit := hlimit
  rw [check, hfound] at hcheck
  dsimp only at hcheck
  split at hcheck
  · cases hcheck
  · simp only [Result.bind_eq_ok] at hcheck
    obtain ⟨limit', hreset, hcheck⟩ := hcheck
    obtain ⟨hcaps, hhour', hday'⟩ := resetWindowsIfNeeded_ok hhour hday hreset
    have hmax_hour : limit'.max_per_hour = limit.max_per_hour := congrArg Caps.max_per_hour hcaps
    have hmax_day : limit'.max_per_day = limit.max_per_day := congrArg Caps.max_per_day hcaps
    have hmax_txs : limit'.max_txs_per_hour = limit.max_txs_per_hour :=
      congrArg Caps.max_txs_per_hour hcaps
    split at hcheck
    · cases hcheck
    · simp only [Result.bind_eq_ok, checkI128_eq_ok] at hcheck
      obtain ⟨hourly, hhourly, _, ⟨_, rfl⟩, hcheck⟩ := hcheck
      split at hcheck
      · cases hcheck
      · rename_i hhour_le
        simp only [Result.bind_eq_ok, checkI128_eq_ok] at hcheck
        obtain ⟨daily, hdaily, _, ⟨_, rfl⟩, hcheck⟩ := hcheck
        split at hcheck
        · cases hcheck
        · rename_i hday_le
          simp only [Result.bind_eq_ok, Result.pure_eq_ok, decide_eq_true_eq] at hcheck
          obtain ⟨txs, htxs, hlt⟩ := hcheck
          have hhour_sum : hourly = recent 120 log (w.sequence / 120) 6 :=
            (sumSpend_ok hhourly).trans hhour'.sum.1
          have hday_sum : daily = recent 30 log (w.sequence / 30) 24 :=
            (sumSpend_ok hdaily).trans hday'.sum.1
          have htxs_sum : (txs : ℤ) = recent 120 (ones log) (w.sequence / 120) 6 := by
            rw [sumTxCount_ok htxs]
            exact hhour'.sum.2
          refine ⟨?_, ?_, ?_⟩
          · show _ ≤ limit.max_per_hour
            omega
          · show _ ≤ (limit.max_txs_per_hour : ℤ)
            omega
          · show _ ≤ limit.max_per_day
            omega

/-- A payment that is recorded is added to the rings. -/
theorem withPayment_ok {limit limit' : RateLimit}
    (hhour : Holds HOURLY_BUCKETS (tagged log) now limit.hourly_buckets)
    (hday : Holds DAILY_BUCKETS (tagged log) now limit.daily_buckets)
    (h : withPayment limit now amount = .ok limit') :
    limit'.caps = limit.caps ∧
      Holds HOURLY_BUCKETS (tagged (log ++ [(now, amount)])) now limit'.hourly_buckets ∧
      Holds DAILY_BUCKETS (tagged (log ++ [(now, amount)])) now limit'.daily_buckets := by
  simp only [withPayment, Result.bind_eq_ok, Result.pure_eq_ok] at h
  obtain ⟨limit1, hreset, _, hhourly, _, hdaily, rfl⟩ := h
  obtain ⟨hcaps, hhour', hday'⟩ := resetWindowsIfNeeded_ok hhour hday hreset
  rw [tagged_snoc]
  exact ⟨hcaps, addToCurrentBucket_ok (by decide) (by decide) hhour' hhourly,
    addToCurrentBucket_ok (by decide) (by decide) hday' hdaily⟩

/-- **One step** keeps the record in line with the log, unless the limits are set again. -/
theorem Tracked.step (h : Tracked agent caps log w) (hst : Step P d w a w')
    (hset : ∀ owner caps, ¬ Tx.SetsLimits ⟨w, a, w'⟩ owner agent caps)
    (hupdate : ∀ owner caps, ¬ Tx.UpdatesLimits ⟨w, a, w'⟩ owner agent caps) :
    Tracked agent caps (log ++ Tx.payments ⟨w, a, w'⟩ agent) w' := by
  have hle : w.sequence ≤ w'.sequence := (step_effect hst).1
  obtain ⟨limit, hlimit, hcaps, hhour, hday⟩ := h
  cases step_life hst agent with
  | untouched record unpaid =>
      rw [unpaid, List.append_nil]
      exact ⟨limit, record.trans hlimit, hcaps, hhour.later hle, hday.later hle⟩
  | set sets _ _ => exact absurd sets (hset _ _)
  | updated _ updates _ _ => exact absurd updates (hupdate _ _)
  | @paid amount _ limit' _ before _ added record payment =>
      obtain rfl := Option.some.inj (hlimit.symm.trans before)
      obtain ⟨hcaps', hhour', hday'⟩ := withPayment_ok hhour hday added
      rw [payment]
      exact ⟨limit', record, hcaps'.trans hcaps, hhour'.later hle, hday'.later hle⟩
  | killed before _ _ record unpaid =>
      obtain rfl := Option.some.inj (hlimit.symm.trans before)
      rw [unpaid, List.append_nil]
      exact ⟨_, record, hcaps, hhour.later hle, hday.later hle⟩

/-- What the hourly ring remembers at a payment, and remembered before it. -/
theorem HourRemembered.snoc (h : HourRemembered (log ++ [(now, amount)])) :
    HourRemembered log ∧
      ∀ e ∈ log, now < e.1 + LEDGERS_PER_HOUR → now / 120 < e.1 / 120 + 6 := by
  rw [HourRemembered, List.map_append] at h
  obtain ⟨hbefore, hnear⟩ := Remembers.snoc h
  exact ⟨hbefore, fun e he => hnear e.1 (List.mem_map_of_mem he)⟩

theorem DayRemembered.snoc (h : DayRemembered (log ++ [(now, amount)])) :
    DayRemembered log ∧ ∀ e ∈ log, now < e.1 + LEDGERS_PER_DAY → now / 30 < e.1 / 30 + 24 := by
  rw [DayRemembered, List.map_append] at h
  obtain ⟨hbefore, hnear⟩ := Remembers.snoc h
  exact ⟨hbefore, fun e he => hnear e.1 (List.mem_map_of_mem he)⟩

/-- **A payment with room** keeps the windows within the limits. -/
theorem Bounded.snoc (h : Bounded caps log) (hpos : 0 < amount)
    (hroom : Room caps log now amount) : Bounded caps (log ++ [(now, amount)]) := by
  refine ⟨?_, ?_, ?_, ?_⟩
  · rw [List.forall_mem_append, List.forall_mem_singleton]
    exact ⟨h.nonneg, hpos.le⟩
  · intro hhour
    obtain ⟨hbefore, hnear⟩ := hhour.snoc
    exact window_snoc h.nonneg hroom.hour hnear (h.hour hbefore)
  · intro hhour
    obtain ⟨hbefore, hnear⟩ := hhour.snoc
    rw [ones_snoc]
    refine window_snoc ?_ hroom.txs ?_ (h.txs hbefore)
    · intro e he
      obtain ⟨_, _, rfl⟩ := List.mem_map.mp he
      exact zero_le_one
    · intro e he
      obtain ⟨e', he', rfl⟩ := List.mem_map.mp he
      exact hnear e' he'
  · intro hday
    obtain ⟨hbefore, hnear⟩ := hday.snoc
    exact window_snoc h.nonneg hroom.day hnear (h.day hbefore)

end

/-! ## Over a run -/

/-- Between the payments `xs` and the payment `x`, at the ledger of `x`, `check` has answered true
for the amount, and nothing was recorded for the agent from then on. -/
def Checked (P : Platform) (d : Deployment) (start : State) (agent : Address) (xs : List Tx)
    (x : Tx) (amount : Int) : Prop :=
  ∃ us vs m, xs = us ++ vs ∧ Runs P d start us m ∧ m.sequence = x.pre.sequence ∧
    check m agent amount = .ok true ∧ ∀ y ∈ vs, y.payments agent = []

section

variable {P : Platform} {d : Deployment} {w w0 w' : State} {t : Tx} {tr after : List Tx}
  {owner agent : Address} {caps : Caps}

/-- What `set_limits` leaves. -/
theorem Tx.SetsLimits.tracked (h : t.SetsLimits owner agent caps) :
    Tracked agent caps [] t.post ∧ Bounded caps [] := by
  obtain ⟨hrecord, hsequence, hhour, hday⟩ := h.record
  constructor
  · refine ⟨_, hrecord, rfl, ?_, ?_⟩
    · rw [hsequence]
      exact newBuckets_holds t.pre.sequence HOURLY_BUCKETS
    · rw [hsequence]
      exact newBuckets_holds t.pre.sequence DAILY_BUCKETS
  · refine ⟨by simp, fun _ a => hhour.le, fun _ a => ?_, fun _ a => hday.le⟩
    exact Int.natCast_nonneg _

theorem Tracked.run {log : DebitLog} (h : Tracked agent caps log w) (hrun : Runs P d w tr w')
    (honce : ∀ x ∈ tr, ∀ owner caps,
      ¬ x.SetsLimits owner agent caps ∧ ¬ x.UpdatesLimits owner agent caps) :
    Tracked agent caps (log ++ paymentLog agent tr) w' := by
  refine hrun.history_of (P := fun tr m => Tracked agent caps (log ++ paymentLog agent tr) m)
    honce ?_ ?_
  · rw [paymentLog_nil, List.append_nil]
    exact h
  · intro tr m a m' _ hI hst honce
    rw [paymentLog_snoc, ← List.append_assoc]
    exact hI.step hst (fun owner caps => (honce owner caps).1)
      (fun owner caps => (honce owner caps).2)

/-- **The windows of the rate limiter.** Limits are set once, and every payment is checked at the
ledger at which it is recorded, with nothing recorded between the check and the payment. If the
hourly ring forgets no payment while a window of 720 ledgers still covers it, every such window
holds at most `max_per_hour` in at most `max_txs_per_hour` payments; if the daily ring forgets
none while a window of 17280 ledgers covers it, every such window holds at most `max_per_day`. -/
theorem windows_hold (h : Runs P d w0 (t :: after) w) (hset : t.SetsLimits owner agent caps)
    (honce : ∀ x ∈ after, ∀ owner caps,
      ¬ x.SetsLimits owner agent caps ∧ ¬ x.UpdatesLimits owner agent caps)
    (hchecked : ∀ xs x ys amount, after = xs ++ x :: ys →
      x.payments agent = [(x.pre.sequence, amount)] →
      0 < amount ∧ Checked P d t.post agent xs x amount) :
    (HourRemembered (paymentLog agent after) → ∀ a,
      (paymentLog agent after).within a (a + LEDGERS_PER_HOUR) ≤ caps.max_per_hour ∧
        (paymentLog agent after).countP (fun e => a ≤ e.1 ∧ e.1 < a + LEDGERS_PER_HOUR)
          ≤ caps.max_txs_per_hour) ∧
    (DayRemembered (paymentLog agent after) → ∀ a,
      (paymentLog agent after).within a (a + LEDGERS_PER_DAY) ≤ caps.max_per_day) := by
  obtain ⟨_, _, hafter⟩ := h.cons_inv
  obtain ⟨htracked, hempty⟩ := hset.tracked
  have hall : Bounded caps (paymentLog agent after) := by
    refine hafter.history_at (P := fun tr _ => Bounded caps (paymentLog agent tr)) hempty ?_
    intro tr m act m' rest hsplit hrun hbounded hst
    rw [paymentLog_snoc]
    cases step_life hst agent with
    | @paid amount _ _ _ _ _ _ _ payment =>
        obtain ⟨hpos, us, vs, m1, rfl, hus, hsequence, hcheck, hidle⟩ :=
          hchecked _ _ _ amount hsplit payment
        -- the log has not changed since the check
        have hlog : paymentLog agent (us ++ vs) = paymentLog agent us := by
          rw [paymentLog_append, paymentLog_idle hidle, List.append_nil]
        have htracked' : Tracked agent caps (paymentLog agent us) m1 :=
          htracked.run hus (fun x hx => honce x (by rw [hsplit]; simp [hx]))
        have hroom : Room caps (paymentLog agent (us ++ vs)) m.sequence amount := by
          have hchecked' := check_ok htracked' hcheck
          rw [hsequence] at hchecked'
          rw [hlog]
          exact hchecked'
        rw [payment]
        exact hbounded.snoc hpos hroom
    | untouched _ unpaid | set _ _ unpaid | updated _ _ _ unpaid | killed _ _ _ _ unpaid =>
        rw [unpaid, List.append_nil]
        exact hbounded
  refine ⟨fun hhour a => ⟨hall.hour hhour a, ?_⟩, hall.day⟩
  have htxs := hall.txs hhour a
  rw [within_ones] at htxs
  exact_mod_cast htxs

end

/-! ## Payments just outside a ring -/

instance : DecidablePred fun result : Result Bool => result = .ok true
  | .ok b => decidable_of_iff (b = true) (by simp)
  | .error _ => isFalse (by simp)

/-- The payments that `x` records are positive, and have passed `check` in the world before. -/
def Tx.ChecksFirst (x : Tx) (agent : Address) : Prop :=
  ∀ e ∈ x.payments agent, 0 < e.2 ∧ check x.pre agent e.2 = .ok true

instance (x : Tx) (agent : Address) : Decidable (x.ChecksFirst agent) :=
  inferInstanceAs (Decidable (∀ e ∈ x.payments agent, 0 < e.2 ∧ check x.pre agent e.2 = .ok true))

/-- The runs the limits are for: the transaction `t` sets the limits of the agent, they stay as
they are, and every payment is checked first. -/
structure LimitedOnce (P : Platform) (d : Deployment) (w0 w : State) (t : Tx) (after : List Tx)
    (owner agent : Address) (caps : Caps) : Prop where
  genesis : Genesis w0
  runs : Runs P d w0 (t :: after) w
  sets : t.SetsLimits owner agent caps
  once : ∀ x ∈ after, ∀ owner caps,
    ¬ x.SetsLimits owner agent caps ∧ ¬ x.UpdatesLimits owner agent caps
  checked : ∀ x ∈ after, x.ChecksFirst agent

theorem LimitedOnce.checks {P : Platform} {d : Deployment} {w0 w : State} {t x : Tx}
    {after xs ys : List Tx} {owner agent : Address} {caps : Caps} {amount : Int}
    (h : LimitedOnce P d w0 w t after owner agent caps) (hsplit : after = xs ++ x :: ys)
    (hpayment : x.payments agent = [(x.pre.sequence, amount)]) :
    0 < amount ∧ Checked P d t.post agent xs x amount := by
  subst hsplit
  obtain ⟨_, _, hafter⟩ := h.runs.cons_inv
  obtain ⟨hxs, _, _⟩ := hafter.around
  obtain ⟨hpos, hcheck⟩ := h.checked x (List.mem_append_right _ List.mem_cons_self)
    (x.pre.sequence, amount) (by rw [hpayment]; exact List.mem_cons_self)
  exact ⟨hpos, xs, [], x.pre, (List.append_nil xs).symm, hxs, rfl, hcheck, by simp⟩

section

open LocalNet

/-- At most 100 in one payment per hour, and 250 per day. -/
def tightCaps : Caps where
  max_per_tx := 100
  max_per_hour := 100
  max_per_day := 250
  max_txs_per_hour := 1

/-- Payments at the ledgers 119, 720 and 1440. -/
def straddling : List Line :=
  [.wait 19, records 100, .wait 601, records 100, .wait 720, records 100]

/-- The history of a script after the limits of account 2 have been set. -/
def limitedHistory (caps : Caps) (script : List Line) : List Tx :=
  rateLimiter.historyAfter deployment [setsLimits 1 caps] script

/-- A script on a fresh rate limiter, after a line that sets the limits of account 2. -/
theorem script_limitedOnce {caps : Caps} {script : List Line}
    (hlegal : rateLimiter.legal deployment (setsLimits 1 caps :: script) = true)
    (hset : (exec (callBy [account 1] false) deployment.quiet
      (.setLimits (account 1) (account 2) caps.max_per_tx caps.max_per_hour caps.max_per_day
        caps.max_txs_per_hour)).isOk = true)
    (hafter : ∀ x ∈ limitedHistory caps script,
      limitedAgent x.act ≠ some (account 2) ∧ Tx.ChecksFirst x (account 2)) :
    LimitedOnce platform deployed deployment
      (rateLimiter.outcome deployment (setsLimits 1 caps :: script))
      (rateLimiter.txAfter deployment [] (setsLimits 1 caps)) (limitedHistory caps script)
      (account 1) (account 2) caps where
  genesis := deployment_genesis
  runs := Contract.script_runs_split [] (setsLimits 1 caps) script hlegal
  sets := ⟨_, Contract.txAfter_calls hset⟩
  once := fun x hx => limitedAgent_ne (hafter x hx).1
  checked := fun x hx => (hafter x hx).2

theorem straddling_executed :
    rateLimiter.legal deployment (setsLimits 1 tightCaps :: straddling) = true ∧
      (∀ x ∈ limitedHistory tightCaps straddling,
        limitedAgent x.act ≠ some (account 2) ∧ Tx.ChecksFirst x (account 2)) ∧
      paymentLog (account 2) (limitedHistory tightCaps straddling)
        = [(119, 100), (720, 100), (1440, 100)] := by decide +kernel

/-- From ledger 119 on, two of the payments lie within an hour, and all three within a day. -/
theorem straddling_payments_exceed_limits :
    (¬ ∀ (P : Platform) (d : Deployment) (w0 w : State) (t : Tx) (after : List Tx)
      (owner agent : Address) (caps : Caps), LimitedOnce P d w0 w t after owner agent caps →
      ∀ a, (paymentLog agent after).within a (a + LEDGERS_PER_HOUR) ≤ caps.max_per_hour ∧
        (paymentLog agent after).countP (fun e => a ≤ e.1 ∧ e.1 < a + LEDGERS_PER_HOUR)
          ≤ caps.max_txs_per_hour) ∧
    (¬ ∀ (P : Platform) (d : Deployment) (w0 w : State) (t : Tx) (after : List Tx)
      (owner agent : Address) (caps : Caps), LimitedOnce P d w0 w t after owner agent caps →
      ∀ a, (paymentLog agent after).within a (a + LEDGERS_PER_DAY) ≤ caps.max_per_day) := by
  obtain ⟨hlegal, hafter, hlog⟩ := straddling_executed
  have hlimited := script_limitedOnce hlegal (by decide +kernel) hafter
  constructor
  · intro h
    have hhour := (h _ _ _ _ _ _ _ _ _ hlimited 119).1
    rw [hlog] at hhour
    exact absurd hhour (by decide)
  · intro h
    have hday := h _ _ _ _ _ _ _ _ _ hlimited 119
    rw [hlog] at hday
    exact absurd hday (by decide)

/-- Two payments, the second 100 ledgers after the first. -/
def close : List Line := [records 60, .wait 100, records 40]

def closeCaps : Caps := { tightCaps with max_txs_per_hour := 2 }

theorem close_executed :
    rateLimiter.legal deployment (setsLimits 1 closeCaps :: close) = true ∧
      (∀ x ∈ limitedHistory closeCaps close,
        limitedAgent x.act ≠ some (account 2) ∧ Tx.ChecksFirst x (account 2)) ∧
      paymentLog (account 2) (limitedHistory closeCaps close) = [(100, 60), (200, 40)] := by
  decide +kernel

theorem windows_hold_close :
    (∀ a, (paymentLog (account 2) (limitedHistory closeCaps close)).within a
        (a + LEDGERS_PER_HOUR) ≤ closeCaps.max_per_hour ∧
      (paymentLog (account 2) (limitedHistory closeCaps close)).countP
        (fun e => a ≤ e.1 ∧ e.1 < a + LEDGERS_PER_HOUR) ≤ closeCaps.max_txs_per_hour) ∧
    (∀ a, (paymentLog (account 2) (limitedHistory closeCaps close)).within a
      (a + LEDGERS_PER_DAY) ≤ closeCaps.max_per_day) := by
  obtain ⟨hlegal, hafter, hlog⟩ := close_executed
  have hclose := script_limitedOnce hlegal (by decide +kernel) hafter
  obtain ⟨hhour, hday⟩ := windows_hold hclose.runs hclose.sets hclose.once
    (fun xs x ys amount => hclose.checks)
  refine ⟨hhour ?_, hday ?_⟩
  · rw [hlog]
    decide
  · rw [hlog]
    decide

end

end StellarAgent.RateLimiter
