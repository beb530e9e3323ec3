import StellarAgent.Lib.BucketRing
import StellarAgent.RateLimiter.Effects

set_option autoImplicit false

/-! # The two rings of an agent

A ring of `count` buckets is a `BucketRing` with buckets of `720 / count` ledgers. `set_limits`
starts it anywhere on the ledger line; from the first payment on it lies on the grid (`Holds`).
`Advanced` is a ring as `check` and `record_payment` look at it.
-/

namespace StellarAgent.RateLimiter

open Lib Soroban BucketRing

/-- What a bucket holds: the sum of the payments, and their number. -/
def SpendBucket.value (bucket : SpendBucket) : ℤ × ℕ := (bucket.spend, bucket.tx_count)

def values (buckets : List SpendBucket) : List (ℤ × ℕ) := buckets.map SpendBucket.value

/-- The ledgers that a bucket of a ring of `count` covers. -/
def bucketSize (count : Nat) : Nat := LEDGERS_PER_HOUR / count

section

variable {buckets buckets' : List SpendBucket} {count now : Nat}

/-! ## Sums -/

/-- A checked sum that goes through is the sum. -/
theorem foldlM_checked {M : Type} [AddMonoid M] {checked : M → Result M}
    (hchecked : ∀ x y, checked x = .ok y → y = x) (f : SpendBucket → M) :
    ∀ (bs : List SpendBucket) (start total : M),
      bs.foldlM (fun total bucket => checked (total + f bucket)) start = .ok total →
      total = start + (bs.map f).sum := by
  intro bs
  induction bs with
  | nil =>
      intro start total h
      cases h
      exact (add_zero start).symm
  | cons bucket bs ih =>
      intro start total h
      rw [List.foldlM_cons, Result.bind_eq_ok] at h
      obtain ⟨next, hnext, h⟩ := h
      rw [ih next total h, hchecked _ _ hnext, List.map_cons, List.sum_cons, add_assoc]

theorem sumSpend_ok {total : Int} (h : sumSpend buckets = .ok total) :
    total = (values buckets).sum.1 := by
  have hsum := foldlM_checked (fun x y hxy => (checkI128_eq_ok.mp hxy).2.symm)
    SpendBucket.spend buckets 0 total h
  have hspend : (values buckets).sum.1 = (buckets.map SpendBucket.spend).sum := by
    have hmap := map_list_sum (AddMonoidHom.fst ℤ ℕ) (values buckets)
    rw [values, List.map_map] at hmap
    exact hmap
  rw [hsum, zero_add, hspend]

theorem sumTxCount_ok {total : Nat} (h : sumTxCount buckets = .ok total) :
    total = (values buckets).sum.2 := by
  have hsum := foldlM_checked (fun x y hxy => (checkU32_eq_ok.mp hxy).2.symm)
    SpendBucket.tx_count buckets 0 total h
  have hcount : (values buckets).sum.2 = (buckets.map SpendBucket.tx_count).sum := by
    have hmap := map_list_sum (AddMonoidHom.snd ℤ ℕ) (values buckets)
    rw [values, List.map_map] at hmap
    exact hmap
  rw [hsum, zero_add, hcount]

/-! ## Rotations -/

/-- Where the last bucket starts. -/
def lastStart (buckets : List SpendBucket) : Nat := (buckets.getLast?.map (·.start_ledger)).getD 0

/-- One round of the loop. -/
def rotated (bucket_size : Nat) (buckets : List SpendBucket) : List SpendBucket :=
  buckets.tail ++ [{ start_ledger := lastStart buckets + bucket_size, spend := 0, tx_count := 0 }]

theorem withoutOldest_eq (hlength : buckets.length = count) :
    withoutOldest buckets count = .ok buckets.tail := by
  have hfrom : ∀ m k, k + m = buckets.length →
      (List.range' k m).mapM (fun i => unwrap buckets[i]?) = .ok (buckets.drop k) := by
    intro m
    induction m with
    | zero =>
        intro k hk
        rw [List.drop_eq_nil_of_le (by omega)]
        rfl
    | succ m ih =>
        intro k hk
        have hlt : k < buckets.length := by omega
        rw [List.range'_succ, List.mapM_cons, ih (k + 1) (by omega),
          List.getElem?_eq_getElem hlt, List.drop_eq_getElem_cons hlt]
        rfl
  cases count with
  | zero =>
      rw [List.length_eq_zero_iff.mp hlength]
      rfl
  | succ n =>
      unfold withoutOldest
      rw [hfrom (n + 1 - 1) 1 (by omega), List.drop_one]

theorem getElem?_last (hlength : buckets.length = count) :
    buckets[count - 1]? = buckets.getLast? := by
  rw [List.getLast?_eq_getElem?, hlength]

theorem rotated_length (bucket_size : Nat) (hpos : buckets ≠ []) :
    (rotated bucket_size buckets).length = buckets.length := by
  have hlength : 0 < buckets.length := List.length_pos_iff.mpr hpos
  rw [rotated, List.length_append, List.length_tail, List.length_singleton]
  omega

@[simp] theorem lastStart_rotated (bucket_size : Nat) (buckets : List SpendBucket) :
    lastStart (rotated bucket_size buckets) = lastStart buckets + bucket_size := by
  simp [lastStart, rotated]

theorem exists_last (hcount : 0 < count) (hlength : buckets.length = count) :
    ∃ last, buckets.getLast? = some last ∧ lastStart buckets = last.start_ledger := by
  have hne : buckets ≠ [] := List.ne_nil_of_length_pos (by omega)
  refine ⟨_, List.getLast?_eq_some_getLast hne, ?_⟩
  rw [lastStart, List.getLast?_eq_some_getLast hne]
  rfl

/-- The rotations that move the last bucket up to `current_bucket_start`, or past it. -/
def rotationsTo (bucket_size current_bucket_start : Nat) (buckets : List SpendBucket) : Nat :=
  (current_bucket_start - lastStart buckets + (bucket_size - 1)) / bucket_size

/-- They reach it, and one less does not. -/
theorem rotationsTo_spec {bucket_size : Nat} (hsize : 0 < bucket_size)
    (current_bucket_start : Nat) (buckets : List SpendBucket) :
    current_bucket_start
        ≤ lastStart buckets + rotationsTo bucket_size current_bucket_start buckets * bucket_size ∧
      (rotationsTo bucket_size current_bucket_start buckets = 0 ∨
        lastStart buckets + rotationsTo bucket_size current_bucket_start buckets * bucket_size
          < current_bucket_start + bucket_size) := by
  unfold rotationsTo
  have hmod := Nat.mod_lt (current_bucket_start - lastStart buckets + (bucket_size - 1)) hsize
  have hdiv := Nat.div_add_mod (current_bucket_start - lastStart buckets + (bucket_size - 1))
    bucket_size
  rw [mul_comm] at hdiv
  refine ⟨by omega, ?_⟩
  by_cases hbefore : lastStart buckets < current_bucket_start
  · right
    omega
  · left
    refine Nat.div_eq_of_lt ?_
    omega

/-- **The loop** rotates until the last bucket starts at or after the current one, and no further;
or it overflows on the way. -/
theorem advanceLoop_eq {bucket_size current_bucket_start k fuel : Nat} (hcount : 0 < count)
    (hlength : buckets.length = count)
    (hreached : current_bucket_start ≤ lastStart buckets + k * bucket_size)
    (hminimal : k = 0 ∨ lastStart buckets + k * bucket_size < current_bucket_start + bucket_size)
    (hfuel : k < fuel) :
    advanceLoop bucket_size current_bucket_start count fuel buckets =
      if k = 0 ∨ lastStart buckets + k * bucket_size ≤ U32_MAX
        then .ok ((rotated bucket_size)^[k] buckets) else .error .overflow := by
  induction k generalizing buckets fuel with
  | zero =>
      obtain ⟨fuel, rfl⟩ := Nat.exists_eq_add_of_lt hfuel
      obtain ⟨last, hlast, hstart⟩ := exists_last hcount hlength
      simp only [Nat.zero_add, advanceLoop, getElem?_last hlength, hlast, unwrap, bind,
        Except.bind]
      rw [if_pos (by omega), if_pos (.inl trivial)]
      rfl
  | succ k ih =>
      obtain ⟨fuel, rfl⟩ : ∃ rest, fuel = rest + 1 := ⟨fuel - 1, by omega⟩
      obtain ⟨last, hlast, hstart⟩ := exists_last hcount hlength
      have hne : buckets ≠ [] := List.ne_nil_of_length_pos (by omega)
      have hmul : (k + 1) * bucket_size = k * bucket_size + bucket_size := Nat.succ_mul _ _
      simp only [advanceLoop, getElem?_last hlength, hlast, unwrap, withoutOldest_eq hlength, bind,
        Except.bind]
      rw [if_neg (by omega)]
      by_cases hu32 : last.start_ledger + bucket_size ≤ U32_MAX
      · simp only [checkU32, if_pos hu32]
        have hround : buckets.tail ++ [{
            start_ledger := last.start_ledger + bucket_size, spend := 0, tx_count := 0 }]
            = rotated bucket_size buckets := by
          rw [rotated, hstart]
        have hlength' : (rotated bucket_size buckets).length = count := by
          rw [rotated_length bucket_size hne, hlength]
        rw [hround, ih hlength' (by rw [lastStart_rotated]; omega)
          (by rw [lastStart_rotated]; omega) (by omega), lastStart_rotated, Function.iterate_succ_apply]
        have hfits : (k = 0 ∨ lastStart buckets + bucket_size + k * bucket_size ≤ U32_MAX) ↔
            (k + 1 = 0 ∨ lastStart buckets + (k + 1) * bucket_size ≤ U32_MAX) := by
          rw [hmul]
          constructor
          · rintro (rfl | hle)
            · omega
            · omega
          · omega
        simp only [hfits]
      · simp only [checkU32, if_neg hu32]
        rw [if_neg (by omega)]

/-- The rotations of `advance_buckets`. -/
def rotations (count now : Nat) (buckets : List SpendBucket) : Nat :=
  rotationsTo (bucketSize count) (now / bucketSize count * bucketSize count) buckets

/-- The buckets that `advance_buckets` opens start at ledgers that are `u32`. -/
def Advances (count now : Nat) (buckets : List SpendBucket) : Prop :=
  rotations count now buckets = 0 ∨
    lastStart buckets + rotations count now buckets * bucketSize count ≤ U32_MAX

instance (count now : Nat) (buckets : List SpendBucket) : Decidable (Advances count now buckets) :=
  inferInstanceAs (Decidable (_ ∨ _))

/-- **`advance_buckets`** rotates the ring, or overflows. -/
theorem advanceBuckets_eq (hcount : 0 < count) (hsize : 0 < bucketSize count)
    (hlength : buckets.length = count) :
    advanceBuckets buckets now count = if Advances count now buckets
      then .ok ((rotated (bucketSize count))^[rotations count now buckets] buckets)
      else .error .overflow := by
  have hsize' : ¬ LEDGERS_PER_HOUR / count = 0 := hsize.ne'
  obtain ⟨hreached, hminimal⟩ :=
    rotationsTo_spec hsize (now / bucketSize count * bucketSize count) buckets
  have hfuel : rotations count now buckets < now / bucketSize count * bucketSize count + 1 := by
    unfold rotations
    generalize rotationsTo (bucketSize count) _ buckets = k at hminimal
    cases k with
    | zero => exact Nat.succ_pos _
    | succ k =>
        have hmul : (k + 1) * bucketSize count = k * bucketSize count + bucketSize count :=
          Nat.succ_mul _ _
        have hle : k ≤ k * bucketSize count := Nat.le_mul_of_pos_right _ hsize
        omega
  rw [advanceBuckets, if_neg hsize']
  exact advanceLoop_eq hcount hlength hreached hminimal hfuel

/-! ## The ring against the log -/

/-- The payments of a ring: the ledger of each, its amount, and one for the count. -/
abbrev PaymentLog := List (ℕ × (ℤ × ℕ))

theorem values_rotated (bucket_size : Nat) (buckets : List SpendBucket) :
    values (rotated bucket_size buckets) = (values buckets).tail ++ [0] := by
  rw [values, rotated, List.map_append, List.map_tail]
  rfl

theorem lastStart_rotations (bucket_size : Nat) (buckets : List SpendBucket) (k : Nat) :
    lastStart ((rotated bucket_size)^[k] buckets) = lastStart buckets + k * bucket_size := by
  induction k with
  | zero => rw [Function.iterate_zero, id, Nat.zero_mul, Nat.add_zero]
  | succ k ih =>
      rw [Function.iterate_succ_apply', lastStart_rotated, ih, Nat.succ_mul, add_assoc]

theorem rotations_length (bucket_size : Nat) (hpos : buckets ≠ []) (k : Nat) :
    ((rotated bucket_size)^[k] buckets).length = buckets.length := by
  induction k with
  | zero => rfl
  | succ k ih =>
      have hne : (rotated bucket_size)^[k] buckets ≠ [] := by
        intro hnil
        rw [hnil] at ih
        exact hpos (List.length_eq_zero_iff.mp ih.symm)
      rw [Function.iterate_succ_apply', rotated_length bucket_size hne, ih]

/-- Rotations open empty buckets. -/
theorem rotations_covers {bucket_size c : Nat} {log : PaymentLog} (hpos : buckets ≠ [])
    (hcovers : Covers bucket_size log c (values buckets)) (k : Nat) :
    Covers bucket_size log (c + k) (values ((rotated bucket_size)^[k] buckets)) := by
  induction k with
  | zero => exact hcovers
  | succ k ih =>
      have hlength := rotations_length bucket_size hpos k
      have hvalues : values ((rotated bucket_size)^[k] buckets) ≠ [] := by
        intro hnil
        rw [List.map_eq_nil_iff.mp hnil] at hlength
        exact hpos (List.length_eq_zero_iff.mp hlength.symm)
      rw [Function.iterate_succ_apply', values_rotated]
      exact ih.rotate hvalues

/-- A ring that has not seen a payment yet holds zeros only. -/
theorem rotations_zero (hzero : ∀ bucket ∈ buckets, bucket.value = 0) (bucket_size k : Nat) :
    ∀ bucket ∈ (rotated bucket_size)^[k] buckets, bucket.value = 0 := by
  induction k with
  | zero => exact hzero
  | succ k ih =>
      intro bucket hbucket
      rw [Function.iterate_succ_apply'] at hbucket
      rcases List.mem_append.mp hbucket with hold | hnew
      · exact ih bucket (List.mem_of_mem_tail hold)
      · rw [List.mem_singleton.mp hnew]
        rfl

theorem covers_of_zero (hzero : ∀ bucket ∈ buckets, bucket.value = 0) (bucket_size c : Nat) :
    Covers bucket_size [] c (values buckets) := by
  refine Covers.zeros (fun v hv => ?_)
  obtain ⟨bucket, hbucket, rfl⟩ := List.mem_map.mp hv
  exact hzero bucket hbucket

/-- **The ring between two calls**: new and empty, or on the grid, with the log up to bucket `c`. -/
def Holds (count : Nat) (log : PaymentLog) (now : Nat) (buckets : List SpendBucket) : Prop :=
  buckets.length = count ∧
    (log = [] ∧ (∀ bucket ∈ buckets, bucket.value = 0) ∨
      ∃ c ≤ now / bucketSize count, lastStart buckets = c * bucketSize count ∧
        Covers (bucketSize count) log c (values buckets))

/-- **The ring in a call**: it holds the log up to the bucket of `now`; its last bucket starts
there, or is empty. -/
structure Advanced (count : Nat) (log : PaymentLog) (now : Nat) (buckets : List SpendBucket) :
    Prop where
  length : buckets.length = count
  covers : Covers (bucketSize count) log (now / bucketSize count) (values buckets)
  last : lastStart buckets = now / bucketSize count * bucketSize count ∨
    ∀ bucket ∈ buckets, bucket.value = 0

theorem Holds.later {log : PaymentLog} {now' : Nat} (h : Holds count log now buckets)
    (hle : now ≤ now') : Holds count log now' buckets := by
  obtain ⟨hlength, hempty | ⟨c, hc, hstart, hcovers⟩⟩ := h
  · exact ⟨hlength, .inl hempty⟩
  · exact ⟨hlength, .inr ⟨c, hc.trans (Nat.div_le_div_right hle), hstart, hcovers⟩⟩

theorem newBuckets_holds (now count : Nat) : Holds count [] now (newBuckets now count) := by
  refine ⟨List.length_replicate, .inl ⟨rfl, fun bucket hbucket => ?_⟩⟩
  rw [List.eq_of_mem_replicate hbucket]
  rfl

/-- `advance_buckets` brings a ring up to date. -/
theorem advanceBuckets_ok {log : PaymentLog} (hcount : 0 < count) (hsize : 0 < bucketSize count)
    (h : Holds count log now buckets) (hok : advanceBuckets buckets now count = .ok buckets') :
    Advanced count log now buckets' := by
  obtain ⟨hlength, hring⟩ := h
  have hne : buckets ≠ [] := List.ne_nil_of_length_pos (by omega)
  obtain ⟨hreached, hminimal⟩ :=
    rotationsTo_spec hsize (now / bucketSize count * bucketSize count) buckets
  rw [advanceBuckets_eq hcount hsize hlength] at hok
  by_cases hfits : Advances count now buckets
  swap
  · rw [if_neg hfits] at hok
    cases hok
  rw [if_pos hfits] at hok
  obtain rfl := Except.ok.inj hok
  unfold rotations
  generalize rotationsTo (bucketSize count) _ buckets = k at hreached hminimal ⊢
  rcases hring with ⟨rfl, hzero⟩ | ⟨c, hc, hstart, hcovers⟩
  · have hzeros := rotations_zero hzero (bucketSize count) k
    have hlength' := rotations_length (bucketSize count) hne k
    exact ⟨hlength'.trans hlength, covers_of_zero hzeros _ _, .inr hzeros⟩
  · -- the last bucket moves along the grid, up to the bucket of `now` and no further
    have hck : c + k = now / bucketSize count := by
      rw [hstart, ← Nat.add_mul] at hreached hminimal
      have hle : now / bucketSize count ≤ c + k := Nat.le_of_mul_le_mul_right hreached hsize
      rcases hminimal with rfl | hlt
      · omega
      · rw [← Nat.succ_mul] at hlt
        have hlt' : c + k < (now / bucketSize count).succ := Nat.lt_of_mul_lt_mul_right hlt
        omega
    have hcovers' := rotations_covers hne hcovers k
    rw [hck] at hcovers'
    refine ⟨(rotations_length _ hne k).trans hlength, hcovers', .inl ?_⟩
    rw [lastStart_rotations, hstart, ← Nat.add_mul, hck]

/-- The last bucket as `add_to_current_bucket` goes on with it. -/
def emptiedAt (start : Nat) (last : SpendBucket) : SpendBucket :=
  if last.start_ledger ≠ start then { start_ledger := start, spend := 0, tx_count := 0 } else last

theorem emptiedAt_start (start : Nat) (last : SpendBucket) :
    (emptiedAt start last).start_ledger = start := by
  unfold emptiedAt
  split
  · rfl
  · rename_i hcurrent
    exact not_not.mp hcurrent

/-- It is emptied only where it is empty. -/
theorem Advanced.emptied {log : PaymentLog} {init : List SpendBucket} {last : SpendBucket}
    (h : Advanced count log now (init ++ [last])) :
    (emptiedAt (now / bucketSize count * bucketSize count) last).value = last.value := by
  unfold emptiedAt
  split
  · rename_i hstale
    rcases h.last with hstart | hzero
    · exact absurd (by simpa [lastStart] using hstart) hstale
    · exact (hzero last (by simp)).symm
  · rfl

/-- **`add_to_current_bucket`** writes the last bucket. -/
theorem addToCurrentBucket_eq {init : List SpendBucket} {last : SpendBucket} {amount : Int}
    (hsize : 0 < bucketSize count) (hlength : (init ++ [last]).length = count)
    (hok : addToCurrentBucket (init ++ [last]) now amount 1 = .ok buckets') :
    buckets' = init ++ [{ emptiedAt (now / bucketSize count * bucketSize count) last with
      spend := (emptiedAt (now / bucketSize count * bucketSize count) last).spend + amount
      tx_count := (emptiedAt (now / bucketSize count * bucketSize count) last).tx_count + 1 }] := by
  have hlast : (init ++ [last])[count - 1]? = some last := by
    rw [getElem?_last hlength, List.getLast?_append]
    rfl
  have hinit : init.length = count - 1 := by
    rw [List.length_append, List.length_singleton] at hlength
    omega
  have hsize' : ¬ (count = 0 ∨ LEDGERS_PER_HOUR / count = 0) := by
    rintro (hzero | hzero)
    · rw [List.length_append, List.length_singleton] at hlength
      omega
    · exact hsize.ne' hzero
  rw [addToCurrentBucket, hlength, if_neg hsize', hlast] at hok
  simp only [Result.bind_eq_ok, unwrap_eq_ok, checkI128_eq_ok, checkU32_eq_ok,
    Result.pure_eq_ok] at hok
  obtain ⟨_, hsome, _, ⟨_, rfl⟩, _, ⟨_, rfl⟩, rfl⟩ := hok
  cases hsome
  rw [← hinit, List.set_append_right _ _ le_rfl, Nat.sub_self, List.set_cons_zero]
  rfl

/-- It adds a payment to an advanced ring. -/
theorem addToCurrentBucket_ok {log : PaymentLog} {amount : Int} (hcount : 0 < count)
    (hsize : 0 < bucketSize count) (h : Advanced count log now buckets)
    (hok : addToCurrentBucket buckets now amount 1 = .ok buckets') :
    Holds count (log ++ [(now, (amount, 1))]) now buckets' := by
  have hlength := h.length
  have hne : buckets ≠ [] := List.ne_nil_of_length_pos (by omega)
  obtain ⟨init, last, rfl⟩ : ∃ init last, buckets = init ++ [last] :=
    ⟨_, _, (List.dropLast_append_getLast hne).symm⟩
  obtain rfl := addToCurrentBucket_eq hsize hlength hok
  have hcovers := h.covers
  rw [values, List.map_append, List.map_singleton, ← h.emptied] at hcovers
  refine ⟨by simpa using hlength, .inr ⟨_, le_rfl, ?_, ?_⟩⟩
  · rw [lastStart, List.getLast?_append]
    exact emptiedAt_start _ last
  · rw [values, List.map_append, List.map_singleton]
    exact hcovers.add rfl

end

end StellarAgent.RateLimiter
