import StellarAgent.Prediction.Predict
import StellarAgent.RateLimiter.Buckets

set_option autoImplicit false

/-! # What the predictor counts of a ring

The contract rotates a ring up to the current ledger before it adds it up, and so drops its first
`rotations` buckets. The predictor adds up the buckets that are live by its own count, where bucket
`i` starts `i` bucket sizes after the first one. In the rings of the contract no bucket starts later
than that (`Spread`), and so the predictor counts all that is kept, and some of what is dropped
(`sumLive_ring`).
-/

namespace StellarAgent.Prediction

open Lib Soroban RateLimiter

/-! ## The shape of a ring -/

/-- The last bucket starts at most as many bucket sizes after each other one as it comes after it
in the ring. -/
def Spread (size : ℕ) (buckets : List SpendBucket) : Prop :=
  ∀ i bucket, buckets[i]? = some bucket →
    lastStart buckets ≤ bucket.start_ledger + size * (buckets.length - 1 - i)

section

variable {buckets buckets' : List SpendBucket} {count now size : ℕ}

theorem lastStart_snoc (init : List SpendBucket) (last : SpendBucket) :
    lastStart (init ++ [last]) = last.start_ledger := by
  rw [lastStart, List.getLast?_append]
  rfl

theorem newBuckets_spread (now count size : ℕ) : Spread size (newBuckets now count) := by
  intro i bucket hbucket
  have hall : ∀ bucket ∈ newBuckets now count, bucket.start_ledger = now := by
    intro bucket hmem
    rw [List.eq_of_mem_replicate hmem]
  have hlast : lastStart (newBuckets now count) ≤ now := by
    unfold lastStart
    cases hend : (newBuckets now count).getLast? with
    | none => exact Nat.zero_le now
    | some last => exact (hall last (List.mem_of_getLast? hend)).le
  rw [hall bucket (List.mem_of_getElem? hbucket)]
  omega

theorem rotated_spread (h : Spread size buckets) : Spread size (rotated size buckets) := by
  intro i bucket hbucket
  rw [lastStart_rotated]
  unfold rotated at hbucket ⊢
  rw [List.length_append, List.length_singleton, List.length_tail]
  rcases lt_or_ge i buckets.tail.length with hlt | hge
  · rw [List.getElem?_append_left hlt, List.getElem?_tail] at hbucket
    have hbound := h (i + 1) bucket hbucket
    rw [List.length_tail] at hlt
    have hone : buckets.length - 1 + 1 - 1 - i = (buckets.length - 1 - (i + 1)) + 1 := by omega
    rw [hone, Nat.mul_add, Nat.mul_one]
    omega
  · rw [List.getElem?_append_right hge] at hbucket
    obtain rfl := List.mem_singleton.mp (List.mem_of_getElem? hbucket)
    exact Nat.le_add_right _ _

theorem rotations_spread (h : Spread size buckets) (k : ℕ) :
    Spread size ((rotated size)^[k] buckets) := by
  induction k with
  | zero => exact h
  | succ k ih =>
      rw [Function.iterate_succ_apply']
      exact rotated_spread ih

/-- The last bucket may be set back. -/
theorem Spread.set_last {init : List SpendBucket} {last last' : SpendBucket}
    (h : Spread size (init ++ [last])) (hle : last'.start_ledger ≤ last.start_ledger) :
    Spread size (init ++ [last']) := by
  intro i bucket hbucket
  rw [lastStart_snoc]
  rcases lt_or_ge i init.length with hlt | hge
  · rw [List.getElem?_append_left hlt] at hbucket
    have hbound := h i bucket (by rw [List.getElem?_append_left hlt, hbucket])
    rw [lastStart_snoc, List.length_append, List.length_singleton] at hbound
    rw [List.length_append, List.length_singleton]
    omega
  · rw [List.getElem?_append_right hge] at hbucket
    obtain rfl := List.mem_singleton.mp (List.mem_of_getElem? hbucket)
    exact Nat.le_add_right _ _

/-- Number and shape of the buckets of a ring -/
def Shaped (count : ℕ) (buckets : List SpendBucket) : Prop :=
  buckets.length = count ∧ Spread (bucketSize count) buckets

theorem newBuckets_shaped (now count : ℕ) : Shaped count (newBuckets now count) :=
  ⟨List.length_replicate, newBuckets_spread now count _⟩

variable (hcount : 0 < count) (hsize : 0 < bucketSize count)

include hcount hsize

/-- An advanced ring is shaped, and its last bucket does not start before the current one. -/
theorem Shaped.advance (h : Shaped count buckets)
    (hok : advanceBuckets buckets now count = .ok buckets') :
    Shaped count buckets' ∧ now / bucketSize count * bucketSize count ≤ lastStart buckets' := by
  have hne : buckets ≠ [] := List.ne_nil_of_length_pos (by rw [h.1]; exact hcount)
  rw [advanceBuckets_eq hcount hsize h.1] at hok
  by_cases hfits : Advances count now buckets
  · rw [if_pos hfits] at hok
    obtain rfl := Except.ok.inj hok
    refine ⟨⟨(rotations_length _ hne _).trans h.1, rotations_spread h.2 _⟩, ?_⟩
    rw [lastStart_rotations]
    exact (rotationsTo_spec hsize _ buckets).1
  · rw [if_neg hfits] at hok
    cases hok

theorem Shaped.add (h : Shaped count buckets) {amount : ℤ}
    (hlast : now / bucketSize count * bucketSize count ≤ lastStart buckets)
    (hok : addToCurrentBucket buckets now amount 1 = .ok buckets') : Shaped count buckets' := by
  have hne : buckets ≠ [] := List.ne_nil_of_length_pos (by rw [h.1]; exact hcount)
  obtain ⟨init, last, rfl⟩ : ∃ init last, buckets = init ++ [last] :=
    ⟨_, _, (List.dropLast_append_getLast hne).symm⟩
  obtain rfl := addToCurrentBucket_eq hsize h.1 hok
  refine ⟨?_, h.2.set_last ?_⟩
  · rw [← h.1, List.length_append, List.length_append, List.length_singleton,
      List.length_singleton]
  · rw [lastStart_snoc] at hlast
    exact (emptiedAt_start _ last).trans_le hlast

omit hcount hsize

end

/-! ## Sums of the contract -/

/-- Every partial sum is an `i128`. -/
def FitsFrom (total : ℤ) : List ℤ → Prop
  | [] => True
  | x :: xs => IsI128 (total + x) ∧ FitsFrom (total + x) xs

def FitsFrom.dec : (total : ℤ) → (xs : List ℤ) → Decidable (FitsFrom total xs)
  | _, [] => isTrue trivial
  | total, x :: xs =>
      have := FitsFrom.dec (total + x) xs
      inferInstanceAs (Decidable (IsI128 (total + x) ∧ FitsFrom (total + x) xs))

def Fits (xs : List ℤ) : Prop := FitsFrom 0 xs

instance : DecidablePred Fits := FitsFrom.dec 0

theorem FitsFrom.sum {xs : List ℤ} {total : ℤ} (htotal : IsI128 total) (h : FitsFrom total xs) :
    IsI128 (total + xs.sum) := by
  induction xs generalizing total with
  | nil =>
      rw [List.sum_nil, add_zero]
      exact htotal
  | cons x xs ih =>
      rw [List.sum_cons, ← add_assoc]
      exact ih h.1 h.2

theorem fitsFrom_zeros {xs : List ℤ} {total : ℤ} (htotal : IsI128 total) (m : ℕ) :
    FitsFrom total (xs ++ List.replicate m 0) ↔ FitsFrom total xs := by
  induction xs generalizing total with
  | nil =>
      rw [List.nil_append]
      refine ⟨fun _ => trivial, fun _ => ?_⟩
      induction m with
      | zero => trivial
      | succ m ih =>
          rw [List.replicate_succ]
          refine ⟨?_, ?_⟩
          · rw [add_zero]
            exact htotal
          · rw [add_zero]
            exact ih
  | cons x xs ih =>
      show IsI128 (total + x) ∧ FitsFrom (total + x) (xs ++ List.replicate m 0) ↔ _
      constructor
      · rintro ⟨hx, hrest⟩
        exact ⟨hx, (ih hx).mp hrest⟩
      · rintro ⟨hx, hrest⟩
        exact ⟨hx, (ih hx).mpr hrest⟩

theorem zero_isI128 : IsI128 0 := by decide

def spends (buckets : List SpendBucket) : List ℤ := buckets.map SpendBucket.spend

def txCounts (buckets : List SpendBucket) : List ℕ := buckets.map SpendBucket.tx_count

theorem sumSpend_eq_ok {buckets : List SpendBucket} {total : ℤ} :
    sumSpend buckets = .ok total ↔ Fits (spends buckets) ∧ total = (spends buckets).sum := by
  have hfrom : ∀ (buckets : List SpendBucket) (start : ℤ),
      buckets.foldlM (fun total bucket => checkI128 (total + bucket.spend)) start = .ok total ↔
        FitsFrom start (spends buckets) ∧ total = start + (spends buckets).sum := by
    intro buckets
    induction buckets with
    | nil =>
        intro start
        rw [List.foldlM_nil, Result.pure_eq_ok]
        simp [FitsFrom, spends, eq_comm]
    | cons bucket buckets ih =>
        intro start
        rw [List.foldlM_cons, Result.bind_eq_ok]
        simp only [checkI128_eq_ok, ih]
        have hsum : start + (spends (bucket :: buckets)).sum =
            start + bucket.spend + (spends buckets).sum := by
          rw [add_assoc]
          rfl
        rw [hsum]
        constructor
        · rintro ⟨_, ⟨hfits, rfl⟩, hrest, htotal⟩
          exact ⟨⟨hfits, hrest⟩, htotal⟩
        · rintro ⟨⟨hfits, hrest⟩, htotal⟩
          exact ⟨_, ⟨hfits, rfl⟩, hrest, htotal⟩
  rw [sumSpend, hfrom, zero_add]
  rfl

theorem sumTxCount_eq_ok {buckets : List SpendBucket} {total : ℕ} :
    sumTxCount buckets = .ok total ↔
      (txCounts buckets).sum ≤ U32_MAX ∧ total = (txCounts buckets).sum := by
  have hfrom : ∀ (buckets : List SpendBucket) (start : ℕ), start ≤ U32_MAX →
      (buckets.foldlM (fun total bucket => checkU32 (total + bucket.tx_count)) start = .ok total ↔
        start + (txCounts buckets).sum ≤ U32_MAX ∧ total = start + (txCounts buckets).sum) := by
    intro buckets
    induction buckets with
    | nil =>
        intro start hstart
        rw [List.foldlM_nil, Result.pure_eq_ok]
        simp [txCounts, hstart, eq_comm]
    | cons bucket buckets ih =>
        intro start hstart
        rw [List.foldlM_cons, Result.bind_eq_ok]
        simp only [checkU32_eq_ok, txCounts, List.map_cons, List.sum_cons, ← add_assoc]
        constructor
        · rintro ⟨_, ⟨hfits, rfl⟩, hrest⟩
          exact (ih _ hfits).mp hrest
        · rintro ⟨hfits, htotal⟩
          have hnext : start + bucket.tx_count ≤ U32_MAX := by omega
          exact ⟨_, ⟨hnext, rfl⟩, (ih _ hnext).mpr ⟨hfits, htotal⟩⟩
  rw [sumTxCount, hfrom buckets 0 (Nat.zero_le _), zero_add]

/-- What rotations leave of a field of the buckets -/
theorem map_rotations {M : Type} [Zero M] (f : SpendBucket → M)
    (hf : ∀ start, f { start_ledger := start, spend := 0, tx_count := 0 } = 0) (size k : ℕ)
    (buckets : List SpendBucket) : ∃ m,
      ((rotated size)^[k] buckets).map f = (buckets.map f).drop k ++ List.replicate m 0 := by
  induction k with
  | zero => exact ⟨0, by simp⟩
  | succ k ih =>
      obtain ⟨m, hm⟩ := ih
      have hrotated : ((rotated size)^[k + 1] buckets).map f =
          (((rotated size)^[k] buckets).map f).tail ++ [0] := by
        rw [Function.iterate_succ_apply', rotated, List.map_append, List.map_tail,
          List.map_singleton, hf]
      rw [hrotated, hm]
      cases hdrop : (buckets.map f).drop k with
      | nil =>
          have hnil : (buckets.map f).drop (k + 1) = [] := by
            rw [List.drop_eq_nil_iff] at hdrop ⊢
            omega
          rw [hnil, List.nil_append, List.tail_replicate, ← List.replicate_one,
            List.replicate_append_replicate]
          exact ⟨m - 1 + 1, rfl⟩
      | cons x xs =>
          have htail : (buckets.map f).drop (k + 1) = xs := by
            rw [← List.tail_drop, hdrop]
            rfl
          rw [htail, List.cons_append, List.tail_cons, List.append_assoc, ← List.replicate_one,
            List.replicate_append_replicate]
          exact ⟨m + 1, rfl⟩

/-! ## Sums of the predictor -/

section

variable {M : Type} [AddMonoid M] {windowStart window now size : ℕ}

theorem sumLiveFrom_append (xs ys : List M) (i : ℕ) (total : M) :
    sumLiveFrom windowStart window now size i (xs ++ ys) total =
      sumLiveFrom windowStart window now size (i + xs.length) ys
        (sumLiveFrom windowStart window now size i xs total) := by
  induction xs generalizing i total with
  | nil => rfl
  | cons x xs ih =>
      rw [List.cons_append, sumLiveFrom, ih, List.length_cons, sumLiveFrom]
      congr 1
      omega

/-- A live bucket is followed by live ones. -/
theorem sumLiveFrom_live {i : ℕ} (hlive : now < windowStart + i * size + window) (xs : List M)
    (total : M) : sumLiveFrom windowStart window now size i xs total = total + xs.sum := by
  induction xs generalizing i total with
  | nil =>
      rw [List.sum_nil, add_zero]
      rfl
  | cons x xs ih =>
      have hnext : now < windowStart + (i + 1) * size + window := by
        rw [Nat.add_mul]
        omega
      have hopen : isWindowExpired (windowStart + i * size) window now = false := by
        simp only [isWindowExpired, ge_iff_le, decide_eq_false_iff_not, not_le]
        exact hlive
      rw [sumLiveFrom, hopen, if_neg (by decide), ih hnext, List.sum_cons, add_assoc]

end

/-- Where the first bucket starts. -/
def oldestStart (buckets : List SpendBucket) : ℕ := (buckets.head?.map (·.start_ledger)).getD 0

/-- What the predictor counts of the buckets that the contract has dropped by `now`. -/
def stale {M : Type} [AddMonoid M] (f : SpendBucket → M) (count window now : ℕ)
    (buckets : List SpendBucket) : M :=
  sumLiveFrom (oldestStart buckets) window now (window / count) 0
    ((buckets.map f).take (rotations count now buckets)) 0

/-- What the contract keeps. -/
def kept {M : Type} (f : SpendBucket → M) (count now : ℕ) (buckets : List SpendBucket) : List M :=
  (buckets.map f).drop (rotations count now buckets)

/-- **A sum of the predictor** is what the contract keeps, and what is stale. -/
theorem sumLive_ring {M : Type} [AddMonoid M] (f : SpendBucket → M) {count window now : ℕ}
    {buckets : List SpendBucket} (hcount : 0 < count) (hsize : 0 < bucketSize count)
    (hwindow : bucketSize count * count ≤ window) (hgrid : bucketSize count ≤ window / count)
    (h : Shaped count buckets) :
    sumLiveFrom (oldestStart buckets) window now (window / count) 0 (buckets.map f) 0 =
      stale f count window now buckets + (kept f count now buckets).sum := by
  obtain ⟨hlength, hspread⟩ := h
  conv_lhs => rw [← List.take_append_drop (rotations count now buckets) (buckets.map f)]
  rw [sumLiveFrom_append]
  show sumLiveFrom _ window now _ _ (kept f count now buckets) (stale f count window now buckets) = _
  rcases le_or_gt buckets.length (rotations count now buckets) with hall | hlt
  · have hnone : kept f count now buckets = [] := by
      unfold kept
      rw [List.drop_eq_nil_iff, List.length_map]
      exact hall
    rw [hnone, List.sum_nil, add_zero]
    rfl
  · refine sumLiveFrom_live ?_ _ _
    rw [List.length_take, List.length_map, Nat.zero_add, min_eq_left hlt.le]
    -- the last bucket starts close to the first one, and the rotations bring it close to `now`
    have hfirst : lastStart buckets ≤ oldestStart buckets + bucketSize count * (count - 1) := by
      cases hhead : buckets with
      | nil =>
          rw [hhead] at hlength
          exact absurd hlength.symm hcount.ne'
      | cons first rest =>
          have hbound := hspread 0 first (by rw [hhead]; rfl)
          rw [hlength, hhead] at hbound
          exact hbound
    have hreached := (rotationsTo_spec hsize (now / bucketSize count * bucketSize count) buckets).1
    have hnow : now < now / bucketSize count * bucketSize count + bucketSize count := by
      have hmod := Nat.mod_lt now hsize
      have hdiv := Nat.div_add_mod now (bucketSize count)
      rw [mul_comm] at hdiv
      omega
    have hmono : rotations count now buckets * bucketSize count ≤
        rotations count now buckets * (window / count) := Nat.mul_le_mul_left _ hgrid
    have hlast : bucketSize count * (count - 1) + bucketSize count = bucketSize count * count := by
      rw [← Nat.mul_succ]
      congr 1
      omega
    unfold rotations at hmono ⊢
    omega

end StellarAgent.Prediction
