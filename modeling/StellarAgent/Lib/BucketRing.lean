import StellarAgent.Lib.PeriodLimiter

set_option autoImplicit false

/-! # Sliding windows over a ring of buckets

Time is cut into buckets of `s` ticks; the bucket of time `t` is `t / s`. A ring of `n` values,
oldest first, stands for the last `n` buckets up to a current one: `Covers s log c ring` says that
its values are the sums of the log over the buckets up to `c`. Rotating the ring moves the current
bucket on by one, and an entry is added to the last value.

A limiter that looks at the ring before every entry bounds a window of `L` ticks if no two entries
less than `L` apart lie `n` or more buckets apart (`window_snoc`); entries that do are the ones
that the ring has forgotten while the window still holds them.
-/

namespace StellarAgent.Lib.BucketRing

section

variable {M : Type*} [AddCommMonoid M] {s c m now : ℕ} {log : List (ℕ × M)} {ring : List M}
  {x v : M}

/-- The sum of the entries that lie in one of the `m` buckets up to `c`, or later. -/
def recent (s : ℕ) (log : List (ℕ × M)) (c m : ℕ) : M :=
  (log.map fun e => if c < e.1 / s + m then e.2 else 0).sum

/-- The ring holds the log: bucket by bucket, from the current bucket `c` backwards. -/
structure Covers (s : ℕ) (log : List (ℕ × M)) (c : ℕ) (ring : List M) : Prop where
  none_later : ∀ e ∈ log, e.1 / s ≤ c
  newest : ∀ m ≤ ring.length, (ring.drop (ring.length - m)).sum = recent s log c m

@[simp] theorem recent_nil (s c m : ℕ) : recent s ([] : List (ℕ × M)) c m = 0 := rfl

theorem recent_snoc (s : ℕ) (log : List (ℕ × M)) (now : ℕ) (x : M) (c m : ℕ) :
    recent s (log ++ [(now, x)]) c m
      = recent s log c m + if c < now / s + m then x else 0 := by
  simp [recent]

/-- Nothing lies after the current bucket. -/
theorem recent_zero (h : ∀ e ∈ log, e.1 / s ≤ c) : recent s log c 0 = 0 := by
  refine List.sum_eq_zero (fun y hy => ?_)
  obtain ⟨e, he, rfl⟩ := List.mem_map.mp hy
  have hle := h e he
  exact if_neg (by omega)

theorem recent_succ (s : ℕ) (log : List (ℕ × M)) (c m : ℕ) :
    recent s log (c + 1) (m + 1) = recent s log c m := by
  simp only [recent, Nat.add_lt_add_iff_right, ← add_assoc]

/-- What a ring knows of the log through a homomorphism. -/
theorem recent_map {N : Type*} [AddCommMonoid N] (f : M →+ N) (s : ℕ) (log : List (ℕ × M))
    (c m : ℕ) : recent s (log.map fun e => (e.1, f e.2)) c m = f (recent s log c m) := by
  rw [recent, recent, map_list_sum, List.map_map, List.map_map]
  congr 1
  refine List.map_congr_left (fun e _ => ?_)
  show (if c < e.1 / s + m then f e.2 else 0) = f (if c < e.1 / s + m then e.2 else 0)
  split
  · rfl
  · exact (map_zero f).symm

namespace Covers

/-- The whole ring. -/
theorem sum_eq (h : Covers s log c ring) : ring.sum = recent s log c ring.length := by
  have hall := h.newest ring.length le_rfl
  rw [Nat.sub_self, List.drop_zero] at hall
  exact hall

/-- A ring of zeros holds the empty log, whatever the current bucket is. -/
theorem zeros (hring : ∀ y ∈ ring, y = 0) : Covers s [] c ring where
  none_later := by simp
  newest := by
    intro m _
    exact List.sum_eq_zero (fun y hy => hring y (List.mem_of_mem_drop hy))

/-- **One rotation** drops the oldest bucket and opens the next. -/
theorem rotate (h : Covers s log c ring) (hring : ring ≠ []) :
    Covers s log (c + 1) (ring.tail ++ [0]) where
  none_later := by
    intro e he
    have hle := h.none_later e he
    omega
  newest := by
    intro m hm
    have hpos : 0 < ring.length := List.length_pos_iff.mpr hring
    have hlen : (ring.tail ++ [(0 : M)]).length = ring.length := by
      rw [List.length_append, List.length_tail, List.length_singleton]
      omega
    rw [hlen] at hm ⊢
    cases m with
    | zero =>
        rw [Nat.sub_zero, ← hlen, List.drop_length, List.sum_nil, recent_zero]
        intro e he
        have hle := h.none_later e he
        omega
    | succ m =>
        -- the newest `m + 1` buckets are the newest `m` of before, and the empty one
        have hsplit : (ring.tail ++ [(0 : M)]).drop (ring.length - (m + 1))
            = ring.drop (ring.length - m) ++ [0] := by
          rw [List.drop_append_of_le_length (by rw [List.length_tail]; omega), List.drop_tail]
          congr 2
          omega
        rw [hsplit, List.sum_append, List.sum_singleton, add_zero, h.newest m (by omega),
          recent_succ]

/-- **An entry** in the current bucket is added to the last value. -/
theorem add (h : Covers s log c (ring ++ [v])) (hnow : now / s = c) :
    Covers s (log ++ [(now, x)]) c (ring ++ [v + x]) where
  none_later := by
    rw [List.forall_mem_append, List.forall_mem_singleton]
    exact ⟨h.none_later, hnow.le⟩
  newest := by
    intro m hm
    have hlen : (ring ++ [v + x]).length = (ring ++ [v]).length := by simp
    rw [hlen] at hm ⊢
    have hbefore := h.newest m hm
    rw [recent_snoc, ← hbefore, hnow]
    cases m with
    | zero =>
        rw [Nat.sub_zero, List.drop_length, ← hlen, List.drop_length]
        simp
    | succ m =>
        have hle : (ring ++ [v]).length - (m + 1) ≤ ring.length := by
          rw [List.length_append, List.length_singleton]
          omega
        rw [List.drop_append_of_le_length hle, List.drop_append_of_le_length hle, List.sum_append,
          List.sum_append, List.sum_singleton, List.sum_singleton, if_pos (by omega), add_assoc]

end Covers

end

/-! ## The window of a limiter -/

section

variable {s n L : ℕ} {B : ℤ} {log : DebitLog}

/-- The ring has not forgotten an entry that a window of `L` ticks up to a later one holds. -/
def Remembers (s n L : ℕ) (times : List ℕ) : Prop :=
  times.Pairwise (fun t t' => t' < t + L → t' / s < t / s + n)

instance (s n L : ℕ) (times : List ℕ) : Decidable (Remembers s n L times) :=
  inferInstanceAs (Decidable (List.Pairwise _ _))

/-- What a window holds at the time of its last entry is what the ring remembers. -/
theorem within_le_recent (hpos : ∀ e ∈ log, 0 ≤ e.2) {a now : ℕ} (hnow : now < a + L)
    (hnear : ∀ e ∈ log, now < e.1 + L → now / s < e.1 / s + n) :
    DebitLog.within log a (a + L) ≤ recent s log (now / s) n := by
  refine List.sum_le_sum (fun e he => ?_)
  have hamount := hpos e he
  have hkept := hnear e he
  split_ifs <;> omega

theorem Remembers.snoc {times : List ℕ} {now : ℕ} (h : Remembers s n L (times ++ [now])) :
    Remembers s n L times ∧ ∀ t ∈ times, now < t + L → now / s < t / s + n := by
  rw [Remembers, List.pairwise_append] at h
  exact ⟨h.1, fun t ht => h.2.2 t ht now (List.mem_singleton_self now)⟩

/-- **The window bound**, kept by an entry for which the ring left room. -/
theorem window_snoc (hpos : ∀ e ∈ log, 0 ≤ e.2) {now : ℕ} {x : ℤ}
    (hroom : recent s log (now / s) n + x ≤ B)
    (hnear : ∀ e ∈ log, now < e.1 + L → now / s < e.1 / s + n)
    (hlog : ∀ a, DebitLog.within log a (a + L) ≤ B) (a : ℕ) :
    DebitLog.within (log ++ [(now, x)]) a (a + L) ≤ B := by
  rw [DebitLog.within_snoc]
  by_cases hin : a ≤ now ∧ now < a + L
  · have hheld := within_le_recent hpos hin.2 hnear
    rw [if_pos hin]
    calc DebitLog.within log a (a + L) + x ≤ recent s log (now / s) n + x := by omega
      _ ≤ B := hroom
  · rw [if_neg hin, add_zero]
    exact hlog a

end

end StellarAgent.Lib.BucketRing
