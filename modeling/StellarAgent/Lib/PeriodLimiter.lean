import Mathlib.Tactic

set_option autoImplicit false

/-! # A limiter whose period restarts at the first debit after expiry

A period lasts `L` ticks. It does not lie on a grid: the first debit at least `L` ticks after the
start of a period starts the next one, and within a period at most `M` is debited. `Limited` says
what such a limiter knows about the log of debits behind it; it survives every debit
(`Limited.debit`, `Limited.reset`) and bounds what any `L` consecutive ticks can hold by `2 * M`
(`Limited.window`), because such a window meets at most two periods.
-/

namespace StellarAgent.Lib

/-- Debits in the order in which they were made: the time and the amount of each. -/
abbrev DebitLog := List (ℕ × ℤ)

namespace DebitLog

/-- What was debited from time `a` on. -/
def since (log : DebitLog) (a : ℕ) : ℤ := (log.map fun e => if a ≤ e.1 then e.2 else 0).sum

/-- What was debited from time `a` until before time `b`. -/
def within (log : DebitLog) (a b : ℕ) : ℤ :=
  (log.map fun e => if a ≤ e.1 ∧ e.1 < b then e.2 else 0).sum

@[simp] theorem since_nil (a : ℕ) : since [] a = 0 := rfl
@[simp] theorem within_nil (a b : ℕ) : within [] a b = 0 := rfl

theorem since_snoc (log : DebitLog) (now : ℕ) (x : ℤ) (a : ℕ) :
    since (log ++ [(now, x)]) a = since log a + if a ≤ now then x else 0 := by
  simp [since]

theorem within_snoc (log : DebitLog) (now : ℕ) (x : ℤ) (a b : ℕ) :
    within (log ++ [(now, x)]) a b = within log a b + if a ≤ now ∧ now < b then x else 0 := by
  simp [within]

/-- A window holds no more than what was debited since its start. -/
theorem within_le_since (log : DebitLog) (hpos : ∀ e ∈ log, 0 ≤ e.2) (a b : ℕ) :
    within log a b ≤ since log a := by
  refine List.sum_le_sum (fun e he => ?_)
  have := hpos e he
  split_ifs <;> omega

end DebitLog

open DebitLog

/-- The limiter's knowledge: the current period began at `start` and `spent` was debited in it;
`log` are all debits up to time `now`. -/
structure Limited (L : ℕ) (M : ℤ) (log : DebitLog) (start : ℕ) (spent : ℤ) (now : ℕ) : Prop where
  positive : ∀ e ∈ log, 0 ≤ e.2
  spent_nonneg : 0 ≤ spent
  spent_le : spent ≤ M
  started : start ≤ now
  /-- The periods before the current one add at most `M` to what lies less than `L` back. -/
  recent : ∀ a, start < a + L → since log a ≤ M + spent
  /-- After the start of the period nothing but its own debits was made. -/
  own : ∀ a, start < a → since log a ≤ spent
  none_later : ∀ a, now < a → since log a = 0
  /-- No window of `L` ticks holds more than `2 * M`. -/
  window : ∀ a, within log a (a + L) ≤ 2 * M

namespace Limited

variable {L : ℕ} {M : ℤ} {log : DebitLog} {start : ℕ} {spent : ℤ} {now now' : ℕ} {x : ℤ}

theorem init (hM : 0 ≤ M) (now : ℕ) : Limited L M [] now 0 now where
  positive := by simp
  spent_nonneg := le_rfl
  spent_le := hM
  started := le_rfl
  recent := by intro a _; simpa using hM
  own := by simp
  none_later := by simp
  window := by intro a; simpa using hM

theorem later (h : Limited L M log start spent now) (hle : now ≤ now') :
    Limited L M log start spent now' :=
  { h with
    started := h.started.trans hle
    none_later := fun a ha => h.none_later a (hle.trans_lt ha) }

theorem positive_snoc (hpos : ∀ e ∈ log, 0 ≤ e.2) (hx : 0 ≤ x) :
    ∀ e ∈ log ++ [(now, x)], 0 ≤ e.2 := by
  intro e he
  rcases List.mem_append.mp he with he | he
  · exact hpos e he
  · rw [List.mem_singleton.mp he]
    exact hx

/-- A debit makes a window that it falls into as large as what was debited since its start. -/
theorem window_snoc (hpos : ∀ e ∈ log, 0 ≤ e.2) (hx : 0 ≤ x)
    (hwindow : ∀ a, within log a (a + L) ≤ 2 * M)
    (hrecent : ∀ a, now < a + L → since (log ++ [(now, x)]) a ≤ 2 * M) (a : ℕ) :
    within (log ++ [(now, x)]) a (a + L) ≤ 2 * M := by
  by_cases hin : a ≤ now ∧ now < a + L
  · calc within (log ++ [(now, x)]) a (a + L)
        ≤ since (log ++ [(now, x)]) a := within_le_since _ (positive_snoc hpos hx) a (a + L)
      _ ≤ 2 * M := hrecent a hin.2
  · rw [within_snoc, if_neg hin, add_zero]
    exact hwindow a

/-- A debit in the current period. -/
theorem debit (h : Limited L M log start spent now) (hx : 0 ≤ x) (hlimit : spent + x ≤ M) :
    Limited L M (log ++ [(now, x)]) start (spent + x) now := by
  have hspent := h.spent_nonneg
  have hstarted := h.started
  have hrecent : ∀ a, start < a + L → since (log ++ [(now, x)]) a ≤ M + (spent + x) := by
    intro a ha
    have := h.recent a ha
    rw [since_snoc]
    split <;> omega
  refine ⟨positive_snoc h.positive hx, by omega, hlimit, hstarted, hrecent, ?_, ?_, ?_⟩
  · intro a ha
    have := h.own a ha
    rw [since_snoc]
    split <;> omega
  · intro a ha
    rw [since_snoc, h.none_later a ha, if_neg (by omega), add_zero]
  -- `a` lies less than `L` before now, so also less than `L` before the start of the period
  · refine window_snoc h.positive hx h.window (fun a ha => ?_)
    have := hrecent a (by omega)
    omega

/-- A debit after the period has run out starts the next one. -/
theorem reset (h : Limited L M log start spent now) (hexpired : start + L ≤ now) (hx : 0 ≤ x)
    (hlimit : x ≤ M) : Limited L M (log ++ [(now, x)]) now x now := by
  have hspent := h.spent_le
  have hrecent : ∀ a, now < a + L → since (log ++ [(now, x)]) a ≤ M + x := by
    intro a ha
    -- the expired period began at least `L` before now: what lies less than `L` back is all its own
    have := h.own a (by omega)
    rw [since_snoc]
    split <;> omega
  refine ⟨positive_snoc h.positive hx, hx, hlimit, le_rfl, hrecent, ?_, ?_, ?_⟩
  · intro a ha
    rw [since_snoc, h.none_later a ha, if_neg (by omega)]
    omega
  · intro a ha
    rw [since_snoc, h.none_later a ha, if_neg (by omega), add_zero]
  · refine window_snoc h.positive hx h.window (fun a ha => ?_)
    have := hrecent a ha
    omega

end Limited

end StellarAgent.Lib
