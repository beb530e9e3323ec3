import Mathlib.Tactic

set_option autoImplicit false

/-! # Rounding toward zero

`towardZero q` is the integer part of a rational, its fraction cut off: on a quotient of integers
it is the truncating division of programming languages (`towardZero_div`). `truncated places q`
keeps `places` decimal places of `q` in the same way.
-/

namespace StellarAgent.Lib

/-- The integer part of `q`, its fraction cut off. -/
def towardZero (q : ℚ) : ℤ := if 0 ≤ q then ⌊q⌋ else ⌈q⌉

@[simp] theorem towardZero_intCast (n : ℤ) : towardZero n = n := by
  simp [towardZero]

@[simp] theorem towardZero_zero : towardZero 0 = 0 := by
  simp [towardZero]

/-- Cutting off the fraction does not see the sign. -/
theorem towardZero_neg (q : ℚ) : towardZero (-q) = -towardZero q := by
  rcases lt_trichotomy q 0 with hq | rfl | hq
  · rw [towardZero, towardZero, if_pos (by linarith), if_neg (by linarith), Int.floor_neg]
  · simp
  · rw [towardZero, towardZero, if_neg (by linarith), if_pos (by linarith), Int.ceil_neg]

theorem towardZero_nonpos {q : ℚ} (hq : q ≤ 0) : towardZero q ≤ 0 := by
  rcases hq.eq_or_lt with rfl | hneg
  · rw [towardZero_zero]
  · rw [towardZero, if_neg (not_le.mpr hneg)]
    exact Int.ceil_nonpos.mpr hq

theorem towardZero_nonneg {q : ℚ} (hq : 0 ≤ q) : 0 ≤ towardZero q := by
  rw [towardZero, if_pos hq]
  exact Int.floor_nonneg.mpr hq

/-- On a quotient of integers it is the truncating division. -/
theorem towardZero_div (n d : ℤ) : towardZero ((n : ℚ) / d) = n.tdiv d := by
  have hnonneg : ∀ m e : ℕ, towardZero ((m : ℚ) / e) = (m : ℤ).tdiv e := by
    intro m e
    rw [towardZero, if_pos (by positivity), Rat.floor_natCast_div_natCast]
    exact (Int.tdiv_eq_ediv_of_nonneg (by positivity)).symm
  obtain ⟨m, rfl | rfl⟩ := n.eq_nat_or_neg
  all_goals obtain ⟨e, rfl | rfl⟩ := d.eq_nat_or_neg
  · simpa using hnonneg m e
  · have := hnonneg m e
    push_cast
    rw [div_neg, towardZero_neg, this, Int.tdiv_neg]
  · have := hnonneg m e
    push_cast
    rw [neg_div, towardZero_neg, this, Int.neg_tdiv]
  · have := hnonneg m e
    push_cast
    rw [neg_div_neg_eq, this, Int.neg_tdiv_neg]

/-- `q` with `places` decimal places kept and the others cut off. -/
def truncated (places : ℕ) (q : ℚ) : ℚ := towardZero (q * 10 ^ places) / 10 ^ places

@[simp] theorem truncated_truncated (places : ℕ) (q : ℚ) :
    truncated places (truncated places q) = truncated places q := by
  have hpow : (10 : ℚ) ^ places ≠ 0 := by positivity
  rw [truncated, truncated, div_mul_cancel₀ _ hpow, towardZero_intCast]

/-! ## Order -/

theorem towardZero_mono : Monotone towardZero := by
  intro p q h
  by_cases hp : 0 ≤ p
  · rw [towardZero, towardZero, if_pos hp, if_pos (hp.trans h)]
    exact Int.floor_mono h
  · by_cases hq : 0 ≤ q
    · exact (towardZero_nonpos (not_le.mp hp).le).trans (towardZero_nonneg hq)
    · rw [towardZero, towardZero, if_neg hp, if_neg hq]
      exact Int.ceil_mono h

/-- Cutting off moves a value by less than one, and never away from zero. -/
theorem towardZero_bounds (q : ℚ) :
    q - 1 < towardZero q ∧ (towardZero q : ℚ) < q + 1 ∧ (0 ≤ q → (towardZero q : ℚ) ≤ q) ∧
      (q ≤ 0 → q ≤ towardZero q) := by
  by_cases hq : 0 ≤ q
  · have hle := Int.floor_le q
    have hlt := Int.lt_floor_add_one q
    rw [towardZero, if_pos hq]
    refine ⟨by linarith, by linarith, fun _ => hle, fun hneg => ?_⟩
    have hzero : q = 0 := le_antisymm hneg hq
    simp [hzero]
  · have hle := Int.le_ceil q
    have hlt := Int.ceil_lt_add_one q
    rw [towardZero, if_neg hq]
    exact ⟨by linarith, hlt, fun h => absurd h hq, fun _ => hle⟩

/-- Values whose integer parts are ordered are ordered up to one, when the larger part is that of a
value that is not negative, or the smaller that of one that is not positive. -/
theorem lt_add_one_of_towardZero_le {p q : ℚ} (h : towardZero p ≤ towardZero q)
    (hsign : 0 ≤ q ∨ p ≤ 0) : p < q + 1 := by
  have hcast : (towardZero p : ℚ) ≤ towardZero q := Int.cast_le.mpr h
  obtain ⟨hlow, -, -, hup⟩ := towardZero_bounds p
  obtain ⟨-, hhigh, hdown, -⟩ := towardZero_bounds q
  rcases hsign with hq | hp
  · have := hdown hq
    linarith
  · have := hup hp
    linarith

theorem lt_add_two_of_towardZero_le {p q : ℚ} (h : towardZero p ≤ towardZero q) : p < q + 2 := by
  have hcast : (towardZero p : ℚ) ≤ towardZero q := Int.cast_le.mpr h
  have hp := (towardZero_bounds p).1
  have hq := (towardZero_bounds q).2.1
  linarith

theorem truncated_mono (places : ℕ) : Monotone (truncated places) := by
  intro p q h
  have hpow : (0 : ℚ) < 10 ^ places := by positivity
  have hdigits : towardZero (p * 10 ^ places) ≤ towardZero (q * 10 ^ places) :=
    towardZero_mono (mul_le_mul_of_nonneg_right h hpow.le)
  exact div_le_div_of_nonneg_right (Int.cast_le.mpr hdigits) hpow.le

/-- What has no more than the places that are kept stays. -/
theorem truncated_of_int {places : ℕ} {q : ℚ} {n : ℤ} (h : q * 10 ^ places = n) :
    truncated places q = q := by
  have hpow : (10 : ℚ) ^ places ≠ 0 := by positivity
  rw [truncated, h, towardZero_intCast, ← h, mul_div_cancel_right₀ _ hpow]

/-- Cutting off never moves a value away from zero. -/
theorem truncated_le_max (places : ℕ) (q : ℚ) : truncated places q ≤ max q 0 := by
  have hpow : (0 : ℚ) < 10 ^ places := by positivity
  rw [truncated, div_le_iff₀ hpow]
  by_cases hq : 0 ≤ q
  · have hscaled : 0 ≤ q * 10 ^ places := mul_nonneg hq hpow.le
    rw [towardZero, if_pos hscaled, max_eq_left hq]
    exact Int.floor_le _
  · have hneg : q ≤ 0 := (not_le.mp hq).le
    rw [max_eq_right hneg, zero_mul]
    exact_mod_cast towardZero_nonpos (mul_nonpos_of_nonpos_of_nonneg hneg hpow.le)

end StellarAgent.Lib
