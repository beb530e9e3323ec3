import Mathlib.Tactic
import StellarAgent.Lib.Truncation

set_option autoImplicit false

/-! # Decimal arithmetic of the Rust SDK

`sdk/rust/src/math/decimal.rs`. A `Decimal` is an unscaled integer with a count of decimal places;
its `value` is the rational it stands for. One lemma for each operation says which rational comes
out. All but `mul` are exact, and `div_truncate` cuts toward zero; `mul` caps the scale of the
product at `MAX_SCALE` without dividing the digits, which moves the decimal point of a longer
product (`mul_value_iff`).
-/

namespace StellarAgent.Math

open Lib

/-- Largest number of decimal places that a value is given. -/
def MAX_SCALE : ℕ := 10000

/-- The largest `u32`, at which additions of scales saturate. -/
def U32_MAX : ℕ := 2 ^ 32 - 1

/-- `unscaled / 10 ^ scale` -/
structure Decimal where
  unscaled : ℤ
  scale : ℕ
deriving DecidableEq, Repr

namespace Decimal

/-- The additive identity, at scale 0 -/
def zero : Decimal := ⟨0, 0⟩

/-- The multiplicative identity, at scale 0 -/
def one : Decimal := ⟨1, 0⟩

def isZero (a : Decimal) : Bool := a.unscaled == 0

def isNegative (a : Decimal) : Bool := decide (a.unscaled < 0)

def isPositive (a : Decimal) : Bool := decide (0 < a.unscaled)

/-- An equal value with at least `target` decimal places. -/
def rescale (a : Decimal) (target : ℕ) : Decimal :=
  if target ≤ a.scale then a
  else { unscaled := a.unscaled * 10 ^ (target - a.scale), scale := target }

/-- `Decimal::add` -/
def add (a b : Decimal) : Decimal :=
  let scale := max a.scale b.scale
  { unscaled := (a.rescale scale).unscaled + (b.rescale scale).unscaled, scale := scale }

/-- `Decimal::sub` -/
def sub (a b : Decimal) : Decimal :=
  let scale := max a.scale b.scale
  { unscaled := (a.rescale scale).unscaled - (b.rescale scale).unscaled, scale := scale }

/-- `Decimal::mul`. The scale saturates and is capped; the digits stay. -/
def mul (a b : Decimal) : Decimal where
  unscaled := a.unscaled * b.unscaled
  scale := min (min (a.scale + b.scale) U32_MAX) MAX_SCALE

/-- `Neg for Decimal` -/
def neg (a : Decimal) : Decimal := { a with unscaled := -a.unscaled }

/-- `Decimal::div_truncate` -/
def divTruncate (a divisor : Decimal) (places : ℕ) : Option Decimal :=
  if divisor.isZero then none
  else
    let places := min places MAX_SCALE
    let numerator := a.unscaled * 10 ^ (places + divisor.scale)
    let denominator := divisor.unscaled * 10 ^ a.scale
    some { unscaled := numerator.tdiv denominator, scale := places }

/-- `Decimal::truncate` -/
def truncate (a : Decimal) (places : ℕ) : Decimal :=
  if a.scale ≤ places then a.rescale places
  else { unscaled := a.unscaled.tdiv (10 ^ (a.scale - places)), scale := places }

/-- `Ord for Decimal`: the signs first, then the digits at a common scale -/
def cmp (a b : Decimal) : Ordering :=
  match compare a.unscaled.sign b.unscaled.sign with
  | .eq =>
      let scale := max a.scale b.scale
      compare (a.rescale scale).unscaled (b.rescale scale).unscaled
  | by_sign => by_sign

/-- `PartialEq for Decimal` -/
def eq (a b : Decimal) : Bool := a.cmp b == .eq

/-! ## The value of a decimal -/

/-- The rational that a decimal stands for. -/
def value (a : Decimal) : ℚ := a.unscaled / 10 ^ a.scale

theorem value_eq_iff (a : Decimal) (q : ℚ) : a.value = q ↔ (a.unscaled : ℚ) = q * 10 ^ a.scale := by
  rw [value, div_eq_iff (by positivity)]

@[simp] theorem value_eq_zero (a : Decimal) : a.value = 0 ↔ a.unscaled = 0 := by
  rw [value_eq_iff, zero_mul, Int.cast_eq_zero]

/-- The value times a power of ten that covers the scale is the digits moved up. -/
theorem value_mul_pow (a : Decimal) (scale : ℕ) (h : a.scale ≤ scale) :
    a.value * 10 ^ scale = (a.unscaled * 10 ^ (scale - a.scale) : ℤ) := by
  obtain ⟨extra, rfl⟩ := Nat.exists_eq_add_of_le h
  rw [value, Nat.add_sub_cancel_left, pow_add]
  push_cast
  field_simp

/-- Realigning to a larger scale moves the digits up by the difference. -/
theorem rescale_unscaled (a : Decimal) {scale : ℕ} (h : a.scale ≤ scale) :
    (a.rescale scale).unscaled = a.unscaled * 10 ^ (scale - a.scale) := by
  unfold rescale
  split_ifs with hle
  · have : scale - a.scale = 0 := by omega
    rw [this, pow_zero, mul_one]
  · rfl

@[simp] theorem rescale_value (a : Decimal) (target : ℕ) : (a.rescale target).value = a.value := by
  unfold rescale
  split_ifs with hle
  · rfl
  · have hpow := a.value_mul_pow target (by omega)
    rw [value_eq_iff]
    exact hpow.symm

/-- The digits at a common scale are the value times its power of ten. -/
theorem rescale_unscaled_cast (a : Decimal) {scale : ℕ} (h : a.scale ≤ scale) :
    ((a.rescale scale).unscaled : ℚ) = a.value * 10 ^ scale := by
  rw [a.value_mul_pow scale h, a.rescale_unscaled h]

theorem add_value (a b : Decimal) : (a.add b).value = a.value + b.value := by
  rw [value_eq_iff]
  simp only [add, Int.cast_add]
  rw [a.rescale_unscaled_cast (le_max_left _ _), b.rescale_unscaled_cast (le_max_right _ _), add_mul]

theorem sub_value (a b : Decimal) : (a.sub b).value = a.value - b.value := by
  rw [value_eq_iff]
  simp only [sub, Int.cast_sub]
  rw [a.rescale_unscaled_cast (le_max_left _ _), b.rescale_unscaled_cast (le_max_right _ _), sub_mul]

theorem neg_value (a : Decimal) : a.neg.value = -a.value := by
  simp only [neg, value, Int.cast_neg, neg_div]

/-- What `mul` computes: the product of the digits over a power of ten that is capped. -/
theorem mul_value (a b : Decimal) :
    (a.mul b).value * 10 ^ (min (a.scale + b.scale) MAX_SCALE) = a.unscaled * b.unscaled := by
  have hscale : min (min (a.scale + b.scale) U32_MAX) MAX_SCALE =
      min (a.scale + b.scale) MAX_SCALE := by
    simp only [U32_MAX, MAX_SCALE]
    omega
  rw [value, mul, hscale, div_mul_cancel₀ _ (by positivity), Int.cast_mul]

/-- The product is exact when its scale fits under the cap, and otherwise only for zeros. -/
theorem mul_value_iff (a b : Decimal) :
    (a.mul b).value = a.value * b.value ↔
      a.scale + b.scale ≤ MAX_SCALE ∨ a.unscaled = 0 ∨ b.unscaled = 0 := by
  have hmul := a.mul_value b
  have hexact : a.value * b.value * 10 ^ (a.scale + b.scale) = a.unscaled * b.unscaled := by
    rw [value, value, pow_add]
    field_simp
  constructor
  · intro h
    by_cases hfit : a.scale + b.scale ≤ MAX_SCALE
    · exact .inl hfit
    right
    by_contra! hne
    rw [h, min_eq_right (by omega), ← hexact] at hmul
    have hvalue : a.value * b.value ≠ 0 := by simp [hne]
    have hpow := mul_left_cancel₀ hvalue hmul
    have := pow_right_injective₀ (by norm_num : (0 : ℚ) < 10) (by norm_num) hpow
    omega
  · rintro (hfit | hzero)
    · rw [min_eq_left hfit, ← hexact] at hmul
      exact mul_right_cancel₀ (by positivity) hmul
    · have hdigits : (a.unscaled * b.unscaled : ℤ) = 0 := by
        rcases hzero with h | h <;> simp [h]
      have hleft : (a.mul b).value = 0 := (value_eq_zero _).mpr hdigits
      have hright : a.value * b.value = 0 := by simpa using hzero
      rw [hleft, hright]

theorem value_nonneg (a : Decimal) : 0 ≤ a.value ↔ 0 ≤ a.unscaled := by
  rw [value, le_div_iff₀ (by positivity), zero_mul, Int.cast_nonneg_iff]

theorem value_pos (a : Decimal) : 0 < a.value ↔ 0 < a.unscaled := by
  rw [value, div_pos_iff_of_pos_right (by positivity), Int.cast_pos]

/-- A smaller sign comes with a smaller value. -/
theorem value_lt_of_sign {a b : Decimal} (h : a.unscaled.sign < b.unscaled.sign) :
    a.value < b.value := by
  by_contra! hle
  have hnonneg : 0 ≤ b.unscaled → 0 ≤ a.unscaled := by
    rw [← value_nonneg, ← value_nonneg]
    exact fun hb => hb.trans hle
  have hpos : 0 < b.unscaled → 0 < a.unscaled := by
    rw [← value_pos, ← value_pos]
    exact fun hb => hb.trans_le hle
  have hmin : -1 ≤ a.unscaled.sign := by
    rcases Int.sign_trichotomy a.unscaled with h | h | h <;> omega
  rcases lt_trichotomy b.unscaled 0 with hb | hb | hb
  · rw [Int.sign_eq_neg_one_of_neg hb] at h
    omega
  · have : 0 ≤ a.unscaled.sign := Int.sign_nonneg_iff.mpr (hnonneg hb.ge)
    rw [hb, Int.sign_zero] at h
    omega
  · rw [Int.sign_eq_one_of_pos hb, Int.sign_eq_one_of_pos (hpos hb)] at h
    omega

/-- The order of the digits at a common scale is the order of the values. -/
theorem compare_rescale (a b : Decimal) :
    compare (a.rescale (max a.scale b.scale)).unscaled (b.rescale (max a.scale b.scale)).unscaled =
      compare a.value b.value := by
  have hcast : StrictMono (Int.cast : ℤ → ℚ) := Int.cast_strictMono
  have hpow : StrictMono fun q : ℚ => q * 10 ^ max a.scale b.scale :=
    strictMono_mul_right_of_pos (by positivity)
  have ha := a.rescale_unscaled_cast (le_max_left a.scale b.scale)
  have hb := b.rescale_unscaled_cast (le_max_right a.scale b.scale)
  rw [← cmp_eq_compare, ← cmp_eq_compare, ← hcast.cmp_map_eq, ha, hb]
  exact hpow.cmp_map_eq _ _

/-- `cmp` is the order of the values, whatever the scales. -/
theorem cmp_eq (a b : Decimal) : a.cmp b = compare a.value b.value := by
  unfold cmp
  split
  · exact compare_rescale a b
  · rename_i hsign
    rcases lt_trichotomy a.unscaled.sign b.unscaled.sign with h | h | h
    · rw [compare_lt_iff_lt.mpr h, compare_lt_iff_lt.mpr (value_lt_of_sign h)]
    · exact absurd (compare_eq_iff_eq.mpr h) hsign
    · rw [compare_gt_iff_gt.mpr h, compare_gt_iff_gt.mpr (value_lt_of_sign h)]

/-- `eq` is equality of the values. -/
theorem eq_iff (a b : Decimal) : a.eq b = true ↔ a.value = b.value := by
  rw [eq, cmp_eq, beq_iff_eq, compare_eq_iff_eq]

/-- `divTruncate` cuts the quotient of the values toward zero, at `MAX_SCALE` places at most. -/
theorem divTruncate_eq (a : Decimal) {divisor : Decimal} (h : divisor.unscaled ≠ 0) (places : ℕ) :
    ∃ quotient, a.divTruncate divisor places = some quotient ∧
      quotient.scale = min places MAX_SCALE ∧
      quotient.value = truncated (min places MAX_SCALE) (a.value / divisor.value) := by
  have hzero : divisor.isZero = false := by simpa [isZero] using h
  refine ⟨_, by rw [divTruncate, hzero]; rfl, rfl, ?_⟩
  have hquotient : a.value / divisor.value * 10 ^ min places MAX_SCALE =
      ((a.unscaled * 10 ^ (min places MAX_SCALE + divisor.scale) : ℤ) : ℚ) /
        (divisor.unscaled * 10 ^ a.scale : ℤ) := by
    have : (divisor.unscaled : ℚ) ≠ 0 := Int.cast_ne_zero.mpr h
    rw [value, value, pow_add]
    push_cast
    field_simp
  rw [truncated, hquotient, towardZero_div]
  rfl

theorem rescale_scale (a : Decimal) {target : ℕ} (h : a.scale ≤ target) :
    (a.rescale target).scale = target := by
  unfold rescale
  split_ifs with hle
  · omega
  · rfl

theorem truncate_scale (a : Decimal) (places : ℕ) : (a.truncate places).scale = places := by
  unfold truncate
  split_ifs with hle
  · exact a.rescale_scale hle
  · rfl

/-- `truncate` cuts the value toward zero. -/
theorem truncate_unscaled (a : Decimal) (places : ℕ) :
    (a.truncate places).unscaled = towardZero (a.value * 10 ^ places) := by
  unfold truncate
  split_ifs with hle
  · rw [a.rescale_unscaled hle, a.value_mul_pow places hle, towardZero_intCast]
  · have hquotient : a.value * 10 ^ places = (a.unscaled : ℚ) / (10 ^ (a.scale - places) : ℤ) := by
      have hscale : a.scale = places + (a.scale - places) := by omega
      rw [value]
      push_cast
      nth_rewrite 1 [hscale]
      rw [pow_add]
      field_simp
    rw [hquotient, towardZero_div]

theorem truncate_value (a : Decimal) (places : ℕ) :
    (a.truncate places).value = truncated places a.value := by
  rw [value, truncate_scale, truncate_unscaled, truncated]

/-! ## Exactness -/

/-- What the module promises of its operations on two values: they are those of the rationals. -/
structure Exact (a b : Decimal) : Prop where
  add : (a.add b).value = a.value + b.value
  sub : (a.sub b).value = a.value - b.value
  mul : (a.mul b).value = a.value * b.value
  neg : a.neg.value = -a.value
  cmp : a.cmp b = compare a.value b.value
  eq : a.eq b = true ↔ a.value = b.value
  div_truncate : ∀ places ≤ MAX_SCALE, b.value ≠ 0 →
    ∃ quotient, a.divTruncate b places = some quotient ∧
      quotient.value = truncated places (a.value / b.value)

/-- **Decimal arithmetic is exact up to the cap of `mul`**: the operations on two values are those
of the rationals exactly when the scales add up to at most `MAX_SCALE`, or one of the values is
zero. -/
theorem decimal_exact (a b : Decimal) :
    Exact a b ↔ a.scale + b.scale ≤ MAX_SCALE ∨ a.value = 0 ∨ b.value = 0 := by
  rw [value_eq_zero, value_eq_zero, ← mul_value_iff]
  constructor
  · exact fun h => h.mul
  · intro hmul
    refine ⟨add_value a b, sub_value a b, hmul, neg_value a, cmp_eq a b, eq_iff a b, ?_⟩
    intro places hplaces hb
    obtain ⟨quotient, heq, -, hvalue⟩ :=
      a.divTruncate_eq (by rwa [Ne, value_eq_zero] at hb) places
    rw [min_eq_left hplaces] at hvalue
    exact ⟨quotient, heq, hvalue⟩

/-- The product of `10 ^ -5001` and `10 ^ -5000` comes out ten times too large, although both scales
are within `MAX_SCALE`. -/
theorem not_exact_beyond_cap :
    ¬ ∀ a b : Decimal, a.scale ≤ MAX_SCALE → b.scale ≤ MAX_SCALE → Exact a b := by
  intro h
  have hexact := h ⟨1, 5001⟩ ⟨1, 5000⟩ (by decide) (by decide)
  rcases (mul_value_iff _ _).mp hexact.mul with hfit | hzero | hzero
  · exact absurd hfit (by decide)
  · exact absurd hzero (by decide)
  · exact absurd hzero (by decide)

end Decimal

end StellarAgent.Math
