import StellarAgent.Math.Bid

set_option autoImplicit false

/-! # Stroops

The conversions of `sdk/rust/src/math/fixed_point.rs` between an amount and the integer that the
contracts count in, and how their errors read. `toStroops` cuts the amount off at a whole stroop
(`toStroops_eq`), and `fromStroops` is exact (`fromStroops_eq`).
-/

namespace StellarAgent.Math

open Lib

/-- The `Display` of an error -/
def FixedPointError.text : FixedPointError → String
  | .NotFinite value => s!"FixedPoint: value \"{value}\" is not a finite decimal"
  | .DivisionByZero => "FixedPoint: division by zero"
  | .PlacesTooLarge places max => s!"FixedPoint: places must be at most {max}, got {places}"
  | .InvalidWeights sum => s!"BidScorer: weights must sum to 1.0, got {sum}"

/-- `Decimal::to_integer_truncated` -/
def Decimal.toIntegerTruncated (a : Decimal) : ℤ := (a.truncate 0).unscaled

namespace Rust

/-- 1 XLM is `10 ^ 7` stroops. -/
def stroopScale : Decimal := ⟨10000000, 0⟩

def toStroops (amount : String) : Except FixedPointError ℤ := do
  let amount ← bn amount
  return (amount.mul stroopScale).toIntegerTruncated

def checkPlaces (places : ℕ) : Except FixedPointError Unit :=
  if places > MAX_SCALE then .error (.PlacesTooLarge places MAX_SCALE) else .ok ()

def fromStroops (stroops : ℤ) (decimal_places : ℕ) : Except FixedPointError String := do
  checkPlaces decimal_places
  let quotient ← div ⟨stroops, 0⟩ stroopScale
  return quotient.toFixed decimal_places

/-! ## What they compute -/

theorem stroopScale_value : stroopScale.value = 10 ^ 7 := by
  norm_num [stroopScale, Decimal.value]

/-- An amount is cut off at a whole stroop. -/
theorem toStroops_eq {amount : String} {a : Decimal} (h : Decimal.parse amount = .ok a) :
    toStroops amount = .ok (towardZero (a.value * 10 ^ 7)) := by
  have hscale : a.scale + stroopScale.scale ≤ MAX_SCALE := Decimal.parse_scale h
  have hmul : (a.mul stroopScale).value = a.value * 10 ^ 7 := by
    rw [(Decimal.mul_value_iff a stroopScale).mpr (.inl hscale), stroopScale_value]
  have hbn : bn amount = .ok a := by rw [bn, h]
  have hcut : (a.mul stroopScale).toIntegerTruncated = towardZero (a.value * 10 ^ 7) := by
    rw [Decimal.toIntegerTruncated, Decimal.truncate_unscaled, hmul, pow_zero, mul_one]
  rw [toStroops, hbn]
  show Except.ok _ = _
  rw [hcut]

theorem toStroops_ok {amount : String} {stroops : ℤ} (h : toStroops amount = .ok stroops) :
    ∃ a, Decimal.parse amount = .ok a ∧ stroops = towardZero (a.value * 10 ^ 7) := by
  cases hparse : Decimal.parse amount with
  | ok a =>
      rw [toStroops_eq hparse] at h
      exact ⟨a, rfl, (Except.ok.inj h).symm⟩
  | error error =>
      have hbn : ∃ other, bn amount = .error other := by
        rw [bn, hparse]
        cases error <;> exact ⟨_, rfl⟩
      obtain ⟨other, hother⟩ := hbn
      rw [toStroops, hother] at h
      cases h

/-- Eighteen places are enough for a quotient by `10 ^ 7`. -/
theorem fromStroops_eq (stroops : ℤ) {decimal_places : ℕ} (h : decimal_places ≤ MAX_SCALE) :
    fromStroops stroops decimal_places =
      .ok (fixedText decimal_places ((stroops : ℚ) / 10 ^ 7)) := by
  obtain ⟨quotient, hdiv, -, hvalue⟩ := Decimal.divTruncate_eq ⟨stroops, 0⟩
    (by decide : stroopScale.unscaled ≠ 0) DECIMAL_PLACES
  have hexact : quotient.value = (stroops : ℚ) / 10 ^ 7 := by
    have hstroops : (⟨stroops, 0⟩ : Decimal).value = stroops := by
      rw [Decimal.value, pow_zero, div_one]
    rw [hvalue, hstroops, stroopScale_value]
    refine truncated_of_int (n := stroops * 10 ^ 11) ?_
    have hplaces : min DECIMAL_PLACES MAX_SCALE = 7 + 11 := by decide
    rw [hplaces, pow_add]
    push_cast
    field_simp
    norm_num
  rw [fromStroops, checkPlaces, if_neg (not_lt.mpr h), div, hdiv]
  show Except.ok _ = _
  rw [quotient.toFixed_eq h, hexact]

end Rust

end StellarAgent.Math
