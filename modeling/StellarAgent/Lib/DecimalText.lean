import Mathlib.Tactic
import StellarAgent.Lib.Truncation

set_option autoImplicit false

/-! # Decimal text

`fixedChars negative n places` writes `n / 10 ^ places` with all of its `places` decimal places: an
optional minus sign, at least one digit before the point and `places` digits after it. The digits on
both sides of the point are read back as `n` (`ofDigitChars_fixed`).
-/

namespace StellarAgent.Lib

/-! ## Digits -/

/-- The digits of `n`, with zeros in front up to a width -/
def paddedDigits (width n : ℕ) : List Char :=
  List.replicate (width - (Nat.toDigits 10 n).length) '0' ++ Nat.toDigits 10 n

theorem isDigit_paddedDigits {width n : ℕ} : ∀ c ∈ paddedDigits width n, c.isDigit = true := by
  intro c hc
  rcases List.mem_append.mp hc with hzero | hdigit
  · rw [List.eq_of_mem_replicate hzero]
    decide
  · exact Nat.isDigit_of_mem_toDigits (by omega) (by omega) hdigit

theorem le_length_paddedDigits (width n : ℕ) : width ≤ (paddedDigits width n).length := by
  rw [paddedDigits, List.length_append, List.length_replicate]
  omega

theorem ofDigitChars_paddedDigits (width n : ℕ) :
    Nat.ofDigitChars 10 (paddedDigits width n) 0 = n := by
  rw [paddedDigits, Nat.ofDigitChars_append, Nat.ofDigitChars_replicate_zero, mul_zero,
    Nat.ofDigitChars_ten_toDigits]

/-! ## A point among them -/

/-- The digits of `n / 10 ^ places` before the point -/
def wholeChars (n places : ℕ) : List Char :=
  let padded := paddedDigits (places + 1) n
  padded.take (padded.length - places)

/-- The digits of `n / 10 ^ places` after the point -/
def fractionChars (n places : ℕ) : List Char :=
  let padded := paddedDigits (places + 1) n
  padded.drop (padded.length - places)

def fixedChars (negative : Bool) (n places : ℕ) : List Char :=
  (if negative then ['-'] else []) ++ wholeChars n places ++
    (if places = 0 then [] else '.' :: fractionChars n places)

theorem isDigit_wholeChars {n places : ℕ} : ∀ c ∈ wholeChars n places, c.isDigit = true :=
  fun c hc => isDigit_paddedDigits c (List.mem_of_mem_take hc)

theorem isDigit_fractionChars {n places : ℕ} : ∀ c ∈ fractionChars n places, c.isDigit = true :=
  fun c hc => isDigit_paddedDigits c (List.mem_of_mem_drop hc)

theorem wholeChars_ne_nil (n places : ℕ) : wholeChars n places ≠ [] := by
  have hlong := le_length_paddedDigits (places + 1) n
  rw [wholeChars, ← List.length_pos_iff, List.length_take]
  omega

theorem length_fractionChars (n places : ℕ) : (fractionChars n places).length = places := by
  have hlong := le_length_paddedDigits (places + 1) n
  rw [fractionChars, List.length_drop]
  omega

/-- The digits on both sides of the point are those of `n`. -/
theorem ofDigitChars_fixed (n places : ℕ) :
    Nat.ofDigitChars 10 (wholeChars n places ++ fractionChars n places) 0 = n := by
  rw [wholeChars, fractionChars, List.take_append_drop, ofDigitChars_paddedDigits]

/-- `q` with `places` decimal places, the others cut off. The sign is that of `q`, also when only
zeros are left. -/
def fixedText (places : ℕ) (q : ℚ) : String :=
  String.ofList (fixedChars (decide (q < 0)) (towardZero (q * 10 ^ places)).natAbs places)

end StellarAgent.Lib
