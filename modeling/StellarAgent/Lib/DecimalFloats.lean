import Mathlib.Tactic

set_option autoImplicit false

/-! # Decimal floating point

A finite decimal is a sign, a coefficient and an exponent. Arithmetic on decimals is exact, and what
comes out is finished in a context: rounded to its precision, kept above its least exponent, and
refused above its largest.

A number that can be written in the context is not crossed on the way (`finish_le_iff` and
`le_finish`): rounding leaves a decimal on its side of it, or moves it onto it.
-/

namespace StellarAgent.Lib

/-! ## Decimals -/

structure DecimalFloat where
  negative : Bool
  coefficient : ℕ
  exponent : ℤ
  deriving DecidableEq

namespace DecimalFloat

/-- The coefficient with the sign -/
def signed (x : DecimalFloat) : ℤ := if x.negative then -x.coefficient else x.coefficient

/-- The number that a decimal stands for -/
def value (x : DecimalFloat) : ℚ := x.signed * 10 ^ x.exponent

/-- How many digits the coefficient has -/
def digits (x : DecimalFloat) : ℕ := Nat.log 10 x.coefficient + 1

/-- The exponent of the first digit -/
def adjusted (x : DecimalFloat) : ℤ := x.exponent + x.digits - 1

theorem lt_pow_digits (x : DecimalFloat) : x.coefficient < 10 ^ x.digits :=
  Nat.lt_pow_succ_log_self (by omega) _

theorem pow_digits_le {x : DecimalFloat} (h : x.coefficient ≠ 0) :
    10 ^ (x.digits - 1) ≤ x.coefficient :=
  Nat.pow_log_le_self 10 h

/-- The number without the sign -/
def magnitude (x : DecimalFloat) : ℚ := x.coefficient * 10 ^ x.exponent

theorem magnitude_nonneg (x : DecimalFloat) : 0 ≤ x.magnitude := by
  unfold magnitude
  positivity

theorem value_eq (x : DecimalFloat) :
    x.value = if x.negative then -x.magnitude else x.magnitude := by
  unfold value magnitude signed
  split
  · push_cast
    ring
  · push_cast
    rfl

theorem abs_value (x : DecimalFloat) : |x.value| = x.magnitude := by
  rw [value_eq]
  split
  · rw [abs_neg, abs_of_nonneg x.magnitude_nonneg]
  · exact abs_of_nonneg x.magnitude_nonneg

end DecimalFloat

/-! ## Contexts -/

inductive Rounding where
  | down
  | up
  | ceiling
  | floor
  | half_down
  | half_up
  | half_even
  | zero_five_up
  deriving DecidableEq

/-- Whether a quotient with a remainder is rounded away from zero -/
def Rounding.away (rounding : Rounding) (negative : Bool) (quotient remainder divisor : ℕ) : Bool :=
  decide (remainder ≠ 0) &&
    match rounding with
    | .down => false
    | .up => true
    | .ceiling => !negative
    | .floor => negative
    | .half_down => decide (divisor < 2 * remainder)
    | .half_up => decide (divisor ≤ 2 * remainder)
    | .half_even => decide (divisor < 2 * remainder ∨ divisor = 2 * remainder ∧ quotient % 2 = 1)
    | .zero_five_up => decide (quotient % 10 = 0 ∨ quotient % 10 = 5)

structure DecimalContext where
  prec : ℕ
  rounding : Rounding
  Emin : ℤ
  Emax : ℤ
  prec_pos : 0 < prec

/-- What an operation raises -/
inductive DecimalSignal where
  | InvalidOperation
  | DivisionByZero
  | Overflow
  deriving DecidableEq

namespace DecimalContext

variable (ctx : DecimalContext)

/-- The least exponent -/
def Etiny : ℤ := ctx.Emin - ctx.prec + 1

/-- The largest exponent of a coefficient with all digits -/
def Etop : ℤ := ctx.Emax - ctx.prec + 1

/-- The decimal with a larger exponent, rounded -/
def roundTo (x : DecimalFloat) (exponent : ℤ) : DecimalFloat :=
  let divisor := 10 ^ (exponent - x.exponent).toNat
  let quotient := x.coefficient / divisor
  let away := ctx.rounding.away x.negative quotient (x.coefficient % divisor) divisor
  { x with coefficient := if away then quotient + 1 else quotient, exponent }

/-- A digit too many after rounding up -/
def carry (x : DecimalFloat) : DecimalFloat :=
  if x.coefficient = 10 ^ ctx.prec then
    { x with coefficient := 10 ^ (ctx.prec - 1), exponent := x.exponent + 1 }
  else x

/-- The least exponent that a decimal is written with -/
def leastExponent (x : DecimalFloat) : ℤ := max (x.exponent + x.digits - ctx.prec) ctx.Etiny

/-- **An exact result in the context** -/
def finish (x : DecimalFloat) : Except DecimalSignal DecimalFloat :=
  if x.coefficient = 0 then
    .ok { x with exponent := min (max x.exponent ctx.Etiny) ctx.Emax }
  else if ctx.Etop < x.exponent + x.digits - ctx.prec then .error .Overflow
  else if x.exponent < ctx.leastExponent x then
    let rounded := ctx.carry (ctx.roundTo x (ctx.leastExponent x))
    if ctx.Etop < rounded.exponent then .error .Overflow else .ok rounded
  else .ok x

end DecimalContext

/-! ## Addition -/

namespace DecimalFloat

/-- The sum at the smaller of the two exponents. A zero is negative if both summands are, or if
their signs differ and the rounding is to the floor. -/
def exactAdd (rounding : Rounding) (x y : DecimalFloat) : DecimalFloat :=
  let exponent := min x.exponent y.exponent
  let sum := x.signed * 10 ^ (x.exponent - exponent).toNat +
    y.signed * 10 ^ (y.exponent - exponent).toNat
  let negative :=
    if sum = 0 then
      x.negative && y.negative || rounding = .floor && x.negative != y.negative
    else decide (sum < 0)
  ⟨negative, sum.natAbs, exponent⟩

end DecimalFloat

/-- Addition in a context -/
def DecimalContext.add (ctx : DecimalContext) (x y : DecimalFloat) :
    Except DecimalSignal DecimalFloat :=
  ctx.finish (x.exactAdd ctx.rounding y)

/-- A power of ten, moved into the coefficient -/
theorem pow_mul_zpow {e e' : ℤ} (h : e ≤ e') :
    (10 : ℚ) ^ (e' - e).toNat * 10 ^ e = 10 ^ e' := by
  rw [← zpow_natCast, ← zpow_add₀ (by norm_num : (10 : ℚ) ≠ 0)]
  congr 1
  omega

namespace DecimalFloat

theorem exactAdd_signed (rounding : Rounding) (x y : DecimalFloat) :
    (x.exactAdd rounding y).signed =
      x.signed * 10 ^ (x.exponent - min x.exponent y.exponent).toNat +
        y.signed * 10 ^ (y.exponent - min x.exponent y.exponent).toNat := by
  unfold exactAdd
  dsimp only
  generalize x.signed * 10 ^ (x.exponent - min x.exponent y.exponent).toNat +
    y.signed * 10 ^ (y.exponent - min x.exponent y.exponent).toNat = sum
  unfold signed
  dsimp only
  by_cases hzero : sum = 0
  · rw [hzero]
    simp
  · rw [if_neg hzero]
    by_cases hneg : sum < 0
    · rw [if_pos (decide_eq_true hneg)]
      omega
    · rw [if_neg (by simpa using hneg)]
      omega

theorem exactAdd_value (rounding : Rounding) (x y : DecimalFloat) :
    (x.exactAdd rounding y).value = x.value + y.value := by
  have hx := pow_mul_zpow (min_le_left x.exponent y.exponent)
  have hy := pow_mul_zpow (min_le_right x.exponent y.exponent)
  rw [value, exactAdd_signed, value, value, ← hx, ← hy]
  show _ * (10 : ℚ) ^ min x.exponent y.exponent = _
  push_cast
  ring

end DecimalFloat

/-! ## What rounding does not cross -/

namespace DecimalContext

variable {ctx : DecimalContext} {x y : DecimalFloat} {l : ℚ}

/-- A number that can be written with the digits of the precision, above the least exponent -/
def Writable (ctx : DecimalContext) (l : ℚ) : Prop :=
  ∃ (m : ℤ) (e : ℤ), |m| < 10 ^ ctx.prec ∧ ctx.Etiny ≤ e ∧ l = m * 10 ^ e

theorem Writable.neg (h : ctx.Writable l) : ctx.Writable (-l) := by
  obtain ⟨m, e, hm, he, rfl⟩ := h
  exact ⟨-m, e, by rwa [abs_neg], he, by push_cast; ring⟩

section

variable {exponent : ℤ} {k : ℕ}

/-- The coefficient after rounding is one of the two next to the quotient. -/
theorem roundTo_coefficient (ctx : DecimalContext) (x : DecimalFloat) (exponent : ℤ) :
    (ctx.roundTo x exponent).coefficient =
        x.coefficient / 10 ^ (exponent - x.exponent).toNat ∨
      x.coefficient % 10 ^ (exponent - x.exponent).toNat ≠ 0 ∧
        (ctx.roundTo x exponent).coefficient =
          x.coefficient / 10 ^ (exponent - x.exponent).toNat + 1 := by
  unfold roundTo
  dsimp only
  split
  · rename_i haway
    refine Or.inr ⟨?_, rfl⟩
    unfold Rounding.away at haway
    rw [Bool.and_eq_true, decide_eq_true_eq] at haway
    exact haway.1
  · exact Or.inl rfl

theorem roundTo_le (ctx : DecimalContext)
    (h : x.coefficient ≤ k * 10 ^ (exponent - x.exponent).toNat) :
    (ctx.roundTo x exponent).coefficient ≤ k := by
  have hpos : 0 < 10 ^ (exponent - x.exponent).toNat := by positivity
  rcases roundTo_coefficient ctx x exponent with hcoefficient | ⟨hrest, hcoefficient⟩
  · rw [hcoefficient]
    exact Nat.div_le_of_le_mul (by rwa [Nat.mul_comm])
  · rw [hcoefficient]
    have hne : x.coefficient ≠ k * 10 ^ (exponent - x.exponent).toNat := by
      intro heq
      rw [heq, Nat.mul_mod_left] at hrest
      exact hrest rfl
    exact (Nat.div_lt_iff_lt_mul hpos).mpr (lt_of_le_of_ne h hne)

theorem le_roundTo (ctx : DecimalContext)
    (h : k * 10 ^ (exponent - x.exponent).toNat ≤ x.coefficient) :
    k ≤ (ctx.roundTo x exponent).coefficient := by
  have hpos : 0 < 10 ^ (exponent - x.exponent).toNat := by positivity
  have hquotient : k ≤ x.coefficient / 10 ^ (exponent - x.exponent).toNat :=
    (Nat.le_div_iff_mul_le hpos).mpr h
  rcases roundTo_coefficient ctx x exponent with hcoefficient | ⟨-, hcoefficient⟩
  · exact hcoefficient ▸ hquotient
  · omega

end

/-! ### Magnitudes -/

/-- What is written with an exponent at least that large is a multiple of its power. -/
theorem multiple_le_iff {m : ℕ} {e exponent : ℤ} (he : exponent ≤ e) (c : ℕ) (start : ℤ)
    (hstart : start ≤ exponent) :
    ((c : ℚ) * 10 ^ start ≤ m * 10 ^ e ↔
        c ≤ m * 10 ^ (e - exponent).toNat * 10 ^ (exponent - start).toNat) ∧
      ((m : ℚ) * 10 ^ e ≤ c * 10 ^ start ↔
        m * 10 ^ (e - exponent).toNat * 10 ^ (exponent - start).toNat ≤ c) := by
  have hpow : (0 : ℚ) < 10 ^ start := by positivity
  have hmove : (m : ℚ) * 10 ^ e =
      (m * 10 ^ (e - exponent).toNat * 10 ^ (exponent - start).toNat : ℕ) * 10 ^ start := by
    rw [← pow_mul_zpow he, ← pow_mul_zpow hstart]
    push_cast
    ring
  rw [hmove, mul_le_mul_iff_left₀ hpow, mul_le_mul_iff_left₀ hpow, Nat.cast_le, Nat.cast_le]
  exact ⟨Iff.rfl, Iff.rfl⟩

section

variable {m : ℕ} {e : ℤ}

/-- With a smaller exponent, the precision has no room for a number that is as large. -/
theorem lt_full_coefficient (hx : x.coefficient ≠ 0) (hm : m < 10 ^ ctx.prec)
    (he : ctx.Etiny ≤ e) (hsmall : e < ctx.leastExponent x)
    (hexponent : x.exponent < ctx.leastExponent x) :
    (m : ℚ) * 10 ^ e < ((10 ^ (ctx.prec - 1) : ℕ) : ℚ) * 10 ^ ctx.leastExponent x ∧
      10 ^ (ctx.prec - 1) * 10 ^ (ctx.leastExponent x - x.exponent).toNat ≤ x.coefficient := by
  have hprec := ctx.prec_pos
  have hleast : ctx.leastExponent x = x.exponent + x.digits - ctx.prec := by
    unfold leastExponent at hsmall ⊢
    omega
  constructor
  · have hcast : (m : ℚ) < 10 ^ ctx.prec := by exact_mod_cast hm
    calc (m : ℚ) * 10 ^ e < 10 ^ ctx.prec * 10 ^ e :=
          mul_lt_mul_of_pos_right hcast (by positivity)
      _ = 10 ^ ((ctx.prec : ℤ) + e) := by
          rw [← zpow_natCast, ← zpow_add₀ (by norm_num : (10 : ℚ) ≠ 0)]
      _ ≤ 10 ^ (((ctx.prec - 1 : ℕ) : ℤ) + ctx.leastExponent x) :=
          zpow_le_zpow_right₀ (by norm_num) (by omega)
      _ = ((10 ^ (ctx.prec - 1) : ℕ) : ℚ) * 10 ^ ctx.leastExponent x := by
          rw [zpow_add₀ (by norm_num : (10 : ℚ) ≠ 0), zpow_natCast]
          push_cast
          rfl
  · have hdigits : ctx.prec - 1 + (ctx.leastExponent x - x.exponent).toNat = x.digits - 1 := by
      omega
    rw [← pow_add, hdigits]
    exact DecimalFloat.pow_digits_le hx

theorem roundTo_magnitude_le (hx : x.coefficient ≠ 0) (hm : m < 10 ^ ctx.prec)
    (he : ctx.Etiny ≤ e) (hexponent : x.exponent < ctx.leastExponent x)
    (h : x.magnitude ≤ m * 10 ^ e) :
    (ctx.roundTo x (ctx.leastExponent x)).magnitude ≤ m * 10 ^ e := by
  by_cases hsmall : e < ctx.leastExponent x
  · obtain ⟨hlt, hfull⟩ := lt_full_coefficient hx hm he hsmall hexponent
    have hle := (multiple_le_iff le_rfl x.coefficient x.exponent hexponent.le).2.mpr
      (by simpa using hfull)
    exact absurd (hlt.trans_le hle) (not_lt.mpr h)
  · have hcoefficient := (multiple_le_iff (not_lt.mp hsmall) x.coefficient x.exponent
      hexponent.le).1.mp h
    have hrounded := roundTo_le ctx hcoefficient
    exact (multiple_le_iff (not_lt.mp hsmall) _ _ le_rfl).1.mpr (by simpa using hrounded)

theorem le_roundTo_magnitude (hx : x.coefficient ≠ 0) (hm : m < 10 ^ ctx.prec)
    (he : ctx.Etiny ≤ e) (hexponent : x.exponent < ctx.leastExponent x)
    (h : m * 10 ^ e ≤ x.magnitude) :
    m * 10 ^ e ≤ (ctx.roundTo x (ctx.leastExponent x)).magnitude := by
  by_cases hsmall : e < ctx.leastExponent x
  · obtain ⟨hlt, hfull⟩ := lt_full_coefficient hx hm he hsmall hexponent
    have hrounded := le_roundTo ctx hfull
    refine hlt.le.trans ?_
    exact (multiple_le_iff le_rfl _ _ le_rfl).2.mpr (by simpa using hrounded)
  · have hcoefficient := (multiple_le_iff (not_lt.mp hsmall) x.coefficient x.exponent
      hexponent.le).2.mp h
    have hrounded := le_roundTo ctx hcoefficient
    exact (multiple_le_iff (not_lt.mp hsmall) _ _ le_rfl).2.mpr (by simpa using hrounded)

end

/-! ### Results -/

theorem carry_magnitude (ctx : DecimalContext) (x : DecimalFloat) :
    (ctx.carry x).magnitude = x.magnitude := by
  unfold carry
  split
  · rename_i hfull
    have hprec : ctx.prec = ctx.prec - 1 + 1 := by
      have := ctx.prec_pos
      omega
    unfold DecimalFloat.magnitude
    dsimp only
    rw [hfull, hprec, zpow_add₀ (by norm_num : (10 : ℚ) ≠ 0), pow_succ]
    push_cast
    ring
  · rfl

theorem carry_negative (ctx : DecimalContext) (x : DecimalFloat) :
    (ctx.carry x).negative = x.negative := by
  unfold carry
  split
  · rfl
  · rfl

/-- What is finished has the same sign, and the same magnitude or the rounded one. -/
theorem finish_cases (h : ctx.finish x = .ok y) :
    y.negative = x.negative ∧ (y.magnitude = x.magnitude ∨
      x.coefficient ≠ 0 ∧ x.exponent < ctx.leastExponent x ∧
        y.magnitude = (ctx.roundTo x (ctx.leastExponent x)).magnitude) := by
  unfold finish at h
  split at h
  · rename_i hzero
    obtain rfl := Except.ok.inj h
    refine ⟨rfl, Or.inl ?_⟩
    unfold DecimalFloat.magnitude
    dsimp only
    rw [hzero, Nat.cast_zero, zero_mul, zero_mul]
  · rename_i hne
    split at h
    · cases h
    · split at h
      · rename_i hexponent
        dsimp only at h
        split at h
        · cases h
        · obtain rfl := Except.ok.inj h
          exact ⟨carry_negative _ _, Or.inr ⟨hne, hexponent, carry_magnitude _ _⟩⟩
      · obtain rfl := Except.ok.inj h
        exact ⟨rfl, Or.inl rfl⟩

/-- The magnitude of what is finished stays on its side of a number that can be written. -/
theorem finish_magnitude (h : ctx.finish x = .ok y) (hl : ctx.Writable l) :
    (x.magnitude ≤ l → y.magnitude ≤ l) ∧ (l ≤ x.magnitude → l ≤ y.magnitude) := by
  obtain ⟨-, hsame | ⟨hne, hexponent, hrounded⟩⟩ := finish_cases h
  · rw [hsame]
    exact ⟨id, id⟩
  · obtain ⟨m, e, hm, he, rfl⟩ := hl
    have hpow : (0 : ℚ) < 10 ^ e := by positivity
    rw [hrounded]
    by_cases hsign : 0 ≤ m
    · obtain ⟨n, rfl⟩ := Int.eq_ofNat_of_zero_le hsign
      have hn : n < 10 ^ ctx.prec := by
        rw [abs_of_nonneg hsign] at hm
        exact_mod_cast hm
      rw [Int.cast_natCast]
      exact ⟨roundTo_magnitude_le hne hn he hexponent, le_roundTo_magnitude hne hn he hexponent⟩
    · have hneg : (m : ℚ) * 10 ^ e < 0 :=
        mul_neg_of_neg_of_pos (by exact_mod_cast not_le.mp hsign) hpow
      refine ⟨fun hle => absurd (x.magnitude_nonneg.trans hle) (not_le.mpr hneg), fun _ => ?_⟩
      exact hneg.le.trans (DecimalFloat.magnitude_nonneg _)

/-- **Rounding does not cross a number that can be written.** -/
theorem finish_le (h : ctx.finish x = .ok y) (hl : ctx.Writable l) (hle : x.value ≤ l) :
    y.value ≤ l := by
  have hsign := (finish_cases h).1
  rw [DecimalFloat.value_eq] at hle ⊢
  rw [hsign]
  split at hle
  · have := (finish_magnitude h hl.neg).2 (by linarith)
    rw [if_pos (by assumption)]
    linarith
  · rw [if_neg (by assumption)]
    exact (finish_magnitude h hl).1 hle

theorem le_finish (h : ctx.finish x = .ok y) (hl : ctx.Writable l) (hle : l ≤ x.value) :
    l ≤ y.value := by
  have hsign := (finish_cases h).1
  rw [DecimalFloat.value_eq] at hle ⊢
  rw [hsign]
  split at hle
  · have := (finish_magnitude h hl.neg).1 (by linarith)
    rw [if_pos (by assumption)]
    linarith
  · rw [if_neg (by assumption)]
    exact (finish_magnitude h hl).2 hle

/-- A result below the largest exponent does not overflow. -/
theorem finish_ok (hrange : ctx.Emin < ctx.Emax) (h : x.magnitude < 10 ^ ctx.Emax) :
    ∃ y, ctx.finish x = .ok y := by
  unfold finish
  split
  · exact ⟨_, rfl⟩
  · rename_i hne
    have hadjusted : x.adjusted < ctx.Emax := by
      have hle : (10 : ℚ) ^ x.adjusted ≤ x.magnitude := by
        have hdigits : (10 : ℚ) ^ (x.digits - 1) ≤ x.coefficient := by
          exact_mod_cast DecimalFloat.pow_digits_le hne
        calc (10 : ℚ) ^ x.adjusted = 10 ^ (x.digits - 1) * 10 ^ x.exponent := by
              rw [← zpow_natCast, ← zpow_add₀ (by norm_num : (10 : ℚ) ≠ 0)]
              congr 1
              have : 1 ≤ x.digits := Nat.le_add_left _ _
              unfold DecimalFloat.adjusted
              omega
          _ ≤ x.magnitude := mul_le_mul_of_nonneg_right hdigits (by positivity)
      exact (zpow_lt_zpow_iff_right₀ (by norm_num)).mp (hle.trans_lt h)
    unfold DecimalFloat.adjusted at hadjusted
    have hleast : ctx.leastExponent x < ctx.Etop := by
      unfold leastExponent Etiny Etop
      omega
    have hcarry : (ctx.carry (ctx.roundTo x (ctx.leastExponent x))).exponent ≤
        ctx.leastExponent x + 1 := by
      unfold carry
      split
      · exact le_rfl
      · show ctx.leastExponent x ≤ _
        omega
    rw [if_neg (by unfold Etop; omega)]
    split
    · dsimp only
      rw [if_neg (by omega)]
      exact ⟨_, rfl⟩
    · exact ⟨_, rfl⟩

end DecimalContext

/-! ## The nearest number -/

/-- The multiple of the unit nearest to a number, and of two that are as near the even one -/
structure NearestEven (q unit : ℚ) (m : ℤ) : Prop where
  near : 2 * |q - m * unit| ≤ unit
  even : 2 * |q - m * unit| = unit → Even m

namespace NearestEven

variable {q unit : ℚ} {m m' : ℤ}

theorem neg (h : NearestEven q unit m) : NearestEven (-q) unit (-m) := by
  have hdist : |-q - ((-m : ℤ) : ℚ) * unit| = |q - m * unit| := by
    rw [← abs_neg]
    push_cast
    ring_nf
  exact ⟨hdist ▸ h.near, fun htie => (h.even (hdist ▸ htie)).neg⟩

theorem of_eq (hunit : 0 < unit) (h : q = m * unit) : NearestEven q unit m := by
  rw [h]
  constructor
  · rw [sub_self, abs_zero, mul_zero]
    exact hunit.le
  · intro htie
    rw [sub_self, abs_zero, mul_zero] at htie
    exact absurd htie hunit.ne

/-- Two nearest multiples are one unit apart at most, and then both are even. -/
theorem unique (hunit : 0 < unit) (h : NearestEven q unit m) (h' : NearestEven q unit m') :
    m = m' := by
  have hsplit : ((m : ℚ) - m') * unit = (q - m' * unit) - (q - m * unit) := by ring
  have htriangle : |(m : ℚ) - m'| * unit ≤ |q - m' * unit| + |q - m * unit| := by
    calc |(m : ℚ) - m'| * unit = |((m : ℚ) - m') * unit| := by
          rw [abs_mul, abs_of_pos hunit]
      _ ≤ |q - m' * unit| + |q - m * unit| := by
          rw [hsplit]
          exact abs_sub _ _
  have hnear := h.near
  have hnear' := h'.near
  have hle : |m - m'| ≤ 1 := by
    have hcast : |(m : ℚ) - m'| ≤ 1 := by
      by_contra hgt
      have := mul_lt_mul_of_pos_right (not_le.mp hgt) hunit
      linarith
    exact_mod_cast hcast
  by_contra hne
  have hone : |m - m'| = 1 := by
    have : 0 < |m - m'| := abs_pos.mpr (sub_ne_zero.mpr hne)
    omega
  have hcast : |(m : ℚ) - m'| = 1 := by exact_mod_cast hone
  rw [hcast, one_mul] at htriangle
  have heven := h.even (by linarith)
  have heven' := h'.even (by linarith)
  have hodd : Odd |m - m'| := hone ▸ odd_one
  exact (Int.not_even_iff_odd.mpr ((odd_abs).mp hodd)) (heven.sub heven')

end NearestEven

/-- The number of that many digits that a number is rounded to, of two as near the even one -/
def RoundedTo (digits : ℕ) (q l : ℚ) : Prop :=
  ∃ m e : ℤ, l = m * 10 ^ e ∧ 10 ^ ((digits : ℤ) - 1) * 10 ^ e ≤ |q| ∧
    |q| < 10 ^ (digits : ℤ) * 10 ^ e ∧ NearestEven q (10 ^ e) m

/-- The scale of the digits is settled by the number. -/
theorem RoundedTo.unique {digits : ℕ} {q l l' : ℚ} (h : RoundedTo digits q l)
    (h' : RoundedTo digits q l') : l = l' := by
  obtain ⟨m, e, rfl, hlow, hhigh, hnear⟩ := h
  obtain ⟨m', e', rfl, hlow', hhigh', hnear'⟩ := h'
  have hten : (10 : ℚ) ≠ 0 := by norm_num
  rw [← zpow_add₀ hten] at hlow hhigh hlow' hhigh'
  have hle := (zpow_lt_zpow_iff_right₀ (by norm_num : (1 : ℚ) < 10)).mp (hlow.trans_lt hhigh')
  have hge := (zpow_lt_zpow_iff_right₀ (by norm_num : (1 : ℚ) < 10)).mp (hlow'.trans_lt hhigh)
  obtain rfl : e = e' := by omega
  rw [hnear.unique (by positivity) hnear']

theorem RoundedTo.neg {digits : ℕ} {q l : ℚ} (h : RoundedTo digits q l) :
    RoundedTo digits (-q) (-l) := by
  obtain ⟨m, e, rfl, hlow, hhigh, hnear⟩ := h
  refine ⟨-m, e, ?_, ?_, ?_, hnear.neg⟩
  · push_cast
    ring
  · rwa [abs_neg]
  · rwa [abs_neg]

namespace DecimalContext

variable {ctx : DecimalContext} {x y : DecimalFloat} {exponent : ℤ}

theorem roundTo_nearest (hrounding : ctx.rounding = .half_even) (h : x.exponent ≤ exponent) :
    NearestEven x.magnitude (10 ^ exponent) (ctx.roundTo x exponent).coefficient := by
  set divisor := 10 ^ (exponent - x.exponent).toNat with hdivisor
  have hmagnitude : x.magnitude = x.coefficient * 10 ^ x.exponent := rfl
  have hunit : (10 : ℚ) ^ exponent = divisor * 10 ^ x.exponent := by
    rw [← pow_mul_zpow h, hdivisor]
    push_cast
    rfl
  have hpow : (0 : ℚ) < 10 ^ x.exponent := by positivity
  have hdist : ∀ m : ℤ, 2 * |x.magnitude - m * 10 ^ exponent| =
      (2 * |(x.coefficient : ℤ) - m * divisor| : ℤ) * 10 ^ x.exponent := by
    intro m
    have hfactor : x.magnitude - m * 10 ^ exponent =
        ((x.coefficient : ℤ) - m * divisor : ℤ) * 10 ^ x.exponent := by
      rw [hmagnitude, hunit]
      push_cast
      ring
    rw [hfactor, abs_mul, abs_of_pos hpow]
    push_cast
    ring
  have hcast : (10 : ℚ) ^ exponent = ((divisor : ℤ) : ℚ) * 10 ^ x.exponent := by
    rw [hunit]
    push_cast
    rfl
  have hdiv := Nat.div_add_mod x.coefficient divisor
  have hmod : x.coefficient % divisor < divisor := Nat.mod_lt _ (by positivity)
  have hvalue : (ctx.roundTo x exponent).coefficient =
      if Rounding.half_even.away x.negative (x.coefficient / divisor) (x.coefficient % divisor)
        divisor then x.coefficient / divisor + 1 else x.coefficient / divisor := by
    rw [← hrounding]
    rfl
  have hkey : 2 * |(x.coefficient : ℤ) - (ctx.roundTo x exponent).coefficient * divisor| ≤
        divisor ∧
      (2 * |(x.coefficient : ℤ) - (ctx.roundTo x exponent).coefficient * divisor| = divisor →
        Even ((ctx.roundTo x exponent).coefficient : ℤ)) := by
    rw [hvalue]
    generalize x.coefficient / divisor = quotient at *
    generalize x.coefficient % divisor = rest at *
    have hrest : (x.coefficient : ℤ) = divisor * quotient + rest := by exact_mod_cast hdiv.symm
    simp only [Rounding.away, Bool.and_eq_true, decide_eq_true_eq]
    split
    · rename_i haway
      have hgap : (x.coefficient : ℤ) - ((quotient + 1 : ℕ) : ℤ) * divisor =
          -((divisor : ℤ) - rest) := by
        rw [hrest]
        push_cast
        ring
      rw [hgap, abs_neg, abs_of_pos (by omega)]
      refine ⟨by omega, fun htie => ?_⟩
      rw [Int.even_coe_nat, Nat.even_iff]
      omega
    · rename_i hkept
      have hgap : (x.coefficient : ℤ) - (quotient : ℤ) * divisor = rest := by
        rw [hrest]
        ring
      rw [hgap, abs_of_nonneg (by omega)]
      refine ⟨by omega, fun htie => ?_⟩
      rw [Int.even_coe_nat, Nat.even_iff]
      omega
  constructor
  · rw [hdist, hcast]
    exact mul_le_mul_of_nonneg_right (by exact_mod_cast hkey.1) hpow.le
  · intro htie
    rw [hdist, hcast] at htie
    exact hkey.2 (by exact_mod_cast mul_right_cancel₀ hpow.ne' htie)

/-- **Rounding half to even** gives the nearest number with the digits of the precision. -/
theorem finish_roundedTo (hrounding : ctx.rounding = .half_even) (hne : x.coefficient ≠ 0)
    (hexponent : ctx.Etiny ≤ x.exponent) (h : ctx.finish x = .ok y) :
    RoundedTo ctx.prec x.value y.value := by
  have hten : (10 : ℚ) ≠ 0 := by norm_num
  have hdigits : 1 ≤ x.digits := Nat.le_add_left _ _
  set e := x.exponent + x.digits - ctx.prec with he
  have hlow : (10 : ℚ) ^ ((ctx.prec : ℤ) - 1) * 10 ^ e ≤ x.magnitude := by
    have hcast : (10 : ℚ) ^ (x.digits - 1) ≤ x.coefficient := by
      exact_mod_cast DecimalFloat.pow_digits_le hne
    calc (10 : ℚ) ^ ((ctx.prec : ℤ) - 1) * 10 ^ e = 10 ^ (x.digits - 1) * 10 ^ x.exponent := by
          rw [← zpow_natCast, ← zpow_add₀ hten, ← zpow_add₀ hten]
          congr 1
          omega
      _ ≤ x.magnitude := mul_le_mul_of_nonneg_right hcast (by positivity)
  have hhigh : x.magnitude < (10 : ℚ) ^ (ctx.prec : ℤ) * 10 ^ e := by
    have hcast : (x.coefficient : ℚ) < 10 ^ x.digits := by exact_mod_cast x.lt_pow_digits
    calc x.magnitude < 10 ^ x.digits * 10 ^ x.exponent :=
          mul_lt_mul_of_pos_right hcast (by positivity)
      _ = (10 : ℚ) ^ (ctx.prec : ℤ) * 10 ^ e := by
          rw [← zpow_natCast, ← zpow_add₀ hten, ← zpow_add₀ hten]
          congr 1
          omega
  have hsign := (finish_cases h).1
  have hmagnitude : RoundedTo ctx.prec x.magnitude y.magnitude := by
    rw [RoundedTo, abs_of_nonneg x.magnitude_nonneg]
    unfold finish at h
    rw [if_neg hne] at h
    split at h
    · cases h
    · split at h
      · rename_i hshort
        have hleast : ctx.leastExponent x = e := by
          unfold leastExponent at hshort ⊢
          omega
        rw [hleast] at h hshort
        dsimp only at h
        split at h
        · cases h
        · obtain rfl := Except.ok.inj h
          have hnear := roundTo_nearest hrounding hshort.le
          refine ⟨(ctx.roundTo x e).coefficient, e, ?_, hlow, hhigh, hnear⟩
          rw [carry_magnitude]
          rfl
      · rename_i hlong
        obtain rfl := Except.ok.inj h
        have hle : e ≤ x.exponent := (le_max_left _ _).trans (not_lt.mp hlong)
        have hmultiple : x.magnitude =
            ((x.coefficient * 10 ^ (x.exponent - e).toNat : ℤ) : ℚ) * 10 ^ e := by
          unfold DecimalFloat.magnitude
          rw [← pow_mul_zpow hle]
          push_cast
          ring
        exact ⟨_, e, hmultiple, hlow, hhigh, .of_eq (by positivity) hmultiple⟩
  rw [DecimalFloat.value_eq, DecimalFloat.value_eq, hsign]
  split
  · exact hmagnitude.neg
  · exact hmagnitude

theorem finish_value_iff (hrounding : ctx.rounding = .half_even) (hne : x.coefficient ≠ 0)
    (hexponent : ctx.Etiny ≤ x.exponent) (h : ctx.finish x = .ok y) (l : ℚ) :
    y.value = l ↔ RoundedTo ctx.prec x.value l := by
  have hrounded := finish_roundedTo hrounding hne hexponent h
  exact ⟨fun heq => heq ▸ hrounded, fun hother => hrounded.unique hother⟩

end DecimalContext

end StellarAgent.Lib
