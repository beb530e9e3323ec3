import StellarAgent.Math.Grammar
import StellarAgent.Sdk.Client

set_option autoImplicit false

/-! # Amounts on the chain

`scval::amount` and the decoders `as_i128` and `as_amount` of `sdk/rust/src/scval.rs`. An amount is
cut off at a whole stroop and split into the two halves of an `i128`; the decoder puts the halves
together again and divides. `amounts_survive` says what comes back, when an amount does not fit, and
how far a payment can exceed a limit that was converted apart from it: by less than a stroop, unless
the limit is negative and the payment positive, since both are cut off toward zero
(`substroop_amounts`).
-/

namespace StellarAgent.Sdk

open Lib Math
open Signer (ScVal scValName)

/-! ## Decoding -/

/-- `unexpected` -/
def unexpected {A : Type} (expected : String) (actual : ScVal) : Except StellarAgentError A :=
  .error (.new .ContractError s!"expected {expected} from the contract, got {scValName actual}")

/-- `(i128::from(hi) << 64) | i128::from(lo)` -/
def joinI128 (hi : Int64) (lo : UInt64) : BitVec 128 :=
  (hi.toBitVec.signExtend 128 <<< 64) ||| lo.toBitVec.setWidth 128

/-- `(u128::from(hi) << 64) | u128::from(lo)` -/
def joinU128 (hi lo : UInt64) : BitVec 128 :=
  (hi.toBitVec.setWidth 128 <<< 64) ||| lo.toBitVec.setWidth 128

/-- `scval::as_i128` -/
def asI128 : ScVal → Except StellarAgentError ℤ
  | .I128 hi lo => .ok (joinI128 hi lo).toInt
  | .U128 hi lo =>
      if (joinU128 hi lo).toNat < 2 ^ 127 then .ok (joinU128 hi lo).toNat
      else .error (.new .ContractError "u128 return value does not fit in an i128")
  | .I64 value => .ok value.toInt
  | .U64 value => .ok value.toNat
  | .I32 value => .ok value.toInt
  | .U32 value => .ok value.toNat
  | other => unexpected "an integer" other

/-- `scval::as_amount` -/
def asAmount (value : ScVal) (decimal_places : ℕ) : Except StellarAgentError String := do
  let stroops ← asI128 value
  match Rust.fromStroops stroops decimal_places with
  | .ok text => .ok text
  | .error error => invalid error.text

/-! ## The two halves -/

/-- The range of an `i128` -/
def InI128 (x : ℤ) : Prop := -2 ^ 127 ≤ x ∧ x < 2 ^ 127

instance (x : ℤ) : Decidable (InI128 x) := inferInstanceAs (Decidable (_ ∧ _))

theorem joinI128_eq (hi : Int64) (lo : UInt64) : joinI128 hi lo = hi.toBitVec ++ lo.toBitVec := by
  ext i hlt
  simp [joinI128]
  grind

theorem joinI128_toInt (hi : Int64) (lo : UInt64) :
    (joinI128 hi lo).toInt = 2 ^ 64 * hi.toInt + lo.toNat := by
  rw [joinI128_eq, BitVec.toInt_append]
  rfl

/-- The halves of an `i128` are put together again. -/
theorem asI128_i128Value {x : ℤ} (h : InI128 x) : asI128 (i128Value x) = .ok x := by
  obtain ⟨hlo, hhi⟩ := h
  have hhigh : (Int64.ofInt (x / 2 ^ 64)).toInt = x / 2 ^ 64 :=
    Int64.toInt_ofInt_of_le (by omega) (by omega)
  have hlow : ((UInt64.ofNat (x % 2 ^ 64).toNat).toNat : ℤ) = x % 2 ^ 64 := by
    rw [UInt64.toNat_ofNat']
    omega
  rw [i128Value, asI128, joinI128_toInt, hhigh, hlow]
  congr 1
  omega

/-! ## Amounts -/

/-- What is sent are the halves of the stroops. -/
theorem amountValue_ok {amount : String} {value : ScVal} (h : amountValue amount = .ok value) :
    ∃ a, Decimal.parse amount = .ok a ∧ InI128 (towardZero (a.value * 10 ^ 7)) ∧
      value = i128Value (towardZero (a.value * 10 ^ 7)) := by
  unfold amountValue at h
  cases hstroops : Rust.toStroops amount with
  | error error =>
      rw [hstroops] at h
      cases h
  | ok stroops =>
      obtain ⟨a, hparse, heq⟩ := Rust.toStroops_ok hstroops
      rw [hstroops] at h
      subst heq
      dsimp only at h
      split_ifs at h with hfits
      · cases h
        exact ⟨a, hparse, hfits, rfl⟩
      · cases h

/-- An amount that was read is sent exactly if its stroops fit. -/
theorem amountValue_iff {amount : String} {a : Decimal} (h : Decimal.parse amount = .ok a) :
    (∃ value, amountValue amount = .ok value) ↔ InI128 (towardZero (a.value * 10 ^ 7)) := by
  constructor
  · rintro ⟨value, hvalue⟩
    obtain ⟨b, hb, hfits, -⟩ := amountValue_ok hvalue
    rw [h] at hb
    cases hb
    exact hfits
  · intro hfits
    refine ⟨i128Value (towardZero (a.value * 10 ^ 7)), ?_⟩
    rw [amountValue, Rust.toStroops_eq h]
    exact if_pos hfits

/-- The amount comes back cut off at a whole stroop. -/
theorem asAmount_amountValue {amount : String} {a : Decimal} {value : ScVal}
    (hparse : Decimal.parse amount = .ok a) (h : amountValue amount = .ok value) :
    asAmount value 7 = .ok (fixedText 7 (truncated 7 a.value)) := by
  obtain ⟨b, hb, hfits, rfl⟩ := amountValue_ok h
  rw [hparse] at hb
  cases hb
  rw [asAmount, asI128_i128Value hfits]
  show (match Rust.fromStroops (towardZero (a.value * 10 ^ 7)) 7 with
    | .ok text => Except.ok text
    | .error error => invalid error.text) = _
  rw [Rust.fromStroops_eq _ (by decide)]
  rfl

/-! ## A limit and a payment -/

section Limits

variable {payment limit : String} {p l : Decimal} {paid allowed : ℤ}

theorem stroops_of_parse (hp : Decimal.parse payment = .ok p)
    (h : Rust.toStroops payment = .ok paid) : paid = towardZero (p.value * 10 ^ 7) := by
  rw [Rust.toStroops_eq hp] at h
  exact (Except.ok.inj h).symm

theorem toStroops_mono (hp : Decimal.parse payment = .ok p) (hl : Decimal.parse limit = .ok l)
    (hpaid : Rust.toStroops payment = .ok paid) (hallowed : Rust.toStroops limit = .ok allowed)
    (h : p.value ≤ l.value) : paid ≤ allowed := by
  rw [stroops_of_parse hp hpaid, stroops_of_parse hl hallowed]
  exact towardZero_mono (mul_le_mul_of_nonneg_right h (by norm_num))

/-- A payment that passes exceeds the limit by less than a stroop, if no negative limit meets a
positive payment. -/
theorem payment_within_stroop (hp : Decimal.parse payment = .ok p) (hl : Decimal.parse limit = .ok l)
    (hpaid : Rust.toStroops payment = .ok paid) (hallowed : Rust.toStroops limit = .ok allowed)
    (h : paid ≤ allowed) (hsign : 0 ≤ l.value ∨ p.value ≤ 0) : p.value < l.value + 1 / 10 ^ 7 := by
  rw [stroops_of_parse hp hpaid, stroops_of_parse hl hallowed] at h
  have hscaled : p.value * 10 ^ 7 < l.value * 10 ^ 7 + 1 := by
    refine lt_add_one_of_towardZero_le h ?_
    rcases hsign with hl | hp
    · exact .inl (mul_nonneg hl (by norm_num))
    · exact .inr (mul_nonpos_of_nonpos_of_nonneg hp (by norm_num))
  linarith

theorem payment_within_two (hp : Decimal.parse payment = .ok p) (hl : Decimal.parse limit = .ok l)
    (hpaid : Rust.toStroops payment = .ok paid) (hallowed : Rust.toStroops limit = .ok allowed)
    (h : paid ≤ allowed) : p.value < l.value + 2 / 10 ^ 7 := by
  rw [stroops_of_parse hp hpaid, stroops_of_parse hl hallowed] at h
  have hscaled := lt_add_two_of_towardZero_le h
  linarith

end Limits

/-- **Amounts survive the trip to the chain and back.** An amount that the parser takes is sent
exactly if its stroops fit an `i128`, and comes back cut off at seven places; the halves of an
`i128` are put together again; larger amounts have no fewer stroops, and a payment that passes a
limit in stroops exceeds it by less than one stroop, or by less than two where a negative limit
meets a positive payment. -/
theorem amounts_survive :
    (∀ amount a, Decimal.parse amount = .ok a →
      ((∃ value, amountValue amount = .ok value) ↔ InI128 (towardZero (a.value * 10 ^ 7))) ∧
        ∀ value, amountValue amount = .ok value →
          asAmount value 7 = .ok (fixedText 7 (truncated 7 a.value))) ∧
    (∀ amount value, amountValue amount = .ok value → ∃ a, Decimal.parse amount = .ok a) ∧
    (∀ x, InI128 x → asI128 (i128Value x) = .ok x) ∧
    ∀ payment limit p l paid allowed,
      Decimal.parse payment = .ok p → Decimal.parse limit = .ok l →
      Rust.toStroops payment = .ok paid → Rust.toStroops limit = .ok allowed →
      (p.value ≤ l.value → paid ≤ allowed) ∧
        (paid ≤ allowed → (0 ≤ l.value ∨ p.value ≤ 0 → p.value < l.value + 1 / 10 ^ 7) ∧
          p.value < l.value + 2 / 10 ^ 7) := by
  refine ⟨fun amount a h => ⟨amountValue_iff h, fun value hv => asAmount_amountValue h hv⟩,
    fun amount value h => ?_, fun x => asI128_i128Value, ?_⟩
  · obtain ⟨a, ha, -, -⟩ := amountValue_ok h
    exact ⟨a, ha⟩
  · intro payment limit p l paid allowed hp hl hpaid hallowed
    exact ⟨toStroops_mono hp hl hpaid hallowed, fun h =>
      ⟨payment_within_stroop hp hl hpaid hallowed h, payment_within_two hp hl hpaid hallowed h⟩⟩

/-- A payment of `0.00000009` passes a limit of `-0.00000009`, almost two stroops below it. And
`1e-10001` has no stroop at all, but is not taken. -/
theorem substroop_amounts :
    (∃ p l, Decimal.parse "0.00000009" = .ok p ∧ Decimal.parse "-0.00000009" = .ok l ∧
      Rust.toStroops "0.00000009" = .ok 0 ∧ Rust.toStroops "-0.00000009" = .ok 0 ∧
        l.value + 1 / 10 ^ 7 < p.value) ∧
    ∃ literal : DecimalLiteral, literal.Spells "1e-10001" ∧
      towardZero (literal.value * 10 ^ 7) = 0 ∧ ∀ value, amountValue "1e-10001" ≠ .ok value := by
  have hpayment : Decimal.parse "0.00000009" = .ok ⟨9, 8⟩ := rfl
  have hlimit : Decimal.parse "-0.00000009" = .ok ⟨-9, 8⟩ := rfl
  refine ⟨⟨⟨9, 8⟩, ⟨-9, 8⟩, hpayment, hlimit, ?_, ?_, ?_⟩,
    ⟨false, ['1'], [], -10001⟩, ?_, ?_, ?_⟩
  · rfl
  · rfl
  · norm_num [Decimal.value]
  · refine ⟨[], [], ['1'], "e-10001".toList, [], rfl, ?_, ?_, .none, .whole ?_ (by simp), ?_⟩
    · exact fun c hc => absurd hc List.not_mem_nil
    · exact fun c hc => absurd hc List.not_mem_nil
    · simp [IsDigits]
    · have hdigits : IsDigits ['1', '0', '0', '0', '1'] := by simp [IsDigits]
      exact .some (.inl rfl) .minus hdigits (by simp)
  · have hvalue : (DecimalLiteral.mk false ['1'] [] (-10001)).value * 10 ^ 7 =
        (10 : ℚ) ^ (-9994 : ℤ) := by
      have hone : (digitsValue ['1'] : ℚ) = 1 := by
        have hdigit : digitsValue ['1'] = 1 := rfl
        rw [hdigit, Nat.cast_one]
      have hnone : (digitsValue [] : ℚ) = 0 := Nat.cast_zero
      have hsum : (-9994 : ℤ) = -10001 + (7 : ℕ) := by norm_num
      rw [hsum, zpow_add₀ (by norm_num), zpow_natCast]
      simp only [DecimalLiteral.value, hone, hnone, Bool.false_eq_true, if_false, zero_div,
        add_zero, one_mul]
    rw [hvalue, towardZero, if_pos (by positivity), Int.floor_eq_zero_iff]
    exact ⟨by positivity, zpow_lt_one_of_neg₀ (by norm_num) (by norm_num)⟩
  · intro value h
    obtain ⟨a, ha, -, -⟩ := amountValue_ok h
    have herror : Decimal.parse "1e-10001" = .error (.ScaleTooLarge 10001) := rfl
    rw [herror] at ha
    cases ha

end StellarAgent.Sdk
