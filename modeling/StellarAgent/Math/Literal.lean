import Mathlib.Data.List.DropRight
import StellarAgent.Lib.DecimalText
import StellarAgent.Math.Decimal

set_option autoImplicit false

/-! # Decimal literals of the Rust SDK

`Decimal::parse` and `Decimal::to_fixed` of `sdk/rust/src/math/decimal.rs`, on the characters of a
string. What `toFixed` writes is the text of the value (`toFixed_eq`), and it is read back as the
value cut off at the same place (`parse_fixedText`).
-/

namespace StellarAgent.Math

open Lib

/-- Failure modes of `Decimal::parse` -/
inductive ParseDecimalError where
  | Syntax (input : String)
  | NotFinite (input : String)
  | ScaleTooLarge (scale : ℤ)

/-! ## Parsing -/

/-- The white space of `str::trim` -/
def isWhitespace (c : Char) : Bool :=
  decide (9 ≤ c.toNat ∧ c.toNat ≤ 13 ∨ 0x2000 ≤ c.toNat ∧ c.toNat ≤ 0x200A ∨
    c.toNat ∈ [32, 0x85, 0xA0, 0x1680, 0x2028, 0x2029, 0x202F, 0x205F, 0x3000])

def trim (cs : List Char) : List Char := (cs.dropWhile isWhitespace).rdropWhile isWhitespace

def eqIgnoreAsciiCase (cs ds : List Char) : Bool := cs.map Char.toLower == ds.map Char.toLower

/-- A sign in front, and what follows it -/
def stripSign : List Char → Bool × List Char
  | '-' :: rest => (true, rest)
  | '+' :: rest => (false, rest)
  | rest => (false, rest)

def namesNoFinite (unsigned_probe : List Char) : Bool :=
  eqIgnoreAsciiCase unsigned_probe "nan".toList || eqIgnoreAsciiCase unsigned_probe "inf".toList ||
    eqIgnoreAsciiCase unsigned_probe "infinity".toList

def i64Max : ℕ := 2 ^ 63 - 1

/-- `parse_exponent`; a magnitude that is no `i64` saturates. -/
def parseExponent (digits : List Char) : Option ℤ :=
  let (negative, magnitude) := stripSign digits
  if magnitude = [] ∨ ¬ magnitude.all Char.isDigit then none
  else
    let read := Nat.ofDigitChars 10 magnitude 0
    let value : ℤ := if read ≤ i64Max then read else i64Max / 2
    some (if negative then -value else value)

/-- The mantissa and the exponent -/
def splitExponent (rest : List Char) : Option (List Char × ℤ) :=
  match rest.dropWhile fun c => !(c == 'e' || c == 'E') with
  | [] => some (rest, 0)
  | _ :: digits =>
      (parseExponent digits).map fun exponent =>
        (rest.takeWhile fun c => !(c == 'e' || c == 'E'), exponent)

/-- The digits before the point and those after it -/
def splitPoint (mantissa : List Char) : List Char × List Char :=
  (mantissa.takeWhile (· != '.'), (mantissa.dropWhile (· != '.')).tail)

/-- `unscaled / 10 ^ scale`, with a negative scale multiplied out -/
def withScale (unscaled : ℤ) (scale : ℤ) : Except ParseDecimalError Decimal :=
  if scale > MAX_SCALE then .error (.ScaleTooLarge scale)
  else if scale < 0 then
    if -scale > MAX_SCALE then .error (.ScaleTooLarge scale)
    else .ok { unscaled := unscaled * 10 ^ (-scale).toNat, scale := 0 }
  else .ok { unscaled, scale := scale.toNat }

namespace Decimal

/-- The digits of a literal without its sign -/
def parseUnsigned (input : String) (negative : Bool) (rest : List Char) :
    Except ParseDecimalError Decimal :=
  match splitExponent rest with
  | none => .error (.Syntax input)
  | some (mantissa, exponent) =>
      let (int_part, frac_part) := splitPoint mantissa
      if int_part = [] ∧ frac_part = [] then .error (.Syntax input)
      else if ¬ (int_part.all Char.isDigit ∧ frac_part.all Char.isDigit) then
        .error (.Syntax input)
      else
        let digits : ℤ := Nat.ofDigitChars 10 (int_part ++ frac_part) 0
        withScale (if negative then -digits else digits) (frac_part.length - exponent)

/-- `Decimal::parse` -/
def parse (input : String) : Except ParseDecimalError Decimal :=
  let trimmed := trim input.toList
  if trimmed = [] then .error (.Syntax input)
  else if namesNoFinite (stripSign trimmed).2 then .error (.NotFinite input)
  else parseUnsigned input (stripSign trimmed).1 (stripSign trimmed).2

/-- `Decimal::to_fixed` -/
def toFixed (a : Decimal) (places : ℕ) : String :=
  let places := min places MAX_SCALE
  let truncated := (a.truncate places).rescale places
  String.ofList (fixedChars a.isNegative truncated.unscaled.natAbs places)

/-! ## What is accepted -/

theorem withScale_scale {unscaled scale : ℤ} {a : Decimal} (h : withScale unscaled scale = .ok a) :
    a.scale ≤ MAX_SCALE := by
  unfold withScale at h
  split_ifs at h with hlarge hnegative hshift
  · cases h
    exact Nat.zero_le _
  · cases h
    show scale.toNat ≤ MAX_SCALE
    omega

/-- A literal has at most `MAX_SCALE` decimal places. -/
theorem parse_scale {input : String} {a : Decimal} (h : parse input = .ok a) :
    a.scale ≤ MAX_SCALE := by
  unfold parse at h
  dsimp only at h
  split_ifs at h with hempty hprobe
  unfold parseUnsigned at h
  split at h
  · cases h
  · dsimp only at h
    split_ifs at h
    all_goals exact withScale_scale h

/-! ## Plain literals -/

section

variable {c d : Char} {cs ds : List Char}

theorem digit_toNat (hc : c.isDigit = true) : 48 ≤ c.toNat ∧ c.toNat ≤ 57 := by
  rw [Char.isDigit, Bool.and_eq_true, decide_eq_true_eq, decide_eq_true_eq] at hc
  exact hc

theorem digit_not_whitespace (hc : c.isDigit = true) : isWhitespace c = false := by
  have hrange := digit_toNat hc
  rw [isWhitespace, decide_eq_false_iff_not]
  intro h
  simp only [List.mem_cons, List.not_mem_nil, or_false] at h
  omega

theorem digit_ne (hc : c.isDigit = true) (hd : d.isDigit = false) : c ≠ d := by
  rintro rfl
  rw [hc] at hd
  cases hd

theorem trim_eq_self (h : ∀ c ∈ cs, isWhitespace c = false) : trim cs = cs := by
  have hfront : cs.dropWhile isWhitespace = cs := by
    cases cs with
    | nil => rfl
    | cons c cs => exact List.dropWhile_cons_of_neg (by simp [h c List.mem_cons_self])
  rw [trim, hfront, List.rdropWhile_eq_self_iff]
  intro hne
  rw [h _ (List.getLast_mem hne)]
  simp

/-- What starts with a digit is neither `nan` nor an infinity. -/
theorem namesNoFinite_digit (hc : c.isDigit = true) : namesNoFinite (c :: cs) = false := by
  have hrange := digit_toNat hc
  have hlower : c.toLower = c := by
    have hsmall : ¬ (c.val ≥ 'A'.val ∧ c.val ≤ 'Z'.val) := by
      rintro ⟨hlarge, _⟩
      have : 65 ≤ c.toNat := hlarge
      omega
    exact dif_neg hsmall
  have hother : ∀ d ds, d.toLower.isDigit = false → eqIgnoreAsciiCase (c :: cs) (d :: ds) = false := by
    intro d ds hd
    rw [eqIgnoreAsciiCase, beq_eq_false_iff_ne]
    intro h
    have hhead : c.toLower = d.toLower := (List.cons.inj h).1
    rw [hlower] at hhead
    exact digit_ne hc hd hhead
  have hnan := hother 'n' ['a', 'n'] (by decide)
  have hinf := hother 'i' ['n', 'f'] (by decide)
  have hinfinity := hother 'i' ['n', 'f', 'i', 'n', 'i', 't', 'y'] (by decide)
  rw [namesNoFinite]
  simp [hnan, hinf, hinfinity]

theorem stripSign_digit (hc : c.isDigit = true) : stripSign (c :: cs) = (false, c :: cs) := by
  have hminus : c ≠ '-' := digit_ne hc (by decide)
  have hplus : c ≠ '+' := digit_ne hc (by decide)
  unfold stripSign
  split
  · rename_i heq
    exact absurd (List.cons.inj heq).1 hminus
  · rename_i heq
    exact absurd (List.cons.inj heq).1 hplus
  · rfl

/-- Without an exponent all is mantissa. -/
theorem splitExponent_none (h : ∀ c ∈ cs, c ≠ 'e' ∧ c ≠ 'E') : splitExponent cs = some (cs, 0) := by
  have hdrop : (cs.dropWhile fun c => !(c == 'e' || c == 'E')) = [] := by
    rw [List.dropWhile_eq_nil_iff]
    intro c hc
    simp [h c hc]
  rw [splitExponent, hdrop]

theorem splitPoint_eq (hcs : ∀ c ∈ cs, c ≠ '.') : splitPoint (cs ++ '.' :: ds) = (cs, ds) := by
  have hall : ∀ c ∈ cs, (c != '.') = true := fun c hc => by simp [hcs c hc]
  rw [splitPoint, List.takeWhile_append_of_pos hall, List.dropWhile_append_of_pos hall]
  simp

/-- **Digits with a point among them are read as such.** -/
theorem parse_plain (negative : Bool) (hne : cs ≠ []) (hcs : ∀ c ∈ cs, c.isDigit = true)
    (hds : ∀ d ∈ ds, d.isDigit = true) (hlen : ds.length ≤ MAX_SCALE) :
    parse (String.ofList ((if negative then ['-'] else []) ++ (cs ++ '.' :: ds))) =
      .ok {
        unscaled := if negative then -(Nat.ofDigitChars 10 (cs ++ ds) 0 : ℤ)
          else (Nat.ofDigitChars 10 (cs ++ ds) 0 : ℤ)
        scale := ds.length } := by
  obtain ⟨first, others, rfl⟩ := List.exists_cons_of_ne_nil hne
  have hfirst : first.isDigit = true := hcs first List.mem_cons_self
  have hchar : ∀ c ∈ first :: others ++ '.' :: ds, c.isDigit = true ∨ c = '.' := by
    intro c hc
    rcases List.mem_append.mp hc with hc | hc
    · exact .inl (hcs c hc)
    · rcases List.mem_cons.mp hc with rfl | hc
      · exact .inr rfl
      · exact .inl (hds c hc)
  have htrim : trim ((if negative then ['-'] else []) ++ (first :: others ++ '.' :: ds)) =
      (if negative then ['-'] else []) ++ (first :: others ++ '.' :: ds) := by
    refine trim_eq_self fun c hc => ?_
    rcases List.mem_append.mp hc with hc | hc
    · cases negative with
      | true =>
          rw [List.mem_singleton.mp hc]
          decide
      | false => cases hc
    · rcases hchar c hc with hdigit | rfl
      · exact digit_not_whitespace hdigit
      · decide
  have hstrip : stripSign ((if negative then ['-'] else []) ++ (first :: others ++ '.' :: ds)) =
      (negative, first :: others ++ '.' :: ds) := by
    cases negative with
    | true => rfl
    | false => exact stripSign_digit hfirst
  have hexponent : splitExponent (first :: others ++ '.' :: ds) =
      some (first :: others ++ '.' :: ds, 0) := by
    refine splitExponent_none fun c hc => ?_
    rcases hchar c hc with hdigit | rfl
    · exact ⟨digit_ne hdigit (by decide), digit_ne hdigit (by decide)⟩
    · decide
  have hpoint : splitPoint (first :: others ++ '.' :: ds) = (first :: others, ds) :=
    splitPoint_eq fun c hc => digit_ne (hcs c hc) (by decide)
  have hall : (first :: others).all Char.isDigit = true ∧ ds.all Char.isDigit = true :=
    ⟨List.all_eq_true.mpr hcs, List.all_eq_true.mpr hds⟩
  have hprobe : namesNoFinite (first :: others ++ '.' :: ds) = false := namesNoFinite_digit hfirst
  rw [parse, String.toList_ofList, htrim, hstrip]
  dsimp only
  rw [if_neg (by simp), hprobe, if_neg (by simp), parseUnsigned, hexponent]
  dsimp only
  rw [hpoint]
  dsimp only
  rw [if_neg (by simp), if_neg (not_not.mpr hall), withScale, if_neg (by omega),
    if_neg (by omega)]
  simp

end

/-! ## Text -/

/-- `toFixed` writes the text of the value. -/
theorem toFixed_eq (a : Decimal) {places : ℕ} (h : places ≤ MAX_SCALE) :
    a.toFixed places = fixedText places a.value := by
  have hrescale : ((a.truncate places).rescale places).unscaled = (a.truncate places).unscaled := by
    rw [rescale, if_pos (a.truncate_scale places).ge]
  have hsign : a.isNegative = decide (a.value < 0) := by
    rw [isNegative, decide_eq_decide, ← not_le, ← not_le, value_nonneg]
  simp only [toFixed, min_eq_left h, hrescale, truncate_unscaled, hsign]
  rfl

/-- **A text with a point is read as what it was cut off from.** -/
theorem parse_fixedText (q : ℚ) {places : ℕ} (hpos : 0 < places) (h : places ≤ MAX_SCALE) :
    parse (fixedText places q) = .ok {
      unscaled := towardZero (q * 10 ^ places)
      scale := places } := by
  have hpoint : fixedText places q = String.ofList ((if decide (q < 0) = true then ['-'] else []) ++
      (wholeChars (towardZero (q * 10 ^ places)).natAbs places ++
        '.' :: fractionChars (towardZero (q * 10 ^ places)).natAbs places)) := by
    rw [fixedText, fixedChars, if_neg hpos.ne', List.append_assoc]
  have hlen := length_fractionChars (towardZero (q * 10 ^ places)).natAbs places
  rw [hpoint, parse_plain _ (wholeChars_ne_nil _ _) isDigit_wholeChars isDigit_fractionChars
    (hlen.trans_le h), hlen, ofDigitChars_fixed]
  have hpow : (0 : ℚ) < 10 ^ places := by positivity
  congr 2
  by_cases hneg : q < 0
  · have hnonpos := towardZero_nonpos (mul_nonpos_of_nonpos_of_nonneg hneg.le hpow.le)
    rw [if_pos (decide_eq_true hneg), Int.ofNat_natAbs_of_nonpos hnonpos, neg_neg]
  · have hnonneg := towardZero_nonneg (mul_nonneg (not_lt.mp hneg) hpow.le)
    rw [if_neg (by simpa using hneg), Int.natAbs_of_nonneg hnonneg]

/-- Values with the same text are the same up to the places of the text. -/
theorem fixedText_inj {p q : ℚ} {places : ℕ} (hpos : 0 < places) (h : places ≤ MAX_SCALE)
    (htext : fixedText places p = fixedText places q) : truncated places p = truncated places q := by
  have hp := parse_fixedText p hpos h
  rw [htext, parse_fixedText q hpos h] at hp
  have hdigits : towardZero (q * 10 ^ places) = towardZero (p * 10 ^ places) :=
    congrArg Decimal.unscaled (Except.ok.inj hp)
  rw [truncated, truncated, hdigits]

end Decimal

end StellarAgent.Math
