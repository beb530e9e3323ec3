import StellarAgent.Math.Literal

set_option autoImplicit false

/-! # The grammar of decimal literals

What `Decimal::parse` of `sdk/rust/src/math/decimal.rs` accepts, stated against a grammar: white
space, a sign, digits with a point among them, an exponent and white space again. The scale of a
literal is computed in `i64`. `parse_exponent` saturates an exponent that is no `i64`, so that the
bound on the scale rejects it, but the subtraction of an exponent just above `-i64::MAX` can still
overflow; `parseChecked` is `parse` with that overflow as a stop. `decimal_text_iff` says which
values are printed and read back, and on which texts the parser does what the grammar says.
-/

namespace StellarAgent.Math

open Lib Decimal

/-! ## Literals -/

/-- The number that decimal digits stand for -/
def digitsValue (digits : List Char) : ℕ := Nat.ofDigitChars 10 digits 0

def signed (negative : Bool) (n : ℤ) : ℤ := if negative then -n else n

/-- What a literal says. -/
structure DecimalLiteral where
  negative : Bool
  whole : List Char
  fraction : List Char
  exponent : ℤ

namespace DecimalLiteral

/-- The rational that a literal denotes. -/
def value (l : DecimalLiteral) : ℚ :=
  (if l.negative then -1 else 1) *
    (digitsValue l.whole + digitsValue l.fraction / 10 ^ l.fraction.length) * 10 ^ l.exponent

/-- The decimal places of a literal, the shift to the left if negative -/
def scale (l : DecimalLiteral) : ℤ := l.fraction.length - l.exponent

end DecimalLiteral

/-- The scales and the shifts that the type allows -/
def ScaleInRange (scale : ℤ) : Prop := -(MAX_SCALE : ℤ) ≤ scale ∧ scale ≤ MAX_SCALE

def IsDigits (cs : List Char) : Prop := ∀ c ∈ cs, c.isDigit = true

def IsBlank (cs : List Char) : Prop := ∀ c ∈ cs, isWhitespace c = true

/-- `[+-]`, and whether it is the minus -/
inductive SignText : Bool → List Char → Prop where
  | none : SignText false []
  | plus : SignText false ['+']
  | minus : SignText true ['-']

/-- `digits[.digits*] | .digits`, with the digits before and after the point -/
inductive MantissaText : List Char → List Char → List Char → Prop where
  | whole {whole : List Char} : IsDigits whole → whole ≠ [] → MantissaText whole [] whole
  | point {whole fraction : List Char} : IsDigits whole → IsDigits fraction →
      whole ≠ [] ∨ fraction ≠ [] → MantissaText whole fraction (whole ++ '.' :: fraction)

/-- `[(e|E)[+-]digits]`, with its number -/
inductive ExponentText : ℤ → List Char → Prop where
  | none : ExponentText 0 []
  | some {e : Char} {negative : Bool} {sign digits : List Char} : e = 'e' ∨ e = 'E' →
      SignText negative sign → IsDigits digits → digits ≠ [] →
      ExponentText (signed negative (digitsValue digits)) (e :: (sign ++ digits))

/-- `input` spells the literal, with white space around it. -/
def DecimalLiteral.Spells (l : DecimalLiteral) (input : String) : Prop :=
  ∃ front sign mantissa exponent back : List Char,
    input.toList = front ++ (sign ++ (mantissa ++ exponent)) ++ back ∧ IsBlank front ∧
      IsBlank back ∧ SignText l.negative sign ∧ MantissaText l.whole l.fraction mantissa ∧
        ExponentText l.exponent exponent

/-! ## The code in checked arithmetic -/

/-- The last steps of `Decimal::parse`, in `i64`. The exponent is at most `i64::MAX`, so only a
negative one can overflow the subtraction, and then the code stops. -/
def checkedWithScale (unscaled : ℤ) (frac_len : ℕ) (exponent : ℤ) :
    Option (Except ParseDecimalError Decimal) :=
  if i64Max < frac_len then some (.error (.ScaleTooLarge i64Max))
  else if (i64Max : ℤ) < frac_len - exponent then none
  else some (withScale unscaled (frac_len - exponent))

namespace Decimal

def parseUnsignedChecked (input : String) (negative : Bool) (rest : List Char) :
    Option (Except ParseDecimalError Decimal) :=
  match splitExponent rest with
  | none => some (.error (.Syntax input))
  | some (mantissa, exponent) =>
      let (int_part, frac_part) := splitPoint mantissa
      if int_part = [] ∧ frac_part = [] then some (.error (.Syntax input))
      else if ¬ (int_part.all Char.isDigit ∧ frac_part.all Char.isDigit) then
        some (.error (.Syntax input))
      else
        let digits : ℤ := Nat.ofDigitChars 10 (int_part ++ frac_part) 0
        checkedWithScale (if negative then -digits else digits) frac_part.length exponent

/-- `Decimal::parse` with overflow checks; `none` is an overflow. -/
def parseChecked (input : String) : Option (Except ParseDecimalError Decimal) :=
  let trimmed := trim input.toList
  if trimmed = [] then some (.error (.Syntax input))
  else if namesNoFinite (stripSign trimmed).2 then some (.error (.NotFinite input))
  else parseUnsignedChecked input (stripSign trimmed).1 (stripSign trimmed).2

/-- `Decimal::to_plain_string` -/
def toPlainString (a : Decimal) : String := a.toFixed a.scale

end Decimal

/-! ## Characters -/

section Characters

variable {cs front core back : List Char}

theorem trim_padded (hfront : IsBlank front) (hback : IsBlank back) (hne : core ≠ [])
    (hcore : ∀ c ∈ core, isWhitespace c = false) : trim (front ++ core ++ back) = core := by
  have hdrop : ∀ cs rest : List Char, cs ≠ [] → (∀ c ∈ cs, isWhitespace c = false) →
      (cs ++ rest).dropWhile isWhitespace = cs ++ rest := by
    intro cs rest hne hcs
    obtain ⟨c, others, rfl⟩ := List.exists_cons_of_ne_nil hne
    rw [List.cons_append, List.dropWhile_cons_of_neg]
    simp [hcs c List.mem_cons_self]
  have hfirst : (front ++ core ++ back).dropWhile isWhitespace = core ++ back := by
    rw [List.append_assoc, List.dropWhile_append_of_pos hfront, hdrop core back hne hcore]
  have hlast : (core ++ back).reverse.dropWhile isWhitespace = core.reverse := by
    have hback' : ∀ c ∈ back.reverse, isWhitespace c = true := fun c hc =>
      hback c (List.mem_reverse.mp hc)
    have hcore' : ∀ c ∈ core.reverse, isWhitespace c = false := fun c hc =>
      hcore c (List.mem_reverse.mp hc)
    have h := hdrop core.reverse [] (by simpa using hne) hcore'
    rw [List.append_nil] at h
    rw [List.reverse_append, List.dropWhile_append_of_pos hback', h]
  rw [trim, hfirst, List.rdropWhile, hlast, List.reverse_reverse]

/-- Trimming takes white space away on both sides. -/
theorem trim_spec (cs : List Char) :
    ∃ front back, cs = front ++ trim cs ++ back ∧ IsBlank front ∧ IsBlank back := by
  have hblank : ∀ cs : List Char, IsBlank (cs.takeWhile isWhitespace) := fun cs c hc =>
    List.mem_takeWhile_imp hc
  refine ⟨cs.takeWhile isWhitespace,
    ((cs.dropWhile isWhitespace).reverse.takeWhile isWhitespace).reverse, ?_, hblank _, ?_⟩
  · rw [trim, List.rdropWhile, List.append_assoc, ← List.reverse_append,
      List.takeWhile_append_dropWhile, List.reverse_reverse, List.takeWhile_append_dropWhile]
  · exact fun c hc => hblank _ c (List.mem_reverse.mp hc)

/-- The sign is what `stripSign` takes off. -/
theorem stripSign_spec (cs : List Char) :
    ∃ sign, cs = sign ++ (stripSign cs).2 ∧ SignText (stripSign cs).1 sign := by
  unfold stripSign
  split
  · exact ⟨_, rfl, .minus⟩
  · exact ⟨_, rfl, .plus⟩
  · exact ⟨_, rfl, .none⟩

theorem stripSign_sign {negative : Bool} {sign : List Char} (h : SignText negative sign)
    (hplus : cs.head? ≠ some '+') (hminus : cs.head? ≠ some '-') :
    stripSign (sign ++ cs) = (negative, cs) := by
  cases h with
  | none =>
      show stripSign cs = (false, cs)
      unfold stripSign
      split
      · exact absurd rfl hminus
      · exact absurd rfl hplus
      · rfl
  | plus => rfl
  | minus => rfl

end Characters

/-! ## The parts of a literal -/

def notExponent (c : Char) : Bool := !(c == 'e' || c == 'E')

theorem digit_notExponent {c : Char} (hc : c.isDigit = true) : notExponent c = true := by
  have he : c ≠ 'e' := digit_ne hc (by decide)
  have hE : c ≠ 'E' := digit_ne hc (by decide)
  simp [notExponent, he, hE]

section Parts

variable {whole fraction mantissa exponent digits sign : List Char} {e : ℤ} {negative : Bool}

/-- A mantissa has digits and points only. -/
theorem MantissaText.chars (h : MantissaText whole fraction mantissa) :
    ∀ c ∈ mantissa, c.isDigit = true ∨ c = '.' := by
  cases h with
  | whole hwhole _ => exact fun c hc => .inl (hwhole c hc)
  | point hwhole hfraction _ =>
      intro c hc
      rcases List.mem_append.mp hc with hc | hc
      · exact .inl (hwhole c hc)
      · rcases List.mem_cons.mp hc with rfl | hc
        · exact .inr rfl
        · exact .inl (hfraction c hc)

theorem SignText.not_blank (h : SignText negative sign) : ∀ c ∈ sign, isWhitespace c = false := by
  intro c hc
  cases h with
  | none => cases hc
  | plus =>
      rw [List.mem_singleton.mp hc]
      decide
  | minus =>
      rw [List.mem_singleton.mp hc]
      decide

theorem MantissaText.not_blank (h : MantissaText whole fraction mantissa) :
    ∀ c ∈ mantissa, isWhitespace c = false := by
  intro c hc
  rcases h.chars c hc with hdigit | rfl
  · exact digit_not_whitespace hdigit
  · decide

theorem MantissaText.notExponent (h : MantissaText whole fraction mantissa) :
    ∀ c ∈ mantissa, notExponent c = true := by
  intro c hc
  rcases h.chars c hc with hdigit | rfl
  · exact digit_notExponent hdigit
  · decide

theorem ExponentText.not_blank (h : ExponentText e exponent) :
    ∀ c ∈ exponent, isWhitespace c = false := by
  intro c hc
  cases h with
  | none => cases hc
  | some he hsign hdigits _ =>
      rcases List.mem_cons.mp hc with rfl | hc
      · rcases he with rfl | rfl <;> decide
      · rcases List.mem_append.mp hc with hc | hc
        · exact hsign.not_blank c hc
        · exact digit_not_whitespace (hdigits c hc)

theorem MantissaText.ne_nil (h : MantissaText whole fraction mantissa) : mantissa ≠ [] := by
  cases h with
  | whole _ hne => exact hne
  | point _ _ _ => simp

theorem MantissaText.isDigits (h : MantissaText whole fraction mantissa) :
    IsDigits whole ∧ IsDigits fraction ∧ (whole ≠ [] ∨ fraction ≠ []) := by
  cases h with
  | whole hwhole hne => exact ⟨hwhole, by simp [IsDigits], .inl hne⟩
  | point hwhole hfraction hne => exact ⟨hwhole, hfraction, hne⟩

theorem MantissaText.splitPoint (h : MantissaText whole fraction mantissa) :
    splitPoint mantissa = (whole, fraction) := by
  cases h with
  | whole hwhole _ =>
      have hall : ∀ c ∈ whole, (c != '.') = true := fun c hc => by
        simpa using digit_ne (hwhole c hc) (by decide)
      rw [Math.splitPoint, List.takeWhile_eq_self_iff.mpr hall, List.dropWhile_eq_nil_iff.mpr hall]
      rfl
  | point hwhole _ _ => exact splitPoint_eq fun c hc => digit_ne (hwhole c hc) (by decide)

/-- What is cut at the point and is digits on both sides is a mantissa. -/
theorem mantissaText_of_split (h : splitPoint mantissa = (whole, fraction))
    (hwhole : IsDigits whole) (hfraction : IsDigits fraction) (hne : whole ≠ [] ∨ fraction ≠ []) :
    MantissaText whole fraction mantissa := by
  obtain ⟨hfront, hback⟩ := Prod.mk.inj h
  have hcut := List.takeWhile_append_dropWhile (p := (· != '.')) (l := mantissa)
  rw [hfront] at hcut
  cases hrest : mantissa.dropWhile (· != '.') with
  | nil =>
      rw [hrest] at hback hcut
      rw [List.append_nil] at hcut
      subst hback hcut
      exact .whole hwhole (by simpa using hne)
  | cons c others =>
      have hpoint : c = '.' := by
        have hnot := List.head_dropWhile_not (· != '.') (l := mantissa) (by rw [hrest]; simp)
        simpa [hrest] using hnot
      rw [hrest] at hback hcut
      subst hback hpoint hcut
      exact .point hwhole hfraction hne

/-- What `parse_exponent` makes of an exponent that is no `i64` -/
def saturate (e : ℤ) : ℤ :=
  if e.natAbs ≤ i64Max then e else if e < 0 then -((i64Max : ℤ) / 2) else (i64Max : ℤ) / 2

theorem parseExponent_eq (hsign : SignText negative sign) (hdigits : IsDigits digits)
    (hne : digits ≠ []) :
    parseExponent (sign ++ digits) = some (saturate (signed negative (digitsValue digits))) := by
  obtain ⟨first, others, rfl⟩ := List.exists_cons_of_ne_nil hne
  have hfirst := hdigits first List.mem_cons_self
  have hplus : (first :: others).head? ≠ some '+' := by
    simpa using digit_ne hfirst (by decide)
  have hminus : (first :: others).head? ≠ some '-' := by
    simpa using digit_ne hfirst (by decide)
  have hall : (first :: others).all Char.isDigit = true := List.all_eq_true.mpr hdigits
  rw [parseExponent, stripSign_sign hsign hplus hminus]
  dsimp only
  rw [if_neg (by simp only [reduceCtorEq, false_or, not_not]; exact hall), ← digitsValue]
  congr 1
  cases negative with
  | false =>
      simp only [signed, Bool.false_eq_true, if_false, saturate, Int.natAbs_natCast]
      split_ifs with hfits hneg
      · rfl
      · omega
      · rfl
  | true =>
      simp only [signed, if_true, saturate, Int.natAbs_neg, Int.natAbs_natCast]
      split_ifs with hfits hneg
      · rfl
      · rfl
      · omega

theorem ExponentText.takeWhile (h : ExponentText e exponent) (hmantissa : ∀ c ∈ mantissa,
    notExponent c = true) : (mantissa ++ exponent).takeWhile notExponent = mantissa ∧
      (mantissa ++ exponent).dropWhile notExponent = exponent := by
  rw [List.takeWhile_append_of_pos hmantissa, List.dropWhile_append_of_pos hmantissa]
  cases h with
  | none => simp
  | some he _ _ _ => rcases he with rfl | rfl <;> simp [notExponent]

theorem splitExponent_eq (h : ExponentText e exponent)
    (hmantissa : ∀ c ∈ mantissa, notExponent c = true) :
    splitExponent (mantissa ++ exponent) = some (mantissa, saturate e) := by
  obtain ⟨htake, hdrop⟩ := h.takeWhile hmantissa
  unfold notExponent at htake hdrop
  rw [splitExponent, htake, hdrop]
  cases h with
  | none =>
      simp only [List.append_nil]
      rfl
  | some _ hsign hdigits hne =>
      dsimp only
      rw [parseExponent_eq hsign hdigits hne]
      rfl

/-- What `splitExponent` takes off is the text of an exponent. -/
theorem exponentText_of_split {rest : List Char} {read : ℤ}
    (h : splitExponent rest = some (mantissa, read)) :
    ∃ exponent e, rest = mantissa ++ exponent ∧ ExponentText e exponent := by
  unfold splitExponent at h
  have hcut := List.takeWhile_append_dropWhile
    (p := fun c => !(c == 'e' || c == 'E')) (l := rest)
  split at h
  · cases h
    exact ⟨[], 0, by simp, .none⟩
  · rename_i c digits hrest
    obtain ⟨value, hvalue, heq⟩ := Option.map_eq_some_iff.mp h
    cases heq
    have hletter : c = 'e' ∨ c = 'E' := by
      have hnot := List.head_dropWhile_not (fun c => !(c == 'e' || c == 'E')) (l := rest)
        (by rw [hrest]; simp)
      simp only [hrest, List.head_cons, Bool.not_eq_false', Bool.or_eq_true, beq_iff_eq] at hnot
      exact hnot
    obtain ⟨sign, hdigits, hsign⟩ := stripSign_spec digits
    unfold parseExponent at hvalue
    dsimp only at hvalue
    by_cases hbad : (stripSign digits).2 = [] ∨ ¬ (stripSign digits).2.all Char.isDigit = true
    · rw [if_pos hbad] at hvalue
      cases hvalue
    · push Not at hbad
      obtain ⟨hne, hall⟩ := hbad
      refine ⟨c :: digits, signed (stripSign digits).1 (digitsValue (stripSign digits).2),
        by rw [← hrest, hcut], ?_⟩
      nth_rewrite 3 [hdigits]
      exact .some hletter hsign (List.all_eq_true.mp hall) hne

/-- Two readings of an exponent agree. -/
theorem ExponentText.unique {e' : ℤ} (h : ExponentText e exponent) (h' : ExponentText e' exponent) :
    e = e' := by
  have hstrip : ∀ {negative : Bool} {sign digits : List Char}, SignText negative sign →
      IsDigits digits → digits ≠ [] → stripSign (sign ++ digits) = (negative, digits) := by
    intro negative sign digits hsign hdigits hne
    obtain ⟨first, others, rfl⟩ := List.exists_cons_of_ne_nil hne
    have hfirst := hdigits first List.mem_cons_self
    exact stripSign_sign hsign (by simpa using digit_ne hfirst (by decide))
      (by simpa using digit_ne hfirst (by decide))
  cases h with
  | none =>
      cases h'
      rfl
  | some _ hsign hdigits hne =>
      generalize htail : _ :: (_ ++ _) = text at h'
      cases h' with
      | none => cases htail
      | some _ hsign' hdigits' hne' =>
          obtain ⟨-, htail⟩ := List.cons.inj htail
          have heq := hstrip hsign hdigits hne
          rw [htail, hstrip hsign' hdigits' hne'] at heq
          cases heq
          rfl

end Parts

/-! ## Reading a literal -/

section Reading

variable {l l' : DecimalLiteral} {input : String}

/-- What the code finds in a text that spells a literal. -/
theorem DecimalLiteral.Spells.split (h : l.Spells input) :
    ∃ mantissa exponent : List Char, MantissaText l.whole l.fraction mantissa ∧
      ExponentText l.exponent exponent ∧ trim input.toList ≠ [] ∧
        stripSign (trim input.toList) = (l.negative, mantissa ++ exponent) := by
  obtain ⟨front, sign, mantissa, exponent, back, htext, hfront, hback, hsign, hmantissa,
    hexponent⟩ := h
  have htrim : trim input.toList = sign ++ (mantissa ++ exponent) := by
    rw [htext]
    refine trim_padded hfront hback (by simp [hmantissa.ne_nil]) fun c hc => ?_
    rcases List.mem_append.mp hc with hc | hc
    · exact hsign.not_blank c hc
    · rcases List.mem_append.mp hc with hc | hc
      · exact hmantissa.not_blank c hc
      · exact hexponent.not_blank c hc
  obtain ⟨first, others, hcons⟩ := List.exists_cons_of_ne_nil hmantissa.ne_nil
  have hfirst : first ≠ '+' ∧ first ≠ '-' := by
    rcases hmantissa.chars first (by rw [hcons]; exact List.mem_cons_self) with hdigit | rfl
    · exact ⟨digit_ne hdigit (by decide), digit_ne hdigit (by decide)⟩
    · decide
  refine ⟨mantissa, exponent, hmantissa, hexponent, ?_, ?_⟩
  · rw [htrim]
    simp [hmantissa.ne_nil]
  · rw [htrim]
    exact stripSign_sign hsign (by simp [hcons, hfirst.1]) (by simp [hcons, hfirst.2])

/-- A text spells one literal at most. -/
theorem DecimalLiteral.Spells.unique (h : l.Spells input) (h' : l'.Spells input) : l = l' := by
  obtain ⟨mantissa, exponent, hmantissa, hexponent, -, hstrip⟩ := h.split
  obtain ⟨mantissa', exponent', hmantissa', hexponent', -, hstrip'⟩ := h'.split
  obtain ⟨hnegative, hbody⟩ := Prod.mk.inj (hstrip.symm.trans hstrip')
  obtain ⟨htake, hdrop⟩ := hexponent.takeWhile hmantissa.notExponent
  obtain ⟨htake', hdrop'⟩ := hexponent'.takeWhile hmantissa'.notExponent
  rw [hbody, htake'] at htake
  rw [hbody, hdrop'] at hdrop
  subst htake hdrop
  obtain ⟨hwhole, hfraction⟩ := Prod.mk.inj (hmantissa.splitPoint.symm.trans hmantissa'.splitPoint)
  cases l
  cases l'
  simp only [DecimalLiteral.mk.injEq]
  exact ⟨hnegative, hwhole, hfraction, hexponent.unique hexponent'⟩

/-- A text that spells a literal reaches the arithmetic, with what the literal says. -/
theorem parseChecked_spells (h : l.Spells input) :
    parseChecked input = checkedWithScale (signed l.negative (digitsValue (l.whole ++ l.fraction)))
      l.fraction.length (saturate l.exponent) := by
  obtain ⟨mantissa, exponent, hmantissa, hexponent, hne, hstrip⟩ := h.split
  have hprobe : namesNoFinite (mantissa ++ exponent) = false := by
    obtain ⟨first, others, hcons⟩ := List.exists_cons_of_ne_nil hmantissa.ne_nil
    rw [hcons, List.cons_append]
    rcases hmantissa.chars first (by rw [hcons]; exact List.mem_cons_self) with hdigit | rfl
    · exact namesNoFinite_digit hdigit
    · rfl
  obtain ⟨hwhole, hfraction, hdigits⟩ := hmantissa.isDigits
  have hall : l.whole.all Char.isDigit = true ∧ l.fraction.all Char.isDigit = true :=
    ⟨List.all_eq_true.mpr hwhole, List.all_eq_true.mpr hfraction⟩
  have hsome : ¬ (l.whole = [] ∧ l.fraction = []) := by
    rintro ⟨hw, hf⟩
    exact hdigits.elim (fun h => h hw) fun h => h hf
  rw [parseChecked, hstrip]
  dsimp only
  rw [if_neg hne, hprobe, if_neg (by simp), parseUnsignedChecked,
    splitExponent_eq hexponent hmantissa.notExponent]
  dsimp only
  rw [hmantissa.splitPoint]
  dsimp only
  rw [if_neg hsome, if_neg (not_not.mpr hall)]
  rfl

/-- What spells no literal is rejected. -/
theorem parseChecked_rejects (h : ∀ l : DecimalLiteral, ¬ l.Spells input) :
    ∃ error, parseChecked input = some (.error error) := by
  unfold parseChecked
  dsimp only
  split_ifs with hempty hprobe
  · exact ⟨_, rfl⟩
  · exact ⟨_, rfl⟩
  unfold parseUnsignedChecked
  cases hexponent : splitExponent (stripSign (trim input.toList)).2 with
  | none => exact ⟨_, rfl⟩
  | some parts =>
      obtain ⟨mantissa, read⟩ := parts
      cases hpoint : splitPoint mantissa with
      | mk whole fraction =>
          dsimp only
          rw [hpoint]
          dsimp only
          by_cases hnone : whole = [] ∧ fraction = []
          · rw [if_pos hnone]
            exact ⟨_, rfl⟩
          by_cases hdigits : whole.all Char.isDigit = true ∧ fraction.all Char.isDigit = true
          -- the code would reach the arithmetic, so the text would spell a literal
          · exfalso
            obtain ⟨exponent, e, hbody, htext⟩ := exponentText_of_split hexponent
            obtain ⟨front, back, hinput, hfront, hback⟩ := trim_spec input.toList
            obtain ⟨sign, hsigned, hsign⟩ := stripSign_spec (trim input.toList)
            rw [List.all_eq_true, List.all_eq_true] at hdigits
            have hmantissa : MantissaText whole fraction mantissa :=
              mantissaText_of_split hpoint hdigits.1 hdigits.2 (not_and_or.mp hnone)
            refine h ⟨(stripSign (trim input.toList)).1, whole, fraction, e⟩
              ⟨front, sign, mantissa, exponent, back, ?_, hfront, hback, hsign, hmantissa, htext⟩
            rw [← hbody, ← hsigned]
            exact hinput
          · rw [if_neg hnone, if_pos hdigits]
            exact ⟨_, rfl⟩

end Reading

/-! ## The value -/

/-- A scale in range is what the type takes. -/
theorem withScale_ok_iff (unscaled scale : ℤ) :
    (∃ d, withScale unscaled scale = .ok d) ↔ ScaleInRange scale := by
  unfold withScale ScaleInRange
  split_ifs with hlarge hnegative hshift
  · simp only [exists_false, false_iff]
    omega
  · simp only [exists_false, false_iff]
    omega
  · simp only [Except.ok.injEq, exists_eq', true_iff]
    omega
  · simp only [Except.ok.injEq, exists_eq', true_iff]
    omega

theorem withScale_value {unscaled scale : ℤ} {d : Decimal} (h : withScale unscaled scale = .ok d) :
    d.value = unscaled * (10 : ℚ) ^ (-scale) := by
  unfold withScale at h
  split_ifs at h with hlarge hnegative hshift
  · cases h
    obtain ⟨shift, hshift⟩ := Int.eq_ofNat_of_zero_le (neg_nonneg.mpr hnegative.le)
    rw [hshift, Decimal.value, zpow_natCast, pow_zero, div_one]
    push_cast
    rfl
  · cases h
    obtain ⟨places, rfl⟩ := Int.eq_ofNat_of_zero_le (not_lt.mp hnegative)
    rw [zpow_neg, zpow_natCast, ← div_eq_mul_inv]
    rfl

/-- A literal's value is its digits, moved by its scale. -/
theorem DecimalLiteral.value_eq (l : DecimalLiteral) :
    l.value = signed l.negative (digitsValue (l.whole ++ l.fraction)) * (10 : ℚ) ^ (-l.scale) := by
  have hdigits : (digitsValue (l.whole ++ l.fraction) : ℚ) =
      (digitsValue l.whole + digitsValue l.fraction / 10 ^ l.fraction.length) *
        10 ^ l.fraction.length := by
    have hnat : digitsValue (l.whole ++ l.fraction) =
        10 ^ l.fraction.length * digitsValue l.whole + digitsValue l.fraction := by
      rw [digitsValue, Nat.ofDigitChars_append, Nat.ofDigitChars_eq_ofDigitChars_zero]
      rfl
    rw [hnat]
    push_cast
    field_simp
  have hscale : (10 : ℚ) ^ l.fraction.length * 10 ^ (-l.scale) = 10 ^ l.exponent := by
    rw [← zpow_natCast, ← zpow_add₀ (by norm_num), scale]
    congr 1
    omega
  have hsigned : ((signed l.negative (digitsValue (l.whole ++ l.fraction)) : ℤ) : ℚ) =
      (if l.negative then -1 else 1) * digitsValue (l.whole ++ l.fraction) := by
    cases l.negative <;> simp [signed]
  rw [value, hsigned, hdigits, ← hscale]
  ring

/-! ## What the parser promises -/

/-- The parser does on a text what the grammar says: it does not stop, it accepts exactly the
literals whose scale and shift are in range, and it returns the value that is denoted. -/
structure ParsesExactly (input : String) : Prop where
  no_overflow : parseChecked input ≠ none
  accepts : (∃ d, parseChecked input = some (.ok d)) ↔
    ∃ l : DecimalLiteral, l.Spells input ∧ ScaleInRange l.scale
  value : ∀ (l : DecimalLiteral) d, l.Spells input → parseChecked input = some (.ok d) →
    d.value = l.value

/-- The lengths and exponents with which the arithmetic of the parser decides as the true scale
does. An exponent that is an `i64` must not take the scale beyond `i64::MAX`; the other conditions
are about texts with some `2 ^ 62` digits. -/
def DecimalLiteral.Settled (l : DecimalLiteral) : Prop :=
  if i64Max < l.fraction.length then ¬ ScaleInRange l.scale
  else if l.exponent.natAbs ≤ i64Max then l.scale ≤ i64Max
  else
    ¬ ScaleInRange l.scale ∧ ¬ ScaleInRange (l.fraction.length - saturate l.exponent) ∧
      l.fraction.length - saturate l.exponent ≤ i64Max

section Exactness

variable {l : DecimalLiteral} {input : String}

/-- On a text that spells a literal, only that literal has to be looked at. -/
theorem parsesExactly_of_spells (h : l.Spells input) :
    ParsesExactly input ↔ parseChecked input ≠ none ∧
      ((∃ d, parseChecked input = some (.ok d)) ↔ ScaleInRange l.scale) ∧
        ∀ d, parseChecked input = some (.ok d) → d.value = l.value := by
  have honly : (∃ l' : DecimalLiteral, l'.Spells input ∧ ScaleInRange l'.scale) ↔
      ScaleInRange l.scale := by
    constructor
    · rintro ⟨l', hl', hrange⟩
      rwa [h.unique hl']
    · exact fun hrange => ⟨l, h, hrange⟩
  constructor
  · intro hexact
    exact ⟨hexact.no_overflow, hexact.accepts.trans honly, fun d => hexact.value l d h⟩
  · rintro ⟨hstop, haccepts, hvalue⟩
    refine ⟨hstop, haccepts.trans honly.symm, fun l' d hl' hd => ?_⟩
    rw [← h.unique hl']
    exact hvalue d hd

/-- **The parser is exact on a literal exactly if its arithmetic is.** -/
theorem parsesExactly_literal (h : l.Spells input) : ParsesExactly input ↔ l.Settled := by
  have hparse := parseChecked_spells h
  have hscale : l.scale = l.fraction.length - l.exponent := rfl
  rw [parsesExactly_of_spells h, hparse, DecimalLiteral.Settled, checkedWithScale]
  by_cases hlong : i64Max < l.fraction.length
  · simp [if_pos hlong]
  rw [if_neg hlong, if_neg hlong]
  by_cases hfits : l.exponent.natAbs ≤ i64Max
  · have hsame : saturate l.exponent = l.exponent := if_pos hfits
    rw [if_pos hfits, hsame, ← hscale]
    by_cases hover : (i64Max : ℤ) < l.scale
    · simp [hover]
    · rw [if_neg hover]
      refine iff_of_true ⟨by simp, ?_, fun d hd => ?_⟩ (not_lt.mp hover)
      · simpa using withScale_ok_iff _ l.scale
      · rw [withScale_value (Option.some.inj hd), l.value_eq]
  -- the exponent is no `i64`, so the scale and what the code makes of it are far apart
  · have hfar : ScaleInRange l.scale → ¬ ScaleInRange (l.fraction.length - saturate l.exponent) := by
      unfold ScaleInRange
      rw [saturate, if_neg hfits, hscale]
      intro htrue hread
      have hlarge : i64Max = 9223372036854775807 := by decide
      have hcap : MAX_SCALE = 10000 := rfl
      split_ifs at hread <;> omega
    rw [if_neg hfits]
    by_cases hover : (i64Max : ℤ) < l.fraction.length - saturate l.exponent
    · rw [if_pos hover]
      refine iff_of_false (fun h => h.1 rfl) fun h => ?_
      exact absurd h.2.2 (not_le.mpr hover)
    · have haccepts : (∃ d, some (withScale (signed l.negative (digitsValue (l.whole ++ l.fraction)))
          (l.fraction.length - saturate l.exponent)) = some (.ok d)) ↔
            ScaleInRange (l.fraction.length - saturate l.exponent) := by
        simpa using withScale_ok_iff _ (l.fraction.length - saturate l.exponent)
      rw [if_neg hover, haccepts]
      constructor
      · rintro ⟨-, hsame, -⟩
        have hout : ¬ ScaleInRange l.scale := fun htrue => hfar htrue (hsame.mpr htrue)
        exact ⟨hout, fun hread => hout (hsame.mp hread), not_lt.mp hover⟩
      · rintro ⟨hout, hread, -⟩
        refine ⟨by simp, iff_of_false hread hout, fun d hd => ?_⟩
        exact absurd (haccepts.mp ⟨d, hd⟩) hread

theorem parsesExactly_iff (input : String) :
    ParsesExactly input ↔ ∀ l : DecimalLiteral, l.Spells input → l.Settled := by
  by_cases hspells : ∃ l : DecimalLiteral, l.Spells input
  · obtain ⟨l, h⟩ := hspells
    rw [parsesExactly_literal h]
    constructor
    · intro hsettled l' h'
      rwa [← h.unique h']
    · exact fun hall => hall l h
  · push Not at hspells
    obtain ⟨error, hreject⟩ := parseChecked_rejects hspells
    refine iff_of_true ⟨?_, ?_, ?_⟩ fun l h => absurd h (hspells l)
    · rw [hreject]
      simp
    · simp [hreject, hspells]
    · exact fun l d h => absurd h (hspells l)

end Exactness

/-! ## Printing and reading back -/

/-- The literal that `fixedText` writes -/
def fixedLiteral (places : ℕ) (q : ℚ) : DecimalLiteral where
  negative := decide (q < 0)
  whole := wholeChars (towardZero (q * 10 ^ places)).natAbs places
  fraction := fractionChars (towardZero (q * 10 ^ places)).natAbs places
  exponent := 0

theorem fixedLiteral_spells (places : ℕ) (q : ℚ) :
    (fixedLiteral places q).Spells (fixedText places q) := by
  have hwhole := wholeChars_ne_nil (towardZero (q * 10 ^ places)).natAbs places
  have hlength := length_fractionChars (towardZero (q * 10 ^ places)).natAbs places
  refine ⟨[], if decide (q < 0) then ['-'] else [],
    wholeChars (towardZero (q * 10 ^ places)).natAbs places ++
      (if places = 0 then [] else
        '.' :: fractionChars (towardZero (q * 10 ^ places)).natAbs places), [], [], ?_, ?_, ?_, ?_,
    ?_, .none⟩
  · rw [fixedText, String.toList_ofList, fixedChars]
    simp
  · exact fun c hc => absurd hc List.not_mem_nil
  · exact fun c hc => absurd hc List.not_mem_nil
  · show SignText (decide (q < 0)) _
    cases decide (q < 0) with
    | true => exact .minus
    | false => exact .none
  · show MantissaText (wholeChars _ _) (fractionChars _ _) _
    by_cases hplaces : places = 0
    · have hnil : fractionChars (towardZero (q * 10 ^ places)).natAbs places = [] :=
        List.eq_nil_of_length_eq_zero (hlength.trans hplaces)
      rw [if_pos hplaces, List.append_nil, hnil]
      exact .whole isDigit_wholeChars hwhole
    · rw [if_neg hplaces]
      exact .point isDigit_wholeChars isDigit_fractionChars (.inl hwhole)

theorem fixedLiteral_scale (places : ℕ) (q : ℚ) : (fixedLiteral places q).scale = places := by
  show ((fractionChars _ _).length : ℤ) - 0 = places
  rw [length_fractionChars, sub_zero]

/-- The literal denotes the value that is left after the cut. -/
theorem fixedLiteral_value (places : ℕ) (q : ℚ) :
    (fixedLiteral places q).value = truncated places q := by
  have hdigits : signed (decide (q < 0)) (digitsValue (wholeChars
      (towardZero (q * 10 ^ places)).natAbs places ++
        fractionChars (towardZero (q * 10 ^ places)).natAbs places)) =
          towardZero (q * 10 ^ places) := by
    have hpow : (0 : ℚ) < 10 ^ places := by positivity
    rw [digitsValue, ofDigitChars_fixed, signed]
    by_cases hneg : q < 0
    · have hnonpos := towardZero_nonpos (mul_nonpos_of_nonpos_of_nonneg hneg.le hpow.le)
      rw [if_pos (decide_eq_true hneg), Int.ofNat_natAbs_of_nonpos hnonpos, neg_neg]
    · have hnonneg := towardZero_nonneg (mul_nonneg (not_lt.mp hneg) hpow.le)
      rw [if_neg (by simpa using hneg), Int.natAbs_of_nonneg hnonneg]
  rw [DecimalLiteral.value_eq, fixedLiteral_scale, zpow_neg, zpow_natCast, truncated, div_eq_mul_inv]
  congr 2

/-- A text with at most `MAX_SCALE` places is read as the value that is left after the cut. -/
theorem parseChecked_fixedText (q : ℚ) {places : ℕ} (h : places ≤ MAX_SCALE) :
    ∃ d, parseChecked (fixedText places q) = some (.ok d) ∧ d.value = truncated places q := by
  have hspells := fixedLiteral_spells places q
  have hlength := length_fractionChars (towardZero (q * 10 ^ places)).natAbs places
  have hrange : ScaleInRange (fixedLiteral places q).scale := by
    rw [fixedLiteral_scale, ScaleInRange]
    omega
  have hexact : ParsesExactly (fixedText places q) := by
    rw [parsesExactly_literal hspells, DecimalLiteral.Settled, fixedLiteral_scale]
    have hlarge : i64Max = 9223372036854775807 := by decide
    have hcap : MAX_SCALE = 10000 := rfl
    rw [if_neg, if_pos]
    · omega
    · exact Nat.zero_le _
    · show ¬ i64Max < (fractionChars _ _).length
      omega
  obtain ⟨d, hd⟩ := hexact.accepts.mpr ⟨_, hspells, hrange⟩
  exact ⟨d, hd, (hexact.value _ d hspells hd).trans (fixedLiteral_value places q)⟩

/-- `parse` reads the plain text of a decimal back as an equal one. -/
def RoundTrips (a : Decimal) : Prop :=
  ∃ d, parseChecked a.toPlainString = some (.ok d) ∧ d.eq a = true

theorem toPlainString_eq (a : Decimal) :
    a.toPlainString = fixedText (min a.scale MAX_SCALE) a.value := by
  rw [toPlainString, ← a.toFixed_eq (Nat.min_le_right _ _), toFixed, toFixed, min_assoc, min_self]

/-- A decimal is read back exactly if the text keeps all of its digits. -/
theorem roundTrips_iff (a : Decimal) :
    RoundTrips a ↔ a.scale ≤ MAX_SCALE ∨ (10 : ℤ) ^ (a.scale - MAX_SCALE) ∣ a.unscaled := by
  obtain ⟨d, hd, hvalue⟩ := parseChecked_fixedText a.value (Nat.min_le_right a.scale MAX_SCALE)
  have hiff : RoundTrips a ↔ truncated (min a.scale MAX_SCALE) a.value = a.value := by
    rw [RoundTrips, toPlainString_eq, hd, ← hvalue]
    simp [eq_iff]
  rw [hiff]
  by_cases hsmall : a.scale ≤ MAX_SCALE
  · rw [min_eq_left hsmall]
    exact iff_of_true (truncated_of_int (a.value_mul_pow _ le_rfl)) (.inl hsmall)
  · rw [min_eq_right (not_le.mp hsmall).le]
    obtain ⟨more, hmore⟩ := Nat.exists_eq_add_of_le (not_le.mp hsmall).le
    have hpow : (10 : ℚ) ^ MAX_SCALE ≠ 0 := by positivity
    have hcut : a.scale - MAX_SCALE = more := by omega
    have hscaled : a.value * 10 ^ MAX_SCALE * 10 ^ more = a.unscaled := by
      rw [mul_assoc, ← pow_add, ← hmore, Decimal.value, div_mul_cancel₀ _ (by positivity)]
    rw [hcut]
    constructor
    · intro hsame
      right
      refine ⟨towardZero (a.value * 10 ^ MAX_SCALE), ?_⟩
      have hint : a.value * 10 ^ MAX_SCALE = towardZero (a.value * 10 ^ MAX_SCALE) := by
        rw [truncated, div_eq_iff hpow] at hsame
        exact hsame.symm
      rw [hint] at hscaled
      rw [mul_comm]
      exact_mod_cast hscaled.symm
    · rintro (hfalse | ⟨n, hn⟩)
      · exact absurd hfalse hsmall
      · have hint : a.value * 10 ^ MAX_SCALE = n := by
          rw [hn] at hscaled
          push_cast at hscaled
          have hmorePos : (10 : ℚ) ^ more ≠ 0 := by positivity
          rw [mul_comm ((10 : ℚ) ^ more)] at hscaled
          exact mul_right_cancel₀ hmorePos hscaled
        exact truncated_of_int hint

/-- **Parsing and printing, exactly.** A value is printed and read back exactly if it needs no more
than `MAX_SCALE` places, and on a text the parser does what the grammar says exactly if the scale
arithmetic of the literal does not overflow. -/
theorem decimal_text_iff (a : Decimal) (input : String) :
    (RoundTrips a ↔ a.scale ≤ MAX_SCALE ∨ (10 : ℤ) ^ (a.scale - MAX_SCALE) ∣ a.unscaled) ∧
      (ParsesExactly input ↔ ∀ l : DecimalLiteral, l.Spells input → l.Settled) :=
  ⟨roundTrips_iff a, parsesExactly_iff input⟩

/-- `10 ^ -10001` is printed as zero, and the exponent `-i64::MAX` overflows behind one decimal
place. -/
theorem text_not_exact :
    ¬ RoundTrips ⟨1, 10001⟩ ∧ parseChecked "0.1e-9223372036854775807" = none := by
  constructor
  · rw [roundTrips_iff]
    decide
  · decide +kernel

end StellarAgent.Math
