import StellarAgent.Lib.DecimalFloats
import StellarAgent.Math.Literal

set_option autoImplicit false

/-! # Decimal literals of Python

What `Decimal(value)` of CPython reads of a text: white space at both ends and underscores do not
count, and a literal is a sign, digits with a point among them, and an exponent. A text that both
SDKs read is the same number in both (`decimal_value`).
-/

namespace StellarAgent.Math

open Lib

namespace Python

/-! ## Reading -/

/-- `str.isspace` of a character -/
def isSpace (c : Char) : Bool := isWhitespace c || decide (28 ≤ c.toNat ∧ c.toNat ≤ 31)

/-- `str.strip` -/
def strip (cs : List Char) : List Char := (cs.dropWhile isSpace).rdropWhile isSpace

/-- The limits of `decimal`, for all contexts -/
def MAX_EMAX : ℤ := 999999999999999999
def MIN_ETINY : ℤ := -1999999999999999997

/-- The exponent that is written, if it fits a machine word -/
def writtenExponent (digits : List Char) : Option ℤ :=
  let (negative, magnitude) := stripSign digits
  if magnitude = [] ∨ ¬ magnitude.all Char.isDigit then none
  else
    let read := Nat.ofDigitChars 10 magnitude 0
    if read ≤ i64Max then some (if negative then -(read : ℤ) else read) else none

/-- The mantissa and the exponent -/
def splitMantissa (rest : List Char) : Option (List Char × ℤ) :=
  match rest.dropWhile fun c => !(c == 'e' || c == 'E') with
  | [] => some (rest, 0)
  | _ :: digits =>
      (writtenExponent digits).map fun exponent =>
        (rest.takeWhile fun c => !(c == 'e' || c == 'E'), exponent)

/-- The digits of a literal without its sign -/
def readUnsigned (negative : Bool) (rest : List Char) : Option DecimalFloat :=
  match splitMantissa rest with
  | none => none
  | some (mantissa, exponent) =>
      let (int_part, frac_part) := splitPoint mantissa
      if int_part = [] ∧ frac_part = [] then none
      else if ¬ (int_part.all Char.isDigit ∧ frac_part.all Char.isDigit) then none
      else
        let x : DecimalFloat := {
          negative
          coefficient := Nat.ofDigitChars 10 (int_part ++ frac_part) 0
          exponent := exponent - frac_part.length }
        if MIN_ETINY ≤ x.exponent ∧ x.adjusted ≤ MAX_EMAX then some x else none

/-- `Decimal(value)` of a text, if it is a finite number -/
def decimal (value : String) : Option DecimalFloat :=
  let text := (strip value.toList).filter (· ≠ '_')
  readUnsigned (stripSign text).1 (stripSign text).2

/-! ## What the Rust SDK reads -/

section

variable {cs : List Char} {input : String} {a : Decimal} {x : DecimalFloat}

/-- The characters of a literal -/
def IsLiteralChar (c : Char) : Prop := c.isDigit = true ∨ c ∈ ['.', '+', '-', 'e', 'E']

theorem IsLiteralChar.not_space {c : Char} (h : IsLiteralChar c) : isSpace c = false ∧ c ≠ '_' := by
  rcases h with hdigit | hother
  · have hrange := Decimal.digit_toNat hdigit
    refine ⟨?_, Decimal.digit_ne hdigit (by decide)⟩
    rw [isSpace, Decimal.digit_not_whitespace hdigit, Bool.false_or, decide_eq_false_iff_not]
    omega
  · simp only [List.mem_cons, List.not_mem_nil, or_false] at hother
    rcases hother with rfl | rfl | rfl | rfl | rfl <;> decide

theorem literal_of_stripSign (h : ∀ c ∈ (stripSign cs).2, IsLiteralChar c) :
    ∀ c ∈ cs, IsLiteralChar c := by
  unfold stripSign at h
  split at h
  · intro c hc
    rcases List.mem_cons.mp hc with rfl | hc
    · exact Or.inr (by decide)
    · exact h c hc
  · intro c hc
    rcases List.mem_cons.mp hc with rfl | hc
    · exact Or.inr (by decide)
    · exact h c hc
  · exact h

/-- What follows the characters that are taken starts with one that is not. -/
theorem split_at_first (p : Char → Bool) (cs : List Char) :
    cs.dropWhile p = [] ∧ cs.takeWhile p = cs ∨
      ∃ c rest, cs.dropWhile p = c :: rest ∧ p c = false ∧ cs = cs.takeWhile p ++ c :: rest := by
  have happend := List.takeWhile_append_dropWhile (p := p) (l := cs)
  cases hdrop : cs.dropWhile p with
  | nil =>
      rw [hdrop, List.append_nil] at happend
      exact Or.inl ⟨rfl, happend⟩
  | cons c rest =>
      refine Or.inr ⟨c, rest, rfl, ?_, ?_⟩
      · have hhead := List.head?_dropWhile_not p cs
        rw [hdrop] at hhead
        simpa using hhead
      · rw [← hdrop]
        exact happend.symm

theorem literal_of_splitPoint (hint : (splitPoint cs).1.all Char.isDigit = true)
    (hfrac : (splitPoint cs).2.all Char.isDigit = true) : ∀ c ∈ cs, IsLiteralChar c := by
  unfold splitPoint at hint hfrac
  dsimp only at hint hfrac
  rcases split_at_first (· != '.') cs with ⟨-, htake⟩ | ⟨c, rest, hdrop, hc, hsplit⟩
  · rw [htake] at hint
    exact fun c hc => Or.inl (List.all_eq_true.mp hint c hc)
  · rw [hdrop] at hfrac
    intro d hd
    rw [hsplit] at hd
    rcases List.mem_append.mp hd with hd | hd
    · exact Or.inl (List.all_eq_true.mp hint d hd)
    · rcases List.mem_cons.mp hd with rfl | hd
      · obtain rfl : d = '.' := by simpa using hc
        exact Or.inr (by decide)
      · exact Or.inl (List.all_eq_true.mp hfrac d hd)

/-- A written exponent is a literal, and the machine word holds it. -/
theorem literal_of_parseExponent {exponent : ℤ} (h : parseExponent cs = some exponent) :
    ∀ c ∈ cs, IsLiteralChar c := by
  unfold parseExponent at h
  dsimp only at h
  split at h
  · cases h
  · rename_i hdigits
    refine literal_of_stripSign fun c hc => Or.inl ?_
    exact List.all_eq_true.mp (not_not.mp (not_or.mp hdigits).2) c hc

theorem writtenExponent_eq {exponent exponent' : ℤ} (h : parseExponent cs = some exponent)
    (h' : writtenExponent cs = some exponent') : exponent' = exponent := by
  unfold parseExponent at h
  unfold writtenExponent at h'
  dsimp only at h h'
  split at h'
  · cases h'
  · rename_i hdigits
    rw [if_neg hdigits] at h
    split at h'
    · rename_i hsmall
      rw [if_pos hsmall] at h
      exact Option.some.inj (h'.symm.trans h)
    · cases h'

/-- Both read the same mantissa and exponent. -/
theorem splitMantissa_eq {mantissa mantissa' : List Char} {exponent exponent' : ℤ}
    (h : splitExponent cs = some (mantissa, exponent))
    (h' : splitMantissa cs = some (mantissa', exponent')) :
    mantissa' = mantissa ∧ exponent' = exponent := by
  unfold splitExponent at h
  unfold splitMantissa at h'
  split at h
  · rename_i hdrop
    rw [hdrop] at h'
    exact Prod.mk.inj (Option.some.inj (h'.symm.trans h))
  · rename_i c digits hdrop
    rw [hdrop] at h'
    obtain ⟨e, he, hpair⟩ := Option.map_eq_some_iff.mp h
    obtain ⟨e', he', hpair'⟩ := Option.map_eq_some_iff.mp h'
    obtain ⟨rfl, rfl⟩ := Prod.mk.inj hpair
    obtain ⟨rfl, rfl⟩ := Prod.mk.inj hpair'
    exact ⟨rfl, writtenExponent_eq he he'⟩

theorem literal_of_splitExponent {mantissa : List Char} {exponent : ℤ}
    (h : splitExponent cs = some (mantissa, exponent)) (hmantissa : ∀ c ∈ mantissa, IsLiteralChar c) :
    ∀ c ∈ cs, IsLiteralChar c := by
  unfold splitExponent at h
  rcases split_at_first (fun c => !(c == 'e' || c == 'E')) cs with
    ⟨hdrop, -⟩ | ⟨c, digits, hdrop, hc, hsplit⟩
  · rw [hdrop] at h
    obtain ⟨rfl, -⟩ := Prod.mk.inj (Option.some.inj h)
    exact hmantissa
  · rw [hdrop] at h
    obtain ⟨e, he, hpair⟩ := Option.map_eq_some_iff.mp h
    obtain ⟨rfl, -⟩ := Prod.mk.inj hpair
    intro d hd
    rw [hsplit] at hd
    rcases List.mem_append.mp hd with hd | hd
    · exact hmantissa d hd
    · rcases List.mem_cons.mp hd with rfl | hd
      · by_cases hlower : d = 'e'
        · rw [hlower]
          exact Or.inr (by decide)
        · obtain rfl : d = 'E' := by simpa [hlower] using hc
          exact Or.inr (by decide)
      · exact literal_of_parseExponent he d hd

/-- What the Rust SDK reads of a text without a sign -/
theorem parseUnsigned_ok {negative : Bool} (h : Decimal.parseUnsigned input negative cs = .ok a) :
    ∃ mantissa exponent, splitExponent cs = some (mantissa, exponent) ∧
      ¬ ((splitPoint mantissa).1 = [] ∧ (splitPoint mantissa).2 = []) ∧
      ((splitPoint mantissa).1.all Char.isDigit ∧ (splitPoint mantissa).2.all Char.isDigit) ∧
      withScale (if negative then
          -(Nat.ofDigitChars 10 ((splitPoint mantissa).1 ++ (splitPoint mantissa).2) 0 : ℤ)
        else (Nat.ofDigitChars 10 ((splitPoint mantissa).1 ++ (splitPoint mantissa).2) 0 : ℤ))
        ((splitPoint mantissa).2.length - exponent) = .ok a := by
  unfold Decimal.parseUnsigned at h
  split at h
  · cases h
  · rename_i mantissa exponent hsplit
    dsimp only at h
    split at h
    · cases h
    · rename_i hne
      split at h
      · cases h
      · rename_i hdigits
        exact ⟨mantissa, exponent, hsplit, hne, not_not.mp hdigits, h⟩

/-- A text that the Rust SDK reads has no other characters than those of a literal, but for white
space at its ends. -/
theorem literal_of_parse (h : Decimal.parse input = .ok a) :
    trim input.toList ≠ [] ∧ (∀ c ∈ trim input.toList, IsLiteralChar c) ∧
      Decimal.parseUnsigned input (stripSign (trim input.toList)).1
        (stripSign (trim input.toList)).2 = .ok a := by
  unfold Decimal.parse at h
  dsimp only at h
  split at h
  · cases h
  · rename_i hne
    split at h
    · cases h
    · refine ⟨hne, ?_, h⟩
      obtain ⟨mantissa, exponent, hsplit, -, hdigits, -⟩ := parseUnsigned_ok h
      exact literal_of_stripSign (literal_of_splitExponent hsplit
        (literal_of_splitPoint hdigits.1 hdigits.2))

/-! ## White space -/

/-- Dropping more on the left goes on to the first element that is not dropped. -/
theorem dropWhile_mono {p q : Char → Bool} (hpq : ∀ c, p c = true → q c = true)
    (h : ∀ c ∈ (cs.dropWhile p).head?, q c = false) : cs.dropWhile q = cs.dropWhile p := by
  induction cs with
  | nil => rfl
  | cons c cs ih =>
      by_cases hc : p c = true
      · rw [List.dropWhile_cons_of_pos hc] at h ⊢
        rw [List.dropWhile_cons_of_pos (hpq c hc)]
        exact ih h
      · rw [List.dropWhile_cons_of_neg hc] at h ⊢
        have hq : q c = false := h c rfl
        exact List.dropWhile_cons_of_neg (by simp [hq])

theorem strip_eq_trim (hne : trim cs ≠ []) (h : ∀ c ∈ trim cs, isSpace c = false) :
    strip cs = trim cs := by
  have hspace : ∀ c, isWhitespace c = true → isSpace c = true := by
    intro c hc
    rw [isSpace, hc, Bool.true_or]
  have hright : (cs.dropWhile isWhitespace).rdropWhile isSpace = trim cs := by
    unfold trim List.rdropWhile
    congr 1
    refine dropWhile_mono hspace fun c hc => h c ?_
    exact List.mem_reverse.mpr (List.mem_of_mem_head? hc)
  have hleft : cs.dropWhile isSpace = cs.dropWhile isWhitespace := by
    refine dropWhile_mono hspace fun c hc => ?_
    -- what is left of both trims starts as what is left of the first
    obtain ⟨rest, hrest⟩ := List.rdropWhile_prefix isWhitespace (cs.dropWhile isWhitespace)
    obtain ⟨first, others, hfirst⟩ := List.exists_cons_of_ne_nil hne
    have hsame : c = first := by
      rw [← hrest, show (cs.dropWhile isWhitespace).rdropWhile isWhitespace = first :: others
        from hfirst] at hc
      simpa using hc.symm
    rw [hsame]
    exact h first (hfirst ▸ List.mem_cons_self)
  rw [strip, hleft, hright]

/-! ## The number that is read -/

theorem withScale_value {unscaled scale : ℤ} (h : withScale unscaled scale = .ok a) :
    a.value = unscaled * 10 ^ (-scale) ∧ -(MAX_SCALE : ℤ) ≤ scale ∧ scale ≤ MAX_SCALE := by
  unfold withScale at h
  split at h
  · cases h
  · rename_i hlarge
    split at h
    · rename_i hnegative
      split at h
      · cases h
      · obtain rfl := Except.ok.inj h
        refine ⟨?_, by omega, by omega⟩
        obtain ⟨n, hn⟩ := Int.eq_ofNat_of_zero_le (by omega : 0 ≤ -scale)
        rw [Decimal.value, hn, zpow_natCast, Int.toNat_natCast]
        push_cast
        rw [pow_zero, div_one]
    · obtain rfl := Except.ok.inj h
      refine ⟨?_, by omega, by omega⟩
      have hexponent : scale = (scale.toNat : ℤ) := by omega
      rw [Decimal.value, zpow_neg, hexponent, zpow_natCast]
      rfl

/-- **A text that both SDKs read is the same number in both.** Its exponent is within the limits of
the Rust SDK. -/
theorem decimal_value (h : Decimal.parse input = .ok a) (hx : decimal input = some x) :
    x.value = a.value ∧ -(MAX_SCALE : ℤ) ≤ x.exponent ∧ x.exponent ≤ MAX_SCALE := by
  obtain ⟨hne, hliteral, hunsigned⟩ := literal_of_parse h
  have hstrip : strip input.toList = trim input.toList :=
    strip_eq_trim hne fun c hc => (hliteral c hc).not_space.1
  have hfilter : (trim input.toList).filter (· ≠ '_') = trim input.toList := by
    rw [List.filter_eq_self]
    intro c hc
    simpa using (hliteral c hc).not_space.2
  unfold decimal at hx
  dsimp only at hx
  rw [hstrip, hfilter] at hx
  obtain ⟨mantissa, exponent, hsplit, hnonempty, hdigits, hscale⟩ := parseUnsigned_ok hunsigned
  unfold readUnsigned at hx
  split at hx
  · cases hx
  · rename_i mantissa' exponent' hsplit'
    obtain ⟨rfl, rfl⟩ := splitMantissa_eq hsplit hsplit'
    dsimp only at hx
    rw [if_neg hnonempty, if_neg (not_not.mpr hdigits)] at hx
    split at hx
    · obtain rfl := Option.some.inj hx
      obtain ⟨hvalue, hlow, hhigh⟩ := withScale_value hscale
      refine ⟨?_, ?_, ?_⟩
      · rw [hvalue, DecimalFloat.value, DecimalFloat.signed, neg_sub]
      · dsimp only
        omega
      · dsimp only
        omega
    · cases hx

end

end Python

end StellarAgent.Math
