import StellarAgent.Lib.Calendar
import StellarAgent.Lib.Results
import StellarAgent.Lib.Utf8
import StellarAgent.Math.Grammar

set_option autoImplicit false

/-! # Reading a timestamp in the Rust SDK

`parse_iso8601_seconds` of `sdk/rust/src/math/ledger_time.rs`. The text is cut at byte offsets, and
only the delimiters in front of the seconds are looked at (`delimited_iff`). Behind them the code
reads the seconds and then the zone (`parse_header`). The arithmetic of the date cannot overflow
(`seconds_fit`), and its day numbers are those of the proleptic Gregorian calendar
(`daysFromCivil_eq`).
-/

namespace StellarAgent.Math

open Lib Decimal

/-! ## The code -/

/-- How the code ends without a value -/
inductive Stop where
  | Nothing
  | Panic
  deriving DecidableEq

/-- `?` on an `Option` -/
def orNothing {A : Type} : Option A → Except Stop A
  | some a => .ok a
  | none => .error .Nothing

def InI64 (x : ℤ) : Prop := -2 ^ 63 ≤ x ∧ x < 2 ^ 63

instance (x : ℤ) : Decidable (InI64 x) := inferInstanceAs (Decidable (_ ∧ _))

/-- An `i64`, or the panic of an overflow -/
def i64 (x : ℤ) : Except Stop ℤ := if InI64 x then .ok x else .error .Panic

/-- `&text[start..]` -/
def sliceFrom (cs : List Char) (start : ℕ) : Except Stop (List Char) :=
  match splitAtByte cs start with
  | some (_, back) => .ok back
  | none => .error .Panic

/-- `&text[start..stop]` -/
def sliceText (cs : List Char) (start stop : ℕ) : Except Stop (List Char) :=
  match splitAtByte cs stop with
  | some (front, _) => sliceFrom front start
  | none => .error .Panic

/-- `str::parse::<i64>` -/
def parseI64 (cs : List Char) : Option ℤ :=
  let (negative, digits) := stripSign cs
  if digits = [] ∨ ¬ digits.all Char.isDigit then none
  else
    let value := signed negative (digitsValue digits)
    if InI64 value then some value else none

def stripPlus : List Char → List Char
  | '+' :: rest => rest
  | rest => rest

/-- `str::parse::<u32>`; only a plus may stand in front. -/
def parseU32 (cs : List Char) : Option ℕ :=
  let digits := stripPlus cs
  if digits = [] ∨ ¬ digits.all Char.isDigit then none
  else if digitsValue digits ≤ U32_MAX then some (digitsValue digits) else none

def daysFromCivil (year : ℤ) (month day : ℕ) : ℤ :=
  let year := if month ≤ 2 then year - 1 else year
  let era := (if 0 ≤ year then year else year - 399).tdiv 400
  let year_of_era := year - era * 400
  let month : ℤ := month
  let day_of_year := (153 * (if 2 < month then month - 3 else month + 9) + 2).tdiv 5 + day - 1
  let day_of_era := year_of_era * 365 + year_of_era.tdiv 4 - year_of_era.tdiv 100 + day_of_year
  era * 146097 + day_of_era - 719468

/-- `bytes[offset] == c` -/
def byteIs (cs : List Char) (offset : ℕ) (c : Char) : Bool :=
  (textBytes cs)[offset]? == some c.val.toUInt8

/-- The numbers in front of the seconds -/
structure DateMinute where
  year : ℤ
  month : ℕ
  day : ℕ
  hour : ℤ
  minute : ℤ

/-- The seconds of a date and a time without a zone -/
def DateMinute.seconds (date : DateMinute) (second : ℤ) : ℤ :=
  daysFromCivil date.year date.month date.day * 86400 + date.hour * 3600 + date.minute * 60 + second

/-- `input[start..stop].parse().ok()?` -/
def readField {A : Type} (parse : List Char → Option A) (cs : List Char) (start stop : ℕ) :
    Except Stop A := do
  let field ← sliceText cs start stop
  orNothing (parse field)

def readDateMinute (cs : List Char) : Except Stop DateMinute := do
  let year ← readField parseI64 cs 0 4
  let month ← readField parseU32 cs 5 7
  let day ← readField parseU32 cs 8 10
  let hour ← readField parseI64 cs 11 13
  let minute ← readField parseI64 cs 14 16
  return { year, month, day, hour, minute }

/-- The hours and the minutes of an offset -/
def readOffset (offset : List Char) : Except Stop (ℤ × ℤ) :=
  if ':' ∈ offset then do
    let hours ← orNothing (parseI64 (offset.takeWhile (· != ':')))
    let minutes ← orNothing (parseI64 (offset.dropWhile (· != ':')).tail)
    return (hours, minutes)
  else if byteLength offset = 4 then do
    let hours ← readField parseI64 offset 0 2
    let minutes ← readField parseI64 offset 2 4
    return (hours, minutes)
  else do
    let hours ← orNothing (parseI64 offset)
    return (hours, 0)

/-- `timestamp -= sign * (hours * 3600 + minutes * 60)` -/
def subtractOffset (timestamp sign : ℤ) (offset : List Char) : Except Stop ℤ := do
  let (hours, minutes) ← readOffset offset
  let hours ← i64 (hours * 3600)
  let minutes ← i64 (minutes * 60)
  let seconds ← i64 (hours + minutes)
  let shift ← i64 (sign * seconds)
  i64 (timestamp - shift)

/-- The zone behind the seconds and their fraction -/
def applyZone (timestamp : ℤ) (tail : List Char) : Except Stop ℤ :=
  match tail.dropWhile fun c => c == '.' || c.isDigit with
  | '+' :: offset => subtractOffset timestamp 1 offset
  | '-' :: offset => subtractOffset timestamp (-1) offset
  | _ => .ok timestamp

def parseIso8601Seconds (input : String) : Except Stop ℤ :=
  let cs := input.toList
  if byteLength cs < 19 ∨ ¬ byteIs cs 4 '-' ∨ ¬ byteIs cs 7 '-' then .error .Nothing
  else if ¬ byteIs cs 10 'T' ∧ ¬ byteIs cs 10 ' ' then .error .Nothing
  else if ¬ byteIs cs 13 ':' ∨ ¬ byteIs cs 16 ':' then .error .Nothing
  else do
    let date ← readDateMinute cs
    let second ← readField parseI64 cs 17 19
    if ¬ (1 ≤ date.month ∧ date.month ≤ 12) ∨ ¬ (1 ≤ date.day ∧ date.day ≤ 31) then .error .Nothing
    else do
      let timestamp ← i64 (date.seconds second)
      let tail ← sliceFrom cs 19
      applyZone timestamp tail

/-! ## Cuts -/

theorem sliceText_field {front field back : List Char} {start stop : ℕ}
    (hstart : byteLength front = start) (hstop : start + byteLength field = stop) :
    sliceText (front ++ (field ++ back)) start stop = .ok field := by
  subst hstart hstop
  have hfront : splitAtByte (front ++ (field ++ back)) (byteLength front + byteLength field) =
      some (front ++ field, back) := by
    rw [← byteLength_append, ← List.append_assoc, splitAtByte_append]
  rw [sliceText, hfront]
  dsimp only
  rw [sliceFrom, splitAtByte_append]

/-- Behind a front, a slice and the rest are cut off at once. -/
theorem sliceText_behind {front : List Char} (rest : List Char) {start stop n : ℕ}
    (hstart : byteLength front = start) (hstop : start + n = stop) :
    sliceText (front ++ rest) start stop =
      match splitAtByte rest n with
      | some (first, _) => .ok first
      | none => .error .Panic := by
  subst hstart hstop
  rw [sliceText, splitAtByte_add]
  cases splitAtByte rest n with
  | none => rfl
  | some parts =>
      dsimp only [Option.map_some]
      rw [sliceFrom, splitAtByte_append]

theorem sliceFrom_behind {front : List Char} (rest : List Char) {start n : ℕ}
    (hstart : byteLength front + n = start) :
    sliceFrom (front ++ rest) start =
      match splitAtByte rest n with
      | some (_, back) => .ok back
      | none => .error .Panic := by
  subst hstart
  rw [sliceFrom, splitAtByte_add]
  cases splitAtByte rest n with
  | none => rfl
  | some parts => rfl

/-! ## The delimiters -/

/-- What stands in front of the seconds -/
structure Header where
  year : List Char
  month : List Char
  day : List Char
  separator : Char
  hour : List Char
  minute : List Char
  year_width : byteLength year = 4
  month_width : byteLength month = 2
  day_width : byteLength day = 2
  separator_eq : separator = 'T' ∨ separator = ' '
  hour_width : byteLength hour = 2
  minute_width : byteLength minute = 2

namespace Header

def text (h : Header) (rest : List Char) : List Char :=
  h.year ++ '-' :: (h.month ++ '-' :: (h.day ++ h.separator :: (h.hour ++ ':' :: (h.minute ++
    ':' :: rest))))

/-- The numbers that a header spells -/
def read (h : Header) : Option DateMinute := do
  let year ← parseI64 h.year
  let month ← parseU32 h.month
  let day ← parseU32 h.day
  let hour ← parseI64 h.hour
  let minute ← parseI64 h.minute
  return { year, month, day, hour, minute }

theorem separator_ascii (h : Header) : h.separator.toNat < 128 := by
  rcases h.separator_eq with heq | heq <;> rw [heq] <;> decide

end Header

/-- An ASCII byte behind an ASCII character is one of the text that follows. -/
theorem byteIs_behind {c d : Char} (hc : c.toNat < 128) {front back : List Char} {n offset : ℕ}
    (hoffset : byteLength front + 1 + n = offset) :
    byteIs (front ++ c :: back) offset d = byteIs back n d := by
  subst hoffset
  rw [byteIs, byteIs, getElem?_behind hc]

theorem byteIs_iff {c : Char} (hc : c.toNat < 128) (cs : List Char) (n : ℕ) :
    byteIs cs n c = true ↔ ∃ front back, cs = front ++ c :: back ∧ byteLength front = n := by
  rw [byteIs, beq_iff_eq, getElem?_ascii hc]

/-- The code goes on exactly if the text has a header and two more bytes. -/
theorem delimited_iff (cs : List Char) :
    (¬ (byteLength cs < 19 ∨ ¬ byteIs cs 4 '-' ∨ ¬ byteIs cs 7 '-') ∧
      ¬ (¬ byteIs cs 10 'T' ∧ ¬ byteIs cs 10 ' ') ∧ ¬ (¬ byteIs cs 13 ':' ∨ ¬ byteIs cs 16 ':')) ↔
      ∃ (h : Header) (rest : List Char), cs = h.text rest ∧ 2 ≤ byteLength rest := by
  constructor
  · rintro ⟨hfirst, hseparator, htimes⟩
    push Not at hfirst hseparator htimes
    obtain ⟨hlength, h4, h7⟩ := hfirst
    obtain ⟨h13, h16⟩ := htimes
    obtain ⟨year, r1, rfl, hyear⟩ := (byteIs_iff (by decide) _ _).mp h4
    rw [byteIs_behind (n := 2) (by decide) (by omega)] at h7
    obtain ⟨month, r2, rfl, hmonth⟩ := (byteIs_iff (by decide) _ _).mp h7
    have h10 : byteIs r2 2 'T' = true ∨ byteIs r2 2 ' ' = true := by
      rw [byteIs_behind (n := 5) (by decide) (by omega), byteIs_behind (n := 2) (by decide)
        (by omega)] at hseparator
      by_cases ht : byteIs r2 2 'T' = true
      · exact .inl ht
      · right
        have := hseparator ht
        rwa [byteIs_behind (n := 5) (by decide) (by omega), byteIs_behind (n := 2) (by decide)
          (by omega)] at this
    obtain ⟨separator, hsep, hascii, day, r3, rfl, hday⟩ : ∃ separator : Char,
        (separator = 'T' ∨ separator = ' ') ∧ separator.toNat < 128 ∧
          ∃ day r3, r2 = day ++ separator :: r3 ∧ byteLength day = 2 := by
      rcases h10 with h10 | h10
      · exact ⟨'T', .inl rfl, by decide, (byteIs_iff (by decide) _ _).mp h10⟩
      · exact ⟨' ', .inr rfl, by decide, (byteIs_iff (by decide) _ _).mp h10⟩
    rw [byteIs_behind (n := 8) (by decide) (by omega), byteIs_behind (n := 5) (by decide)
      (by omega), byteIs_behind (n := 2) hascii (by omega)] at h13
    obtain ⟨hour, r4, rfl, hhour⟩ := (byteIs_iff (by decide) _ _).mp h13
    rw [byteIs_behind (n := 11) (by decide) (by omega), byteIs_behind (n := 8) (by decide)
      (by omega), byteIs_behind (n := 5) hascii (by omega), byteIs_behind (n := 2) (by decide)
      (by omega)] at h16
    obtain ⟨minute, rest, rfl, hminute⟩ := (byteIs_iff (by decide) _ _).mp h16
    refine ⟨⟨year, month, day, separator, hour, minute, hyear, hmonth, hday, hsep, hhour, hminute⟩,
      rest, rfl, ?_⟩
    simp only [byteLength_append, byteLength_cons, ascii_size hascii,
      ascii_size (show '-'.toNat < 128 by decide), ascii_size (show ':'.toNat < 128 by decide)]
      at hlength
    omega
  · rintro ⟨h, rest, rfl, hrest⟩
    have hat : ∀ {c : Char} {front back : List Char} {n : ℕ}, c.toNat < 128 →
        byteLength front = n → byteIs (front ++ c :: back) n c = true := by
      intro c front back n hc hn
      exact (byteIs_iff hc _ _).mpr ⟨front, back, rfl, hn⟩
    have hyear := h.year_width
    have hmonth := h.month_width
    have hday := h.day_width
    have hhour := h.hour_width
    have hminute := h.minute_width
    have hascii := h.separator_ascii
    have h4 : byteIs (h.text rest) 4 '-' = true := hat (by decide) hyear
    have h7 : byteIs (h.text rest) 7 '-' = true := by
      rw [Header.text, byteIs_behind (n := 2) (by decide) (by omega)]
      exact hat (by decide) hmonth
    have h10 : byteIs (h.text rest) 10 h.separator = true := by
      rw [Header.text, byteIs_behind (n := 5) (by decide) (by omega), byteIs_behind (n := 2)
        (by decide) (by omega)]
      exact hat hascii hday
    have h13 : byteIs (h.text rest) 13 ':' = true := by
      rw [Header.text, byteIs_behind (n := 8) (by decide) (by omega), byteIs_behind (n := 5)
        (by decide) (by omega), byteIs_behind (n := 2) hascii (by omega)]
      exact hat (by decide) hhour
    have h16 : byteIs (h.text rest) 16 ':' = true := by
      rw [Header.text, byteIs_behind (n := 11) (by decide) (by omega), byteIs_behind (n := 8)
        (by decide) (by omega), byteIs_behind (n := 5) hascii (by omega), byteIs_behind (n := 2)
        (by decide) (by omega)]
      exact hat (by decide) hminute
    have hlength : 19 ≤ byteLength (h.text rest) := by
      simp only [Header.text, byteLength_append, byteLength_cons, ascii_size hascii,
        ascii_size (show '-'.toNat < 128 by decide), ascii_size (show ':'.toNat < 128 by decide)]
      omega
    refine ⟨by simp [h4, h7, hlength], ?_, by simp [h13, h16]⟩
    rcases h.separator_eq with hsep | hsep <;> rw [hsep] at h10 <;> simp [h10]

/-! ## The date and the time -/

/-- Digits of a given number are no larger than that many nines. -/
theorem ofDigitChars_lt {digits : List Char} (h : ∀ c ∈ digits, c.isDigit = true) (start : ℕ) :
    Nat.ofDigitChars 10 digits start < 10 ^ digits.length * (start + 1) := by
  induction digits generalizing start with
  | nil => simp
  | cons c digits ih =>
      have hc := digit_toNat (h c List.mem_cons_self)
      have hrest := ih (fun d hd => h d (List.mem_cons_of_mem _ hd)) (10 * start + (c.toNat - '0'.toNat))
      have hzero : '0'.toNat = 48 := rfl
      rw [Nat.ofDigitChars_cons]
      calc Nat.ofDigitChars 10 digits (10 * start + (c.toNat - '0'.toNat))
          < 10 ^ digits.length * (10 * start + (c.toNat - '0'.toNat) + 1) := hrest
        _ ≤ 10 ^ digits.length * (10 * (start + 1)) := Nat.mul_le_mul_left _ (by omega)
        _ = 10 ^ (digits.length + 1) * (start + 1) := by ring

theorem digitsValue_lt {digits : List Char} (h : IsDigits digits) :
    digitsValue digits < 10 ^ digits.length := by
  have := ofDigitChars_lt h 0
  rwa [zero_add, mul_one] at this

theorem digit_ascii {c : Char} (h : c.isDigit = true) : c.toNat < 128 :=
  lt_of_le_of_lt (digit_toNat h).2 (by decide)

theorem byteLength_digits {digits : List Char} (h : IsDigits digits) :
    byteLength digits = digits.length :=
  byteLength_ascii fun c hc => digit_ascii (h c hc)

/-- A number that was read is smaller than the width of its text allows. -/
theorem parseI64_bound {cs : List Char} {value : ℤ} {width : ℕ} (h : parseI64 cs = some value)
    (hwidth : byteLength cs ≤ width) : value.natAbs < 10 ^ width := by
  obtain ⟨sign, hsplit, -⟩ := stripSign_spec cs
  unfold parseI64 at h
  dsimp only at h
  by_cases hbad : (stripSign cs).2 = [] ∨ ¬ (stripSign cs).2.all Char.isDigit = true
  · rw [if_pos hbad] at h
    cases h
  rw [if_neg hbad] at h
  split_ifs at h with hfits
  cases h
  push Not at hbad
  have hdigits : IsDigits (stripSign cs).2 := List.all_eq_true.mp hbad.2
  have hlength : (stripSign cs).2.length ≤ width := by
    have hsum := congrArg byteLength hsplit
    rw [byteLength_append, byteLength_digits hdigits] at hsum
    omega
  have habs : (signed (stripSign cs).1 (digitsValue (stripSign cs).2)).natAbs =
      digitsValue (stripSign cs).2 := by
    cases (stripSign cs).1 <;> simp [signed]
  rw [habs]
  exact (digitsValue_lt hdigits).trans_le (Nat.pow_le_pow_right (by norm_num) hlength)

/-- The day number that the code gives to the last day of February. -/
theorem march_eq (year : ℤ) :
    year / 400 * 146097 + ((year - year / 400 * 400) * 365 + (year - year / 400 * 400) / 4 -
      (year - year / 400 * 400) / 100) - 719468 = dayFromYear (year + 1) - 306 := by
  unfold dayFromYear
  omega

/-- The civil day number is that of the proleptic Gregorian calendar. -/
theorem daysFromCivil_eq (year : ℤ) {month : ℕ} (day : ℕ) (hlow : 1 ≤ month) (hhigh : month ≤ 12) :
    daysFromCivil year month day = monthStart (12 * year + (month - 1 : ℤ)) + day - 1 := by
  have hera : ∀ y : ℤ, (if 0 ≤ y then y else y - 399).tdiv 400 = y / 400 := by
    intro y
    split_ifs with hy
    · exact Int.tdiv_eq_ediv_of_nonneg hy
    · have hneg : y - 399 = -(399 - y) := by ring
      rw [hneg, Int.neg_tdiv, Int.tdiv_eq_ediv_of_nonneg (by omega)]
      omega
  have hquarter : ∀ y : ℤ, (y - y / 400 * 400).tdiv 4 = (y - y / 400 * 400) / 4 := fun y =>
    Int.tdiv_eq_ediv_of_nonneg (by omega)
  have hcentury : ∀ y : ℤ, (y - y / 400 * 400).tdiv 100 = (y - y / 400 * 400) / 100 := fun y =>
    Int.tdiv_eq_ediv_of_nonneg (by omega)
  have hmonth := @monthStart_of_year year ((month : ℤ) - 1) (by omega) (by omega)
  rw [hmonth, daysFromCivil]
  simp only [hera, hquarter, hcentury]
  -- the years of the code start in March
  by_cases hearly : month ≤ 2
  · have hmarch := march_eq (year - 1)
    rw [sub_add_cancel] at hmarch
    rw [if_pos hearly]
    interval_cases month
    · simp [daysBefore]
      omega
    · simp [daysBefore]
      omega
  · have hmarch := march_eq year
    rw [dayFromYear_succ] at hmarch
    rw [if_neg hearly]
    cases hleap : isLeapYear year
    all_goals
      rw [hleap] at hmarch
      simp only [Bool.false_eq_true, if_true, if_false] at hmarch
      interval_cases month <;> simp [daysBefore] <;> omega

/-- The day numbers of four-digit years are small. -/
theorem daysFromCivil_bound {year : ℤ} {month day : ℕ} (hyear : year.natAbs < 10000)
    (hmonth : 1 ≤ month ∧ month ≤ 12) (hday : day ≤ 31) :
    (daysFromCivil year month day).natAbs < 10000000 := by
  obtain ⟨hlow, hhigh⟩ := hmonth
  have hbefore : ∀ leap : Bool, 0 ≤ daysBefore leap (month - 1 : ℤ) ∧
      daysBefore leap (month - 1 : ℤ) ≤ 366 := by
    intro leap
    interval_cases month <;> cases leap <;> decide
  have hyearDays := hbefore (isLeapYear year)
  rw [daysFromCivil_eq year day hlow hhigh, monthStart_of_year year (by omega) (by omega)]
  unfold dayFromYear
  omega

section Small

variable {date : DateMinute} {second : ℤ}

theorem seconds_small (hyear : date.year.natAbs < 10000)
    (hmonth : 1 ≤ date.month ∧ date.month ≤ 12) (hday : date.day ≤ 31)
    (hhour : date.hour.natAbs < 100) (hminute : date.minute.natAbs < 100)
    (hsecond : second.natAbs < 100) : (date.seconds second).natAbs < 10 ^ 13 := by
  have hdays := daysFromCivil_bound hyear hmonth hday
  unfold DateMinute.seconds
  omega

/-- **The arithmetic of a date and a time does not overflow.** -/
theorem seconds_fit (hyear : date.year.natAbs < 10000)
    (hmonth : 1 ≤ date.month ∧ date.month ≤ 12) (hday : date.day ≤ 31)
    (hhour : date.hour.natAbs < 100) (hminute : date.minute.natAbs < 100)
    (hsecond : second.natAbs < 100) : InI64 (date.seconds second) := by
  have hsmall := seconds_small hyear hmonth hday hhour hminute hsecond
  unfold InI64
  omega

end Small

/-! ## Reading a text with a header -/

/-- Month and day are in range. -/
def DateMinute.InRange (date : DateMinute) : Prop :=
  (1 ≤ date.month ∧ date.month ≤ 12) ∧ 1 ≤ date.day ∧ date.day ≤ 31

instance (date : DateMinute) : Decidable date.InRange := inferInstanceAs (Decidable (_ ∧ _))

theorem parse_undelimited {input : String}
    (hnone : ∀ (h : Header) (rest : List Char), input.toList = h.text rest → byteLength rest < 2) :
    parseIso8601Seconds input = .error .Nothing := by
  have hbad := mt (delimited_iff input.toList).mp (by
    rintro ⟨h, rest, htext, hrest⟩
    have := hnone h rest htext
    omega)
  unfold parseIso8601Seconds
  dsimp only
  by_cases hfirst : byteLength input.toList < 19 ∨ ¬ byteIs input.toList 4 '-' ∨
      ¬ byteIs input.toList 7 '-'
  · rw [if_pos hfirst]
  by_cases hsep : ¬ byteIs input.toList 10 'T' ∧ ¬ byteIs input.toList 10 ' '
  · rw [if_neg hfirst, if_pos hsep]
  by_cases htimes : ¬ byteIs input.toList 13 ':' ∨ ¬ byteIs input.toList 16 ':'
  · rw [if_neg hfirst, if_neg hsep, if_pos htimes]
  · exact absurd ⟨hfirst, hsep, htimes⟩ hbad

section Reading

variable {input : String} {h : Header} {rest second tail : List Char} {date : DateMinute}

/-- Every field of a header stands between its two neighbours. -/
theorem header_fields (htext : input.toList = h.text rest) :
    sliceText input.toList 0 4 = .ok h.year ∧ sliceText input.toList 5 7 = .ok h.month ∧
      sliceText input.toList 8 10 = .ok h.day ∧ sliceText input.toList 11 13 = .ok h.hour ∧
        sliceText input.toList 14 16 = .ok h.minute := by
  have hyear := h.year_width
  have hmonth := h.month_width
  have hday := h.day_width
  have hhour := h.hour_width
  have hminute := h.minute_width
  have hone := ascii_size h.separator_ascii
  have hdash : '-'.utf8Size = 1 := ascii_size (by decide)
  have hcolon : ':'.utf8Size = 1 := ascii_size (by decide)
  have hcut : ∀ (front : List Char) {field back : List Char} {start stop : ℕ},
      input.toList = front ++ (field ++ back) → byteLength front = start →
        start + byteLength field = stop → sliceText input.toList start stop = .ok field := by
    intro front field back start stop heq hstart hstop
    rw [heq]
    exact sliceText_field hstart hstop
  refine ⟨?_, ?_, ?_, ?_, ?_⟩
  · exact hcut [] (by rw [htext]; rfl) rfl (by omega)
  · refine hcut (h.year ++ ['-']) (by rw [htext]; simp [Header.text]; rfl) ?_ (by omega)
    simp [hyear, hdash]
  · refine hcut (h.year ++ '-' :: (h.month ++ ['-'])) (by rw [htext]; simp [Header.text]; rfl) ?_
      (by omega)
    simp [hyear, hmonth, hdash]
  · refine hcut (h.year ++ '-' :: (h.month ++ '-' :: (h.day ++ [h.separator])))
      (by rw [htext]; simp [Header.text]; rfl) ?_ (by omega)
    simp [hyear, hmonth, hday, hdash, hone]
  · refine hcut (h.year ++ '-' :: (h.month ++ '-' :: (h.day ++ h.separator :: (h.hour ++ [':']))))
      (by rw [htext]; simp [Header.text]; rfl) ?_ (by omega)
    simp [hyear, hmonth, hday, hhour, hdash, hone, hcolon]

/-- A header ends at byte 17. -/
theorem header_length (h : Header) (rest : List Char) :
    ∃ front, h.text rest = front ++ rest ∧ byteLength front = 17 := by
  refine ⟨h.text [], by simp [Header.text], ?_⟩
  have hone := ascii_size h.separator_ascii
  have hdash : '-'.utf8Size = 1 := ascii_size (by decide)
  have hcolon : ':'.utf8Size = 1 := ascii_size (by decide)
  simp [Header.text, h.year_width, h.month_width, h.day_width, h.hour_width, h.minute_width, hone,
    hdash, hcolon]

theorem orNothing_bind {A B : Type} (x : Option A) (f : A → Option B) :
    orNothing (x >>= f) = orNothing x >>= fun a => orNothing (f a) := by
  cases x <;> rfl

theorem readField_of_slice {A : Type} {parse : List Char → Option A} {cs field : List Char}
    {start stop : ℕ} (h : sliceText cs start stop = .ok field) :
    readField parse cs start stop = orNothing (parse field) := by
  rw [readField, h]
  rfl

/-- A header is read without a panic, as the numbers that it spells. -/
theorem readDateMinute_header (htext : input.toList = h.text rest) :
    readDateMinute input.toList = orNothing h.read := by
  obtain ⟨h4, h7, h10, h13, h16⟩ := header_fields htext
  rw [readDateMinute, readField_of_slice h4, readField_of_slice h7, readField_of_slice h10,
    readField_of_slice h13, readField_of_slice h16, Header.read]
  simp only [orNothing_bind]
  rfl

/-- The numbers of a header are as small as their texts are short. -/
theorem read_bounds (h : Header) (hread : h.read = some date) :
    date.year.natAbs < 10000 ∧ date.hour.natAbs < 100 ∧ date.minute.natAbs < 100 := by
  simp only [Header.read, Option.bind_eq_bind, Option.bind_eq_some_iff, Option.pure_def,
    Option.some.injEq] at hread
  obtain ⟨year, hyear, month, -, day, -, hour, hhour, minute, hminute, rfl⟩ := hread
  exact ⟨parseI64_bound hyear h.year_width.le, parseI64_bound hhour h.hour_width.le,
    parseI64_bound hminute h.minute_width.le⟩

/-- What the code does with the numbers of a header and the text behind it -/
def readBehind (date : DateMinute) (rest : List Char) : Except Stop ℤ :=
  match splitAtByte rest 2 with
  | none => .error .Panic
  | some (second, tail) =>
      match parseI64 second with
      | none => .error .Nothing
      | some second =>
          if date.InRange then applyZone (date.seconds second) tail else .error .Nothing

theorem parse_header (htext : input.toList = h.text rest) (hrest : 2 ≤ byteLength rest) :
    parseIso8601Seconds input =
      match h.read with
      | none => .error .Nothing
      | some date => readBehind date rest := by
  obtain ⟨hfirst, hsep, htimes⟩ := (delimited_iff input.toList).mpr ⟨h, rest, htext, hrest⟩
  obtain ⟨front, hfront, hseventeen⟩ := header_length h rest
  rw [← htext] at hfront
  unfold parseIso8601Seconds
  dsimp only
  rw [if_neg hfirst, if_neg hsep, if_neg htimes, readDateMinute_header htext]
  cases hread : h.read with
  | none => rfl
  | some date =>
      have hsecond := sliceText_behind rest hseventeen (rfl : 17 + 2 = 19)
      have htail := sliceFrom_behind rest (show byteLength front + 2 = 19 by omega)
      rw [← hfront] at hsecond htail
      show (readField parseI64 input.toList 17 19 >>= _) = readBehind date rest
      rw [readField, hsecond, htail, readBehind]
      cases hsplit : splitAtByte rest 2 with
      | none => rfl
      | some parts =>
          obtain ⟨second, tail⟩ := parts
          have hwidth := (splitAtByte_eq_some hsplit).2
          dsimp only [orNothing, Lib.ok_bind]
          cases hvalue : parseI64 second with
          | none => rfl
          | some value =>
              by_cases hrange : date.InRange
              · obtain ⟨hyear, hhour, hminute⟩ := read_bounds h hread
                have hfits : InI64 (date.seconds value) := seconds_fit hyear hrange.1 hrange.2.2
                  hhour hminute (parseI64_bound hvalue hwidth.le)
                have hchecked : ¬ (¬ (1 ≤ date.month ∧ date.month ≤ 12) ∨
                    ¬ (1 ≤ date.day ∧ date.day ≤ 31)) := by
                  rw [not_or, not_not, not_not]
                  exact hrange
                dsimp only
                rw [Lib.ok_bind, if_neg hchecked, if_pos hrange, i64, if_pos hfits, Lib.ok_bind]
              · have hchecked : ¬ (1 ≤ date.month ∧ date.month ≤ 12) ∨
                    ¬ (1 ≤ date.day ∧ date.day ≤ 31) := not_and_or.mp hrange
                dsimp only
                rw [Lib.ok_bind, if_pos hchecked, if_neg hrange]

end Reading

end StellarAgent.Math
