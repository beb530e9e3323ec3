import StellarAgent.Math.LedgerTime

set_option autoImplicit false

/-! # Timestamps and panics

A cut behind the seconds, or in the middle of an offset of four bytes, can fall inside a character,
and the seconds of an offset can overflow: `parse_panics_iff` says on which texts the parser panics.
`timestamps_iff` adds that it returns the seconds since the epoch of every timestamp whose date is
not followed by a lower case `t`.
-/

namespace StellarAgent.Math

open Lib Decimal

/-! ## Panics -/

/-- The text behind the seconds: a fraction, the sign of an offset and the offset -/
inductive ZoneText : List Char → ℤ → List Char → Prop where
  | east {fraction offset : List Char} : (∀ c ∈ fraction, c = '.' ∨ c.isDigit = true) →
      ZoneText (fraction ++ '+' :: offset) 1 offset
  | west {fraction offset : List Char} : (∀ c ∈ fraction, c = '.' ∨ c.isDigit = true) →
      ZoneText (fraction ++ '-' :: offset) (-1) offset

/-- An offset of four bytes without a colon whose middle is inside a character -/
def CutsOffset (offset : List Char) : Prop :=
  ':' ∉ offset ∧ byteLength offset = 4 ∧ splitAtByte offset 2 = none

/-- The seconds of an offset, and the time that is left, stay in the range of an `i64`. -/
def OffsetFits (timestamp sign hours minutes : ℤ) : Prop :=
  InI64 (hours * 3600) ∧ InI64 (minutes * 60) ∧ InI64 (hours * 3600 + minutes * 60) ∧
    InI64 (sign * (hours * 3600 + minutes * 60)) ∧
      InI64 (timestamp - sign * (hours * 3600 + minutes * 60))

/-- A readable date and time up to the minutes whose next two bytes end inside a character -/
def CutsSecond (input : String) : Prop :=
  ∃ (h : Header) (rest : List Char) (date : DateMinute), input.toList = h.text rest ∧
    h.read = some date ∧ 2 ≤ byteLength rest ∧ splitAtByte rest 2 = none

/-- A readable date and time with an offset that cannot be cut, or that overflows -/
def PanicsInOffset (input : String) : Prop :=
  ∃ (h : Header) (second tail : List Char) (date : DateMinute) (value sign : ℤ)
    (offset : List Char), input.toList = h.text (second ++ tail) ∧ byteLength second = 2 ∧
      h.read = some date ∧ parseI64 second = some value ∧ date.InRange ∧
        ZoneText tail sign offset ∧ (CutsOffset offset ∨ ∃ hours minutes,
          readOffset offset = .ok (hours, minutes) ∧
            ¬ OffsetFits (date.seconds value) sign hours minutes)

section Panics

variable {offset tail : List Char} {timestamp sign : ℤ}

theorem orNothing_ne_panic {A : Type} (x : Option A) : orNothing x ≠ .error .Panic := by
  cases x <;> simp [orNothing]

theorem bind_eq_panic {A B : Type} {x : Except Stop A} {f : A → Except Stop B} :
    (x >>= f) = .error .Panic ↔ x = .error .Panic ∨ ∃ a, x = .ok a ∧ f a = .error .Panic := by
  cases x with
  | error stop => simp [bind, Except.bind]
  | ok a => simp [bind, Except.bind]

/-- Reading an offset panics exactly if its middle cannot be cut. -/
theorem readOffset_panics : readOffset offset = .error .Panic ↔ CutsOffset offset := by
  unfold readOffset CutsOffset
  by_cases hcolon : ':' ∈ offset
  · simp [hcolon, bind_eq_panic, orNothing_ne_panic, pure, Except.pure]
  rw [if_neg hcolon]
  by_cases hfour : byteLength offset = 4
  · rw [if_pos hfour]
    cases hsplit : splitAtByte offset 2 with
    | none =>
        have hcut : sliceText offset 0 2 = .error .Panic := by rw [sliceText, hsplit]
        rw [readField, hcut]
        simp only [hcolon, hfour, not_false_eq_true, and_self, iff_true]
        rfl
    | some parts =>
        obtain ⟨hours, minutes⟩ := parts
        obtain ⟨rfl, htwo⟩ := splitAtByte_eq_some hsplit
        have hrest : byteLength minutes = 2 := by
          rw [byteLength_append] at hfour
          omega
        have hfirst : sliceText (hours ++ minutes) 0 2 = .ok hours :=
          @sliceText_field [] hours minutes 0 2 rfl (by omega)
        have hsecond : sliceText (hours ++ minutes) 2 4 = .ok minutes := by
          have h := @sliceText_field hours minutes [] 2 4 htwo (by omega)
          rwa [List.append_nil] at h
        rw [readField_of_slice hfirst, readField_of_slice hsecond]
        simp [bind_eq_panic, orNothing_ne_panic, pure, Except.pure]
  · rw [if_neg hfour]
    simp [bind_eq_panic, orNothing_ne_panic, pure, Except.pure, hfour]

theorem i64_of_fits {x : ℤ} (h : InI64 x) : i64 x = .ok x := if_pos h

theorem i64_of_not {x : ℤ} (h : ¬ InI64 x) : i64 x = .error .Panic := if_neg h

/-- With an offset that was read, the subtraction is exact or panics. -/
theorem subtractOffset_of_read {hours minutes : ℤ} (h : readOffset offset = .ok (hours, minutes)) :
    (OffsetFits timestamp sign hours minutes ∧ subtractOffset timestamp sign offset =
      .ok (timestamp - sign * (hours * 3600 + minutes * 60))) ∨
    (¬ OffsetFits timestamp sign hours minutes ∧
      subtractOffset timestamp sign offset = .error .Panic) := by
  rw [subtractOffset, h, Lib.ok_bind]
  dsimp only
  unfold OffsetFits
  by_cases hhours : InI64 (hours * 3600)
  · rw [i64_of_fits hhours, Lib.ok_bind]
    by_cases hminutes : InI64 (minutes * 60)
    · rw [i64_of_fits hminutes, Lib.ok_bind]
      by_cases hsum : InI64 (hours * 3600 + minutes * 60)
      · rw [i64_of_fits hsum, Lib.ok_bind]
        by_cases hsign : InI64 (sign * (hours * 3600 + minutes * 60))
        · rw [i64_of_fits hsign, Lib.ok_bind]
          by_cases hleft : InI64 (timestamp - sign * (hours * 3600 + minutes * 60))
          · exact .inl ⟨⟨hhours, hminutes, hsum, hsign, hleft⟩, i64_of_fits hleft⟩
          · exact .inr ⟨fun h => hleft h.2.2.2.2, i64_of_not hleft⟩
        · rw [i64_of_not hsign]
          exact .inr ⟨fun h => hsign h.2.2.2.1, rfl⟩
      · rw [i64_of_not hsum]
        exact .inr ⟨fun h => hsum h.2.2.1, rfl⟩
    · rw [i64_of_not hminutes]
      exact .inr ⟨fun h => hminutes h.2.1, rfl⟩
  · rw [i64_of_not hhours]
    exact .inr ⟨fun h => hhours h.1, rfl⟩

theorem subtractOffset_panics : subtractOffset timestamp sign offset = .error .Panic ↔
    CutsOffset offset ∨ ∃ hours minutes, readOffset offset = .ok (hours, minutes) ∧
      ¬ OffsetFits timestamp sign hours minutes := by
  cases hread : readOffset offset with
  | error stop =>
      rw [← readOffset_panics, hread, subtractOffset, hread, Lib.error_bind]
      simp
  | ok read =>
      obtain ⟨hours, minutes⟩ := read
      rw [← readOffset_panics, hread]
      rcases @subtractOffset_of_read offset timestamp sign hours minutes hread with h | h
      · rw [h.2]
        simp [h.1]
      · rw [h.2]
        simp [h.1]

theorem drop_fraction {fraction : List Char} {c : Char} (rest : List Char)
    (hfraction : ∀ d ∈ fraction, d = '.' ∨ d.isDigit = true) (hc : (c == '.' || c.isDigit) = false) :
    (fraction ++ c :: rest).dropWhile (fun d => d == '.' || d.isDigit) = c :: rest := by
  rw [List.dropWhile_append_of_pos fun d hd => by simpa using hfraction d hd,
    List.dropWhile_cons_of_neg (by simp [hc])]

/-- The zone is behind the points and digits. -/
theorem applyZone_zone (h : ZoneText tail sign offset) :
    applyZone timestamp tail = subtractOffset timestamp sign offset := by
  cases h with
  | east hfraction =>
      rw [applyZone, drop_fraction offset hfraction rfl]
      rfl
  | west hfraction =>
      rw [applyZone, drop_fraction offset hfraction rfl]
      rfl

theorem applyZone_none (h : ∀ sign offset, ¬ ZoneText tail sign offset) :
    applyZone timestamp tail = .ok timestamp := by
  have hcut := List.takeWhile_append_dropWhile (p := fun c => c == '.' || c.isDigit) (l := tail)
  have hfraction : ∀ c ∈ tail.takeWhile (fun c => c == '.' || c.isDigit),
      c = '.' ∨ c.isDigit = true := fun c hc => by simpa using List.mem_takeWhile_imp hc
  unfold applyZone
  split
  · rename_i offset heq
    rw [heq] at hcut
    exact absurd (hcut ▸ ZoneText.east hfraction) (h 1 offset)
  · rename_i offset heq
    rw [heq] at hcut
    exact absurd (hcut ▸ ZoneText.west hfraction) (h (-1) offset)
  · rfl

end Panics

/-- **When the parser panics.** -/
theorem parse_panics_iff (input : String) :
    parseIso8601Seconds input = .error .Panic ↔ CutsSecond input ∨ PanicsInOffset input := by
  constructor
  · intro hpanic
    by_cases hheader : ∃ (h : Header) (rest : List Char), input.toList = h.text rest ∧
        2 ≤ byteLength rest
    · obtain ⟨h, rest, htext, hrest⟩ := hheader
      rw [parse_header htext hrest] at hpanic
      cases hread : h.read with
      | none =>
          rw [hread] at hpanic
          cases hpanic
      | some date =>
          rw [hread] at hpanic
          dsimp only at hpanic
          unfold readBehind at hpanic
          cases hsplit : splitAtByte rest 2 with
          | none => exact .inl ⟨h, rest, date, htext, hread, hrest, hsplit⟩
          | some parts =>
              obtain ⟨second, tail⟩ := parts
              obtain ⟨rfl, htwo⟩ := splitAtByte_eq_some hsplit
              rw [hsplit] at hpanic
              dsimp only at hpanic
              cases hvalue : parseI64 second with
              | none =>
                  rw [hvalue] at hpanic
                  cases hpanic
              | some value =>
                  rw [hvalue] at hpanic
                  dsimp only at hpanic
                  by_cases hrange : date.InRange
                  swap
                  · rw [if_neg hrange] at hpanic
                    cases hpanic
                  rw [if_pos hrange] at hpanic
                  by_cases hzone : ∃ sign offset, ZoneText tail sign offset
                  · obtain ⟨sign, offset, hzone⟩ := hzone
                    rw [applyZone_zone hzone, subtractOffset_panics] at hpanic
                    exact .inr ⟨h, second, tail, date, value, sign, offset, htext, htwo, hread,
                      hvalue, hrange, hzone, hpanic⟩
                  · push Not at hzone
                    rw [applyZone_none hzone] at hpanic
                    cases hpanic
    · push Not at hheader
      rw [parse_undelimited hheader] at hpanic
      cases hpanic
  · rintro (⟨h, rest, date, htext, hread, hrest, hsplit⟩ | ⟨h, second, tail, date, value, sign,
      offset, htext, htwo, hread, hvalue, hrange, hzone, hoffset⟩)
    · rw [parse_header htext hrest, hread]
      dsimp only
      rw [readBehind, hsplit]
    · have hrest : 2 ≤ byteLength (second ++ tail) := by
        rw [byteLength_append]
        omega
      have hsplit : splitAtByte (second ++ tail) 2 = some (second, tail) := by
        rw [← htwo]
        exact splitAtByte_append second tail
      rw [parse_header htext hrest, hread]
      dsimp only
      rw [readBehind, hsplit]
      dsimp only
      rw [hvalue]
      dsimp only
      rw [if_pos hrange, applyZone_zone hzone]
      exact subtractOffset_panics.mpr hoffset

/-! ## Timestamps -/

/-- `Z` in either case, or a signed offset -/
inductive Zone where
  | utc (letter : Char) (letter_eq : letter = 'Z' ∨ letter = 'z')
  | numeric (negative : Bool) (hour minute : ℕ) (hour_le : hour ≤ 23) (minute_le : minute ≤ 59)

def Zone.text : Zone → List Char
  | .utc letter _ => [letter]
  | .numeric negative hour minute _ _ =>
      (if negative then '-' else '+') :: (paddedDigits 2 hour ++ ':' :: paddedDigits 2 minute)

/-- The seconds that a zone is ahead -/
def Zone.seconds : Zone → ℤ
  | .utc _ _ => 0
  | .numeric negative hour minute _ _ => signed negative (hour * 3600 + minute * 60)

/-- A timestamp of the standard. The letters may be in lower case, a space may stand for the `T`,
and a leap second may be the last one of a minute. -/
structure Timestamp where
  year : ℕ
  month : ℕ
  day : ℕ
  separator : Char
  hour : ℕ
  minute : ℕ
  second : ℕ
  fraction : List Char
  zone : Zone
  year_le : year ≤ 9999
  month_range : 1 ≤ month ∧ month ≤ 12
  day_range : 1 ≤ day ∧ (day : ℤ) ≤ monthLength (12 * year + (month - 1 : ℤ))
  separator_eq : separator = 'T' ∨ separator = 't' ∨ separator = ' '
  hour_le : hour ≤ 23
  minute_le : minute ≤ 59
  second_le : second ≤ 60
  fraction_digits : IsDigits fraction

namespace Timestamp

def dateText (t : Timestamp) : List Char :=
  paddedDigits 4 t.year ++ '-' :: (paddedDigits 2 t.month ++ '-' :: paddedDigits 2 t.day)

def timeText (t : Timestamp) : List Char :=
  paddedDigits 2 t.hour ++ ':' :: (paddedDigits 2 t.minute ++ ':' :: (paddedDigits 2 t.second ++
    ((if t.fraction = [] then [] else '.' :: t.fraction) ++ t.zone.text)))

def text (t : Timestamp) : String := String.ofList (t.dateText ++ t.separator :: t.timeText)

/-- The instant, in seconds since the epoch in the proleptic Gregorian calendar -/
def instant (t : Timestamp) : ℚ :=
  (((monthStart (12 * t.year + (t.month - 1 : ℤ)) + t.day - 1) * 86400 + t.hour * 3600 +
    t.minute * 60 + t.second - t.zone.seconds : ℤ) : ℚ) +
      digitsValue t.fraction / 10 ^ t.fraction.length

end Timestamp

/-- The digits of a number that fits are as many as the width. -/
theorem length_paddedDigits {width n : ℕ} (hpos : 0 < width) (h : n < 10 ^ width) :
    (paddedDigits width n).length = width := by
  have hle := (Nat.length_toDigits_le_iff (by norm_num : 1 < 10) hpos).mpr h
  rw [paddedDigits, List.length_append, List.length_replicate]
  omega

theorem byteLength_paddedDigits (width n : ℕ) (hpos : 0 < width) (h : n < 10 ^ width) :
    byteLength (paddedDigits width n) = width := by
  rw [byteLength_digits isDigit_paddedDigits, length_paddedDigits hpos h]

theorem paddedDigits_ne_nil (width n : ℕ) : paddedDigits (width + 1) n ≠ [] := by
  have := le_length_paddedDigits (width + 1) n
  intro hnil
  rw [hnil, List.length_nil] at this
  omega

/-- Digits are read as their number. -/
theorem parseI64_digits {n : ℕ} (width : ℕ) (h : n < 2 ^ 63) :
    parseI64 (paddedDigits (width + 1) n) = some n := by
  obtain ⟨first, others, hcons⟩ := List.exists_cons_of_ne_nil (paddedDigits_ne_nil width n)
  have hdigits : IsDigits (paddedDigits (width + 1) n) := isDigit_paddedDigits
  have hfirst : first.isDigit = true := hdigits first (by rw [hcons]; exact List.mem_cons_self)
  have hstrip : stripSign (paddedDigits (width + 1) n) = (false, paddedDigits (width + 1) n) := by
    rw [hcons]
    exact stripSign_digit hfirst
  have hvalue : digitsValue (paddedDigits (width + 1) n) = n := ofDigitChars_paddedDigits _ _
  have hall : (paddedDigits (width + 1) n).all Char.isDigit = true :=
    List.all_eq_true.mpr hdigits
  have hgood : ¬ (paddedDigits (width + 1) n = [] ∨
      ¬ (paddedDigits (width + 1) n).all Char.isDigit = true) := by
    rw [not_or, not_not]
    exact ⟨paddedDigits_ne_nil width n, hall⟩
  have hfits : InI64 (signed false n) := by
    unfold InI64 signed
    simp only [Bool.false_eq_true, if_false]
    omega
  rw [parseI64, hstrip]
  dsimp only
  rw [if_neg hgood, hvalue, if_pos hfits]
  rfl

theorem parseU32_digits {n : ℕ} (width : ℕ) (h : n ≤ U32_MAX) :
    parseU32 (paddedDigits (width + 1) n) = some n := by
  obtain ⟨first, others, hcons⟩ := List.exists_cons_of_ne_nil (paddedDigits_ne_nil width n)
  have hdigits : IsDigits (paddedDigits (width + 1) n) := isDigit_paddedDigits
  have hfirst : first.isDigit = true := hdigits first (by rw [hcons]; exact List.mem_cons_self)
  have hplus : first ≠ '+' := digit_ne hfirst (by decide)
  have hvalue : digitsValue (paddedDigits (width + 1) n) = n := ofDigitChars_paddedDigits _ _
  have hall : (paddedDigits (width + 1) n).all Char.isDigit = true :=
    List.all_eq_true.mpr hdigits
  have hgood : ¬ (paddedDigits (width + 1) n = [] ∨
      ¬ (paddedDigits (width + 1) n).all Char.isDigit = true) := by
    rw [not_or, not_not]
    exact ⟨paddedDigits_ne_nil width n, hall⟩
  have hsame : stripPlus (paddedDigits (width + 1) n) = paddedDigits (width + 1) n := by
    rw [hcons]
    unfold stripPlus
    split
    · rename_i heq
      exact absurd (List.cons.inj heq).1 hplus
    · rfl
  unfold parseU32
  rw [hsame]
  dsimp only
  rw [if_neg hgood, hvalue, if_pos h]

namespace Timestamp

variable (t : Timestamp)

theorem day_le : t.day ≤ 31 := by
  have hday := t.day_range.2
  have hmonth := (monthLength_bounds (12 * t.year + (t.month - 1 : ℤ))).2
  omega

/-- The header of a timestamp with a separator that the code knows -/
def header (h : t.separator = 'T' ∨ t.separator = ' ') : Header where
  year := paddedDigits 4 t.year
  month := paddedDigits 2 t.month
  day := paddedDigits 2 t.day
  separator := t.separator
  hour := paddedDigits 2 t.hour
  minute := paddedDigits 2 t.minute
  year_width := byteLength_paddedDigits _ _ (by norm_num) (by have := t.year_le; omega)
  month_width := byteLength_paddedDigits _ _ (by norm_num) (by have := t.month_range; omega)
  day_width := byteLength_paddedDigits _ _ (by norm_num) (by have := t.day_le; omega)
  separator_eq := h
  hour_width := byteLength_paddedDigits _ _ (by norm_num) (by have := t.hour_le; omega)
  minute_width := byteLength_paddedDigits _ _ (by norm_num) (by have := t.minute_le; omega)

def dateMinute : DateMinute where
  year := t.year
  month := t.month
  day := t.day
  hour := t.hour
  minute := t.minute

theorem header_read (h : t.separator = 'T' ∨ t.separator = ' ') :
    (t.header h).read = some t.dateMinute := by
  have hyear : parseI64 (paddedDigits 4 t.year) = some (t.year : ℤ) :=
    parseI64_digits 3 (by have := t.year_le; omega)
  have hmonth : parseU32 (paddedDigits 2 t.month) = some t.month :=
    parseU32_digits 1 (by have := t.month_range; unfold U32_MAX; omega)
  have hday : parseU32 (paddedDigits 2 t.day) = some t.day :=
    parseU32_digits 1 (by have := t.day_le; unfold U32_MAX; omega)
  have hhour : parseI64 (paddedDigits 2 t.hour) = some (t.hour : ℤ) :=
    parseI64_digits 1 (by have := t.hour_le; omega)
  have hminute : parseI64 (paddedDigits 2 t.minute) = some (t.minute : ℤ) :=
    parseI64_digits 1 (by have := t.minute_le; omega)
  simp only [Header.read, header, hyear, hmonth, hday, hhour, hminute]
  rfl

theorem dateMinute_inRange : t.dateMinute.InRange := ⟨t.month_range, t.day_range.1, t.day_le⟩

/-- The seconds of a date and a time are those of the calendar. -/
theorem dateMinute_seconds : t.dateMinute.seconds t.second =
    (monthStart (12 * t.year + (t.month - 1 : ℤ)) + t.day - 1) * 86400 + t.hour * 3600 +
      t.minute * 60 + t.second := by
  show daysFromCivil t.year t.month t.day * 86400 + _ + _ + _ = _
  rw [daysFromCivil_eq t.year t.day t.month_range.1 t.month_range.2]
  rfl

/-- The zone of a timestamp is taken off. -/
theorem applyZone_text : applyZone (t.dateMinute.seconds t.second)
    ((if t.fraction = [] then [] else '.' :: t.fraction) ++ t.zone.text) =
      .ok (t.dateMinute.seconds t.second - t.zone.seconds) := by
  have hfraction : ∀ c ∈ (if t.fraction = [] then [] else '.' :: t.fraction),
      c = '.' ∨ c.isDigit = true := by
    intro c hc
    split_ifs at hc
    · cases hc
    · rcases List.mem_cons.mp hc with rfl | hc
      · exact .inl rfl
      · exact .inr (t.fraction_digits c hc)
  cases t.zone with
  | utc letter hletter =>
      have hletter' : (letter == '.' || letter.isDigit) = false := by
        rcases hletter with rfl | rfl <;> rfl
      rw [Zone.text, applyZone, drop_fraction [] hfraction hletter', Zone.seconds, sub_zero]
      rcases hletter with rfl | rfl <;> rfl
  | numeric negative hour minute hhour hminute =>
      have hread : readOffset (paddedDigits 2 hour ++ ':' :: paddedDigits 2 minute) =
          .ok ((hour : ℤ), (minute : ℤ)) := by
        have hnocolon : ∀ c ∈ paddedDigits 2 hour, (c != ':') = true := fun c hc => by
          simpa using digit_ne (isDigit_paddedDigits c hc) (by decide)
        rw [readOffset, if_pos (by simp), List.takeWhile_append_of_pos hnocolon,
          List.dropWhile_append_of_pos hnocolon]
        have hhours : parseI64 (paddedDigits 2 hour) = some (hour : ℤ) :=
          parseI64_digits 1 (by omega)
        have hminutes : parseI64 (paddedDigits 2 minute) = some (minute : ℤ) :=
          parseI64_digits 1 (by omega)
        simp only [List.takeWhile_cons, List.dropWhile_cons, bne_self_eq_false, Bool.false_eq_true,
          if_false, List.append_nil, List.tail_cons, hhours, hminutes]
        rfl
      have hsmall : (t.dateMinute.seconds t.second).natAbs < 10 ^ 13 := by
        have hyear := t.year_le
        have hhour' := t.hour_le
        have hminute' := t.minute_le
        have hsecond := t.second_le
        exact seconds_small (by show (t.year : ℤ).natAbs < 10000; omega) t.month_range t.day_le
          (by show (t.hour : ℤ).natAbs < 100; omega) (by show (t.minute : ℤ).natAbs < 100; omega)
          (by omega)
      have hfits : ∀ sign : ℤ, sign = 1 ∨ sign = -1 →
          OffsetFits (t.dateMinute.seconds t.second) sign hour minute := by
        unfold OffsetFits InI64
        rintro sign (rfl | rfl) <;> omega
      have hdone : ∀ sign : ℤ, sign = 1 ∨ sign = -1 →
          subtractOffset (t.dateMinute.seconds t.second) sign
            (paddedDigits 2 hour ++ ':' :: paddedDigits 2 minute) =
              .ok (t.dateMinute.seconds t.second - sign * (hour * 3600 + minute * 60)) := by
        intro sign hsign
        rcases subtractOffset_of_read hread with h | h
        · exact h.2
        · exact absurd (hfits sign hsign) h.1
      cases negative with
      | false =>
          have hzone : applyZone (t.dateMinute.seconds t.second)
              ((if t.fraction = [] then [] else '.' :: t.fraction) ++
                '+' :: (paddedDigits 2 hour ++ ':' :: paddedDigits 2 minute)) = _ :=
            applyZone_zone (.east hfraction)
          rw [hdone 1 (.inl rfl), one_mul] at hzone
          exact hzone
      | true =>
          have hzone : applyZone (t.dateMinute.seconds t.second)
              ((if t.fraction = [] then [] else '.' :: t.fraction) ++
                '-' :: (paddedDigits 2 hour ++ ':' :: paddedDigits 2 minute)) = _ :=
            applyZone_zone (.west hfraction)
          rw [hdone (-1) (.inr rfl), neg_one_mul] at hzone
          exact hzone

theorem text_toList (h : t.separator = 'T' ∨ t.separator = ' ') :
    t.text.toList = (t.header h).text (paddedDigits 2 t.second ++
      ((if t.fraction = [] then [] else '.' :: t.fraction) ++ t.zone.text)) := by
  simp [text, dateText, timeText, Header.text, header]

/-- The whole seconds of an instant -/
theorem floor_instant : ⌊t.instant⌋ = t.dateMinute.seconds t.second - t.zone.seconds := by
  have hpow : (0 : ℚ) < 10 ^ t.fraction.length := by positivity
  have hlow : (0 : ℚ) ≤ digitsValue t.fraction / 10 ^ t.fraction.length := by positivity
  have hhigh : (digitsValue t.fraction : ℚ) / 10 ^ t.fraction.length < 1 := by
    rw [div_lt_one hpow]
    exact_mod_cast digitsValue_lt t.fraction_digits
  rw [instant, t.dateMinute_seconds, Int.floor_intCast_add, Int.floor_eq_zero_iff.mpr ⟨hlow, hhigh⟩,
    add_zero]

/-- A timestamp with a separator that the code knows is read as the seconds since the epoch. -/
theorem parse_text (h : t.separator = 'T' ∨ t.separator = ' ') :
    parseIso8601Seconds t.text = .ok ⌊t.instant⌋ := by
  have hwidth : byteLength (paddedDigits 2 t.second) = 2 :=
    byteLength_paddedDigits _ _ (by norm_num) (by have := t.second_le; omega)
  have hsecond : parseI64 (paddedDigits 2 t.second) = some (t.second : ℤ) :=
    parseI64_digits 1 (by have := t.second_le; omega)
  have hsplit := splitAtByte_append (paddedDigits 2 t.second)
    ((if t.fraction = [] then [] else '.' :: t.fraction) ++ t.zone.text)
  rw [hwidth] at hsplit
  rw [parse_header (t.text_toList h) (by rw [byteLength_append]; omega), t.header_read h]
  dsimp only
  rw [readBehind, hsplit]
  dsimp only
  rw [hsecond]
  dsimp only
  rw [if_pos t.dateMinute_inRange, t.applyZone_text, t.floor_instant]

/-- Behind the ten bytes of a date, the code wants an upper case letter or a space. -/
theorem parse_lower (h : t.separator = 't') : parseIso8601Seconds t.text = .error .Nothing := by
  refine parse_undelimited fun header rest htext => ?_
  exfalso
  have hdate : byteLength t.dateText = 10 := by
    have hyear := byteLength_paddedDigits 4 t.year (by norm_num)
      (by have := t.year_le; omega)
    have hmonth := byteLength_paddedDigits 2 t.month (by norm_num)
      (by have := t.month_range; omega)
    have hday := byteLength_paddedDigits 2 t.day (by norm_num)
      (by have := t.day_le; omega)
    have hdash : '-'.utf8Size = 1 := ascii_size (by decide)
    simp [dateText, hyear, hmonth, hday, hdash]
  obtain ⟨front, back, hfront, hten⟩ : ∃ front back, header.text rest =
      front ++ header.separator :: back ∧ byteLength front = 10 := by
    have hdash : '-'.utf8Size = 1 := ascii_size (by decide)
    refine ⟨header.year ++ '-' :: (header.month ++ '-' :: header.day), _,
      by simp [Header.text]; rfl, ?_⟩
    simp [header.year_width, header.month_width, header.day_width, hdash]
  have hcut := splitAtByte_append t.dateText (t.separator :: t.timeText)
  have hcut' := splitAtByte_append front (header.separator :: back)
  rw [hdate] at hcut
  rw [hten] at hcut'
  rw [text, String.toList_ofList] at htext
  rw [htext, hfront, hcut'] at hcut
  have hsep : header.separator = t.separator :=
    (List.cons.inj (Prod.mk.inj (Option.some.inj hcut)).2).1
  rw [h] at hsep
  rcases header.separator_eq with heq | heq <;> rw [heq] at hsep <;> exact absurd hsep (by decide)

end Timestamp

/-- **The parser of timestamps.** It panics exactly where a cut falls inside a character or an
offset overflows, and it returns the seconds since the epoch of exactly the timestamps whose date
is not followed by a lower case `t`. -/
theorem timestamps_iff (input : String) (t : Timestamp) :
    (parseIso8601Seconds input ≠ .error .Panic ↔ ¬ CutsSecond input ∧ ¬ PanicsInOffset input) ∧
      (parseIso8601Seconds t.text = .ok ⌊t.instant⌋ ↔ t.separator ≠ 't') := by
  constructor
  · rw [Ne, parse_panics_iff, not_or]
  · constructor
    · intro h hlower
      rw [t.parse_lower hlower] at h
      cases h
    · intro hupper
      rcases t.separator_eq with h | h | h
      · exact t.parse_text (.inl h)
      · exact absurd h hupper
      · exact t.parse_text (.inr h)

/-- The last two bytes of the first text are one character, those in the middle of the second
offset another; the third offset has too many seconds, and the last text is a timestamp with a lower
case `t`. -/
theorem timestamps_panic :
    parseIso8601Seconds "2024-01-01T00:00:0é" = .error .Panic ∧
      parseIso8601Seconds "2024-01-01T00:00:00+1é2" = .error .Panic ∧
      parseIso8601Seconds "2024-01-01T00:00:00+9223372036854775807" = .error .Panic ∧
      parseIso8601Seconds "1970-01-01t00:00:00z" = .error .Nothing := by
  decide +kernel

end StellarAgent.Math
