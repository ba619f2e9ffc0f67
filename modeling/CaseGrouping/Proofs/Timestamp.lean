import CaseGrouping.Timestamp
import CaseGrouping.Proofs.Json.Reading
import CaseGrouping.Proofs.Store.Allocation
import Mathlib.Tactic.IntervalCases
import Mathlib.Tactic.Set

/-! Instants are read from their texts. The date of a day counts as that day again, as years that
begin with March tell: each ends with the February that its length depends on.
-/

namespace CaseGrouping.Timestamp

-----------------------------------------------------------------------------------------
-- Years
-----------------------------------------------------------------------------------------

/-- The days before a year, where years begin with March. -/
def daysBefore (year : Int) : Int :=
  365 * year + year / 4 - year / 100 + year / 400

theorem daysBefore_succ (year : Int)
    : daysBefore (year + 1) = daysBefore year + if isLeapYear (year + 1) then 366 else 365 := by
  simp only [isLeapYear, daysBefore, Bool.and_eq_true, Bool.or_eq_true, decide_eq_true_eq]
  split <;> omega

theorem daysBefore_era (year era : Int)
    : daysBefore (year + era * 400) = daysBefore year + era * 146097 := by
  unfold daysBefore
  omega

/-- The year that a day of an era of 400 years is in. -/
def yearOfDay (day : Int) : Int :=
  (day - day / 1460 + day / 36524 - day / 146096) / 365

/-- A day of an era is in its year. -/
theorem daysBefore_yearOfDay {day : Int} (start : 0 ≤ day) (stop : day < 146097)
    : (0 ≤ yearOfDay day ∧ yearOfDay day < 400)
      ∧ daysBefore (yearOfDay day) ≤ day
      ∧ day < daysBefore (yearOfDay day + 1) := by
  unfold daysBefore yearOfDay
  set fours := day / 1460 with _
  set hundreds := day / 36524 with _
  set last := day / 146096 with _
  set year := (day - fours + hundreds - last) / 365 with _
  have range : 0 ≤ year ∧ year < 400 := by omega
  -- The leap days are counted by divisions of the day or of the year, which differ by one at most.
  have leaps : fours = year / 4 - 1 ∨ fours = year / 4 ∨ fours = year / 4 + 1 := by omega
  have centuries : hundreds = 0 ∨ hundreds = 1 ∨ hundreds = 2 ∨ hundreds = 3 ∨ hundreds = 4 := by
    omega
  have ends : last = 0 ∨ last = 1 := by omega
  have century : year / 100 = 0 ∨ year / 100 = 1 ∨ year / 100 = 2 ∨ year / 100 = 3 := by omega
  have next : (year + 1) / 4 = year / 4 ∨ (year + 1) / 4 = year / 4 + 1 := by omega
  have next' : (year + 1) / 100 = year / 100 ∨ (year + 1) / 100 = year / 100 + 1 := by omega
  have next'' : (year + 1) / 400 = 0 ∨ (year + 1) / 400 = 1 := by omega
  refine ⟨range, ?_⟩
  rcases centuries with c | c | c | c | c <;> rcases ends with l | l
    <;> rcases century with y | y | y | y <;> rcases leaps with f | f | f <;> omega

-----------------------------------------------------------------------------------------
-- Dates
-----------------------------------------------------------------------------------------

/-- The date of a day of a year that begins with March. -/
def dateFromMarch (year day : Int) : Int × Nat × Nat :=
  let monthFromMarch := (5 * day + 2) / 153
  let month := if monthFromMarch < 10 then monthFromMarch + 3 else monthFromMarch - 9
  (year + (if month ≤ 2 then 1 else 0), month.toNat,
    (day - (153 * monthFromMarch + 2) / 5 + 1).toNat)

/-- A date that the calendar has. -/
structure IsDate (date : Int × Nat × Nat) : Prop where
  month_pos : 1 ≤ date.2.1
  month_le : date.2.1 ≤ 12
  day_pos : 1 ≤ date.2.2
  day_le : date.2.2 ≤ daysInMonth date.1 date.2.1

section Dates

variable {year day : Int} (start : 0 ≤ day)

include start

/-- A day of a year is in one of its twelve months. -/
theorem month_range {month : Int} (stop : day < 366) (here : month = (5 * day + 2) / 153)
    : 0 ≤ month ∧ month < 12 ∧ 1 ≤ day - (153 * month + 2) / 5 + 1 := by
  omega

theorem daysOfDate_dateFromMarch (stop : day < 366)
    : daysOfDate (dateFromMarch year day).1 (dateFromMarch year day).2.1
        (dateFromMarch year day).2.2
      = daysBefore year + day - 719468 := by
  obtain ⟨month, here⟩ : ∃ month, month = (5 * day + 2) / 153 := ⟨_, rfl⟩
  obtain ⟨low, high, pos⟩ := month_range start stop here
  simp only [dateFromMarch, ← here, daysOfDate, daysBefore]
  have number : ((if month < 10 then month + 3 else month - 9).toNat + 9 : Int) % 12 = month := by
    split <;> omega
  have same : (if (if month < 10 then month + 3 else month - 9).toNat ≤ 2 then
        year + (if (if month < 10 then month + 3 else month - 9) ≤ 2 then 1 else 0) - 1
      else year + (if (if month < 10 then month + 3 else month - 9) ≤ 2 then 1 else 0)) = year := by
    split <;> split <;> omega
  rw [number, same]
  omega

theorem isDate_dateFromMarch (stop : day < if isLeapYear (year + 1) then 366 else 365)
    : IsDate (dateFromMarch year day) := by
  have within : day < 366 := by split at stop <;> omega
  obtain ⟨month, here⟩ : ∃ month, month = (5 * day + 2) / 153 := ⟨_, rfl⟩
  obtain ⟨low, high, pos⟩ := month_range start within here
  constructor <;> simp only [dateFromMarch, ← here]
  · omega
  · omega
  · omega
  · interval_cases month <;> simp [daysInMonth] <;> try omega
    split at stop <;> simp_all <;> omega

end Dates

/-- Days are counted from the first March of an era, and years in eras of 400. -/
theorem dateOfDays_eq {days era day year : Int} (whole : day + 146097 * era = days + 719468)
    (start : 0 ≤ day) (stop : day < 146097) (here : yearOfDay day = year)
    : dateOfDays days
      = dateFromMarch (year + era * 400) (day - daysBefore year) := by
  obtain ⟨range, _⟩ := daysBefore_yearOfDay start stop
  have past : (days + 719468) / 146097 = era := by omega
  have rest : (days + 719468) % 146097 = day := by omega
  have none : year / 400 = 0 := by omega
  unfold yearOfDay at here
  simp only [dateOfDays, dateFromMarch, past, rest, here, daysBefore, none, add_zero]

/-- The date of a day is a date, and counts as the day. -/
theorem dateOfDays_spec (days : Int)
    : IsDate (dateOfDays days)
      ∧ daysOfDate (dateOfDays days).1 (dateOfDays days).2.1 (dateOfDays days).2.2 = days := by
  have whole := Int.emod_add_mul_ediv (days + 719468) 146097
  have start := Int.emod_nonneg (days + 719468) (by decide : (146097 : Int) ≠ 0)
  have stop := Int.emod_lt_of_pos (days + 719468) (by decide : (0 : Int) < 146097)
  obtain ⟨_, first, last⟩ := daysBefore_yearOfDay start stop
  rw [dateOfDays_eq whole start stop rfl]
  generalize (days + 719468) / 146097 = era at *
  generalize (days + 719468) % 146097 = day at *
  have length := daysBefore_succ (yearOfDay day + era * 400)
  have before := daysBefore_era (yearOfDay day) era
  have after := daysBefore_era (yearOfDay day + 1) era
  rw [add_right_comm] at after
  have inside : day - daysBefore (yearOfDay day)
      < if isLeapYear (yearOfDay day + era * 400 + 1) then 366 else 365 := by omega
  refine ⟨isDate_dateFromMarch (by omega) inside, ?_⟩
  rw [daysOfDate_dateFromMarch (by omega) (by split at inside <;> omega)]
  omega

-----------------------------------------------------------------------------------------
-- Numbers
-----------------------------------------------------------------------------------------

section Numbers

open Decimal Text

variable {digits rest : List Char} {places width n : Nat}

theorem allDigits_padNatural (width n : Nat) : AllDigits (padNatural width n) :=
  (allDigits_replicate _).append (allDigits_toDigits n)

theorem padNatural_ne_nil : padNatural width n ≠ [] :=
  List.append_ne_nil_of_right_ne_nil _ Nat.toDigits_ne_nil

theorem length_padNatural (pos : 0 < width) (small : n < 10 ^ width)
    : (padNatural width n).length = width := by
  have short := (Nat.length_toDigits_le_iff (by decide) pos).mpr small
  rw [padNatural, List.length_append, List.length_replicate]
  omega

theorem skipBlanks_digits (all : AllDigits digits) (some : digits ≠ [])
    : skipBlanks (digits ++ rest) = digits ++ rest := by
  obtain ⟨c, cs, rfl⟩ := List.exists_cons_of_ne_nil some
  simp [skipBlanks, isBlank_of_isDigit (all c (by simp))]

/-- Digits are read that fill the width, or come before something else. -/
theorem readDigits_append (all : AllDigits digits) (some : digits ≠ [])
    (fits : digits.length ≤ width)
    (ends : digits.length = width ∨ ∀ c ∈ rest.head?, c.isDigit = false)
    : readDigits width (digits ++ rest)
      = .some (digits.map fun c => c.toNat - '0'.toNat, rest) := by
  have none : (rest.take (width - digits.length)).takeWhile Char.isDigit = [] := by
    rcases ends with full | other
    · simp [full]
    · cases rest with
      | nil => simp
      | cons c rest => cases width - digits.length <;> simp [other c rfl]
  have taken : ((digits ++ rest).take width).takeWhile Char.isDigit = digits := by
    rw [List.take_append, List.take_of_length_le fits, List.takeWhile_append_of_pos all, none,
      List.append_nil]
  obtain ⟨c, cs, rfl⟩ := List.exists_cons_of_ne_nil some
  rw [readDigits, taken]
  simp

/-- So are the digits of a number, and they have its value. -/
theorem readDigits_padNatural (rest : List Char) (fits : (padNatural places n).length ≤ width)
    (ends : (padNatural places n).length = width ∨ ∀ c ∈ rest.head?, c.isDigit = false)
    : ∃ ds,
        readDigits width (padNatural places n ++ rest) = some (ds, rest)
        ∧ Json.Numeral.digitsValue ds = n
        ∧ ds.length = (padNatural places n).length := by
  refine ⟨_, readDigits_append (allDigits_padNatural places n) padNatural_ne_nil fits ends, ?_,
    List.length_map _⟩
  rw [Json.Draft.digitsValue_map, ofDigitChars_padNatural]

/-- A number is read that fills the width. -/
theorem readNumber_padNatural (rest : List Char) (pos : 0 < width) (small : n < 10 ^ width)
    : readNumber width (padNatural width n ++ rest) = some (n, rest) := by
  have length := length_padNatural pos small
  obtain ⟨ds, reads, value, _⟩ := readDigits_padNatural rest length.le (.inl length)
  rw [readNumber, skipBlanks_digits (allDigits_padNatural width n) padNatural_ne_nil, reads]
  simp [value]

theorem readNumber_twoDigits (rest : List Char) (small : n < 100)
    : readNumber 2 (twoDigits n ++ rest) = some (n, rest) :=
  readNumber_padNatural rest (by decide) small

theorem readMark_cons {mark : Char} (solid : isBlank mark = false) (cs : List Char)
    : readMark mark (mark :: cs) = some cs := by
  simp [readMark, skipBlanks, solid]

theorem readYear_digits (all : AllDigits digits) (some : digits ≠ [])
    : readYear (digits ++ rest)
      = (readDigits 4 (digits ++ rest)).map fun p =>
          ((Json.Numeral.digitsValue p.1 : Int), p.2) := by
  have solid : skipBlanks (digits ++ rest) = digits ++ rest := skipBlanks_digits all some
  obtain ⟨c, cs, rfl⟩ := List.exists_cons_of_ne_nil some
  have digit := all c (by simp)
  rw [readYear, solid]
  split
  next same =>
    obtain ⟨rfl, _⟩ := List.cons.inj same
    cases digit
  next same =>
    obtain ⟨rfl, _⟩ := List.cons.inj same
    cases digit
  next => cases readDigits 4 (c :: cs ++ rest) <;> rfl

/-- After a sign all digits are read. -/
theorem readYear_signed {cs : List Char} {ds : List Nat} (negative : Prop) [Decidable negative]
    (reads : readDigits cs.length cs = some (ds, rest))
    : readYear ((if negative then '-' else '+') :: cs)
      = some
          (if negative then -(Json.Numeral.digitsValue ds : Int) else Json.Numeral.digitsValue ds,
            rest) := by
  have solid : ∀ sign, isBlank sign = false → skipBlanks (sign :: cs) = sign :: cs :=
    fun sign solid => by simp [skipBlanks, solid]
  by_cases sign : negative
  · simp only [if_pos sign, readYear, solid _ (by decide : isBlank '-' = false), reads,
      Option.bind_eq_bind, Option.bind_some, Option.pure_def]
  · simp only [if_neg sign, readYear, solid _ (by decide : isBlank '+' = false), reads,
      Option.bind_eq_bind, Option.bind_some, Option.pure_def]

/-- A year is read up to the hyphen after it. -/
theorem readYear_yearChars (year : Int) (rest : List Char)
    : readYear (yearChars year ++ '-' :: rest) = some (year, '-' :: rest) := by
  unfold yearChars
  split
  next plain =>
    have length : (padNatural 4 year.toNat).length = 4 :=
      length_padNatural (by decide) (by omega)
    obtain ⟨ds, reads, value, _⟩ := readDigits_padNatural ('-' :: rest) length.le (.inl length)
    rw [readYear_digits (allDigits_padNatural 4 _) padNatural_ne_nil, reads]
    simp [value]
    omega
  next signed =>
    have fits : (padNatural 4 year.natAbs).length
        ≤ (padNatural 4 year.natAbs ++ '-' :: rest).length := by simp
    obtain ⟨ds, reads, value, _⟩ :=
      readDigits_padNatural ('-' :: rest) fits (.inr (by rintro c ⟨⟩; rfl))
    have same : (if year < 0 then -(year.natAbs : Int) else year.natAbs) = year := by
      split <;> omega
    rw [List.cons_append, readYear_signed _ reads, value, same]

theorem readFraction_padNatural (pos : 0 < width) (most : width ≤ 9) (small : n < 10 ^ width)
    : readFraction ('.' :: padNatural width n ++ ['Z']) = some (n * 10 ^ (9 - width), ['Z']) := by
  have length := length_padNatural pos small
  obtain ⟨ds, reads, value, count⟩ :=
    readDigits_padNatural ['Z'] (length.le.trans most) (.inr (by rintro c ⟨⟩; rfl))
  have left : (padNatural width n ++ ['Z']).dropWhile Char.isDigit = ['Z'] := by
    rw [List.dropWhile_append_of_pos (allDigits_padNatural width n)]
    rfl
  rw [List.cons_append, readFraction, reads]
  simp [value, count, length, left]

/-- A fraction is read in as many digits as it needs. -/
theorem readFraction_fractionChars {nanos : Nat} (small : nanos < 1000000000)
    : readFraction (fractionChars nanos ++ ['Z']) = some (nanos, ['Z']) := by
  unfold fractionChars
  split
  next none => rw [none]; rfl
  split
  next millis =>
    rw [readFraction_padNatural (by decide) (by decide) (by omega)]
    simp
    omega
  split
  next micros =>
    rw [readFraction_padNatural (by decide) (by decide) (by omega)]
    simp
    omega
  next =>
    rw [readFraction_padNatural (by decide) (by decide) (by omega)]
    simp

end Numbers

-----------------------------------------------------------------------------------------
-- Instants
-----------------------------------------------------------------------------------------

/-- An instant outside of leap seconds in a year that a date may have. -/
structure Dated (t : Timestamp) : Prop where
  plain : t.nanos < 1000000000
  year : isYear (dateOfDays (t.seconds / 86400)).1

/-- The parts of the text of an instant make it up again. -/
theorem ofParts?_text {t : Timestamp} (dated : t.Dated) {year : Int} {month day second : Nat}
    (date : dateOfDays (t.seconds / 86400) = (year, month, day))
    (within : (second : Int) = t.seconds % 86400)
    : ofParts? year month day (second / 3600) (second / 60 % 60) (second % 60) t.nanos 0
      = some t := by
  obtain ⟨isDate, counts⟩ := dateOfDays_spec (t.seconds / 86400)
  have known := dated.year
  rw [date] at isDate counts known
  obtain ⟨_, _, _, _⟩ := isDate
  have range := Int.emod_lt_of_pos t.seconds (by decide : (0 : Int) < 86400)
  have leap : second % 60 / 60 = 0 := by omega
  have seconds : t.seconds / 86400 * 86400
      + (second / 3600 * 3600 + second / 60 % 60 * 60 + (second % 60 - 0) : Nat) - 0
      = t.seconds := by omega
  unfold ofParts?
  rw [if_pos (by simp_all; omega)]
  simp only [leap, counts, seconds, Nat.zero_mul, Nat.add_zero, date, known, if_true]

/-- The text of an instant begins with its date, and goes on with its time. -/
theorem toList_text {t : Timestamp} (dated : t.Dated) {year : Int} {month day second : Nat}
    (date : dateOfDays (t.seconds / 86400) = (year, month, day))
    (within : (second : Int) = t.seconds % 86400)
    : t.text.toList
      = yearChars year ++ '-' :: (twoDigits month ++ '-' :: (twoDigits day
          ++ 'T' :: (twoDigits (second / 3600) ++ ':' :: (twoDigits (second / 60 % 60)
          ++ ':' :: (twoDigits (second % 60) ++ (fractionChars t.nanos ++ ['Z'])))))) := by
  have leap : t.nanos / 1000000000 = 0 := Nat.div_eq_of_lt dated.plain
  have nanos : t.nanos % 1000000000 = t.nanos := Nat.mod_eq_of_lt dated.plain
  simp only [text, date, ← within, Int.toNat_natCast, leap, nanos, Nat.add_zero,
    String.toList_ofList, List.append_assoc, List.cons_append]

/-- An instant is read from its own text. -/
theorem ofText?_text {t : Timestamp} (dated : t.Dated) : ofText? t.text = some t := by
  obtain ⟨second, within⟩ : ∃ second : Nat, (second : Int) = t.seconds % 86400 :=
    ⟨_, Int.toNat_of_nonneg (Int.emod_nonneg _ (by decide))⟩
  have range := Int.emod_lt_of_pos t.seconds (by decide : (0 : Int) < 86400)
  obtain ⟨isDate, _⟩ := dateOfDays_spec (t.seconds / 86400)
  generalize date : dateOfDays (t.seconds / 86400) = d at isDate
  obtain ⟨year, month, day⟩ := d
  have shortMonth : month < 100 := isDate.month_le.trans_lt (by decide)
  have shortDay : day < 100 := isDate.day_le.trans_lt <| by
    unfold daysInMonth
    split <;> (try split) <;> decide
  have hyphen : Text.isBlank '-' = false := by decide
  have colon : Text.isBlank ':' = false := by decide
  rw [ofText?, toList_text dated date within]
  refine Option.bind_eq_some_iff.mpr ⟨_, readYear_yearChars year _, ?_⟩
  refine Option.bind_eq_some_iff.mpr ⟨_, readMark_cons hyphen _, ?_⟩
  refine Option.bind_eq_some_iff.mpr ⟨_, readNumber_twoDigits _ shortMonth, ?_⟩
  refine Option.bind_eq_some_iff.mpr ⟨_, readMark_cons hyphen _, ?_⟩
  refine Option.bind_eq_some_iff.mpr ⟨_, readNumber_twoDigits _ shortDay, ?_⟩
  refine Option.bind_eq_some_iff.mpr ⟨_, rfl, ?_⟩
  refine Option.bind_eq_some_iff.mpr ⟨_, readNumber_twoDigits _ (by omega), ?_⟩
  refine Option.bind_eq_some_iff.mpr ⟨_, readMark_cons colon _, ?_⟩
  refine Option.bind_eq_some_iff.mpr ⟨_, readNumber_twoDigits _ (by omega), ?_⟩
  refine Option.bind_eq_some_iff.mpr ⟨_, readMark_cons colon _, ?_⟩
  refine Option.bind_eq_some_iff.mpr ⟨_, readNumber_twoDigits _ (by omega), ?_⟩
  refine Option.bind_eq_some_iff.mpr ⟨_, readFraction_fractionChars dated.plain, ?_⟩
  refine Option.bind_eq_some_iff.mpr ⟨_, rfl, ?_⟩
  exact ofParts?_text dated date within

end CaseGrouping.Timestamp
