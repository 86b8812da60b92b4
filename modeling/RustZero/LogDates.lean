import RustZero.Lib.Calendar
import RustZero.Lib.Decimal
import RustZero.Log

/-!
# The dates of daily files

`date_from_unix_day` of `core/src/log.rs` writes the date of the Gregorian calendar, and the
texts of dates with four digits for the year are in the order of the dates.

* `dateFromUnixDay_march`: the algorithm takes a day apart as `MarchDate` has it.
* `dateFromUnixDay_date`: the text of a date from year 0 on.
* `dateText_lt_iff`: the order of the texts; a year before 0 is written with a sign, so no date
  is before it as a text (`dateFromUnixDay_negative`).
* `dateFromUnixDay_gregorian`: from 0000-01-01 to 9999-12-31 the days since 1970-01-01 are written
  as their dates, in their order.
-/

namespace RustZero.Log

open Lib

/-- The day of a date, counted from 1970-01-01. -/
def unixDay (date : Date) : Int :=
  date.number - 719528

/-- A date as the code writes it. -/
def dateText (date : Date) : String :=
  zeroPadded 4 date.year ++ "-" ++ zeroPadded 2 date.month ++ "-" ++ zeroPadded 2 date.day

/-- The dates whose year has four digits. -/
def FourDigits (date : Date) : Prop :=
  date.year ≤ 9999

instance decidableFourDigits (date : Date) : Decidable (FourDigits date) :=
  inferInstanceAs (Decidable (date.year ≤ 9999))

/-- 1970-01-01. -/
def epoch : Date :=
  .newYear 1970

/-- The date is that many days after 1970-01-01, or for a negative number before it. -/
def CivilDay (day : Int) (date : Date) : Prop :=
  Date.next^[day.toNat] epoch = Date.next^[(-day).toNat] date

theorem epoch_number : epoch.number = 719528 := by
  decide +kernel

theorem civilDay_iff {day : Int} {date : Date} : CivilDay day date ↔ unixDay date = day := by
  rw [CivilDay, ← Date.number_injective.eq_iff, Date.number_iterate, Date.number_iterate,
    epoch_number, unixDay]
  omega

theorem asI64_of_range {value : Int} (least : -2 ^ 63 ≤ value) (greatest : value < 2 ^ 63) :
    asI64 value = value := by
  rw [asI64]
  apply Int.bmod_eq_of_le <;> omega

section March

variable {number year month day : Int}

/-- The day of the era, of a date in it. -/
def eraDay (year month day : Int) : Int :=
  365 * (year % 400) + year % 400 / 4 - year % 400 / 100 + marchDay month day

theorem eraDay_eq (march : MarchDate number year month day) :
    number - year / 400 * 146097 = eraDay year month day := by
  have numbered := march.numbered
  rw [leapDays] at numbered
  rw [eraDay]
  omega

theorem eraDay_range (march : MarchDate number year month day) :
    0 ≤ eraDay year month day ∧ eraDay year month day < 146097 := by
  have first := march.marchDay_nonneg
  have last := march.inYear
  have leap := march.leap
  rw [eraDay]
  omega

/-- The era is the quotient rounded down. -/
theorem era_eq (march : MarchDate number year month day) :
    (if 0 ≤ number then number else number - 146096).tdiv 146097 = year / 400 := by
  have day := eraDay_eq march
  have range := eraDay_range march
  split
  case isTrue nonneg =>
    rw [Int.tdiv_eq_ediv_of_nonneg nonneg]
    omega
  case isFalse negative =>
    have opposite : number - 146096 = -(146096 - number) := by omega
    rw [opposite, Int.neg_tdiv, Int.tdiv_eq_ediv_of_nonneg (by omega)]
    omega

/-- The year of an era from the day of the era: of a year that is `fourth` times four years and
`rest` more, in its century. -/
theorem yearOfEra_quotient {fourth rest century days doe : Int} (rest_range : 0 ≤ rest ∧ rest ≤ 3)
    (century_range : 0 ≤ century ∧ century ≤ 3)
    (fourth_range : 25 * century ≤ fourth ∧ fourth ≤ 25 * century + 24)
    (day : doe = 1461 * fourth + 365 * rest - century + days) (first : 0 ≤ days)
    (last : days ≤ 365)
    (leap : days = 365 → rest = 3 ∧ (fourth < 25 * century + 24 ∨ century = 3)) :
    (doe - doe / 1460 + doe / 36524 - doe / 146096) / 365 = 4 * fourth + rest := by
  have centuries : doe / 36524 - doe / 146096 = century := by
    have cases_ : century = 0 ∨ century = 1 ∨ century = 2 ∨ century = 3 := by omega
    rcases cases_ with same | same | same | same
    · omega
    · omega
    · omega
    · omega
  have fourths : doe / 1460 = fourth ∨ doe / 1460 = fourth + 1 := by omega
  have leapYears : days = 365 → doe / 1460 = fourth + 1 := by omega
  have firstDay : days = 0 → doe / 1460 = fourth := by omega
  generalize doe / 1460 = quarter at fourths leapYears firstDay ⊢
  omega

theorem yearOfEra_eq (march : MarchDate number year month day) :
    (eraDay year month day - eraDay year month day / 1460 + eraDay year month day / 36524
      - eraDay year month day / 146096) / 365 = year % 400 := by
  have leap := march.leap
  have parts : eraDay year month day = 1461 * (year % 400 / 4) + 365 * (year % 4)
      - year % 400 / 100 + marchDay month day := by
    rw [eraDay]
    omega
  have quotient := yearOfEra_quotient (by omega) (by omega) (by omega) parts march.marchDay_nonneg
    march.inYear (by omega)
  rw [quotient]
  omega

/-- The algorithm takes a day apart into the year that begins in March, the month and the day. -/
theorem dateFromUnixDay_march (march : MarchDate number year month day)
    (least : -2 ^ 63 ≤ number - 719468) (greatest : number < 2 ^ 63) :
    dateFromUnixDay (number - 719468) =
      zeroPadded 4 (year + if 10 ≤ month then 1 else 0) ++ "-"
        ++ zeroPadded 2 (if 10 ≤ month then month - 9 else month + 3) ++ "-"
        ++ zeroPadded 2 day := by
  have first := march.marchDay_nonneg
  have range := eraDay_range march
  have inMonth := march.inMonth
  have month_nonneg := march.month_nonneg
  have month_le := march.month_le
  have day_pos := march.day_pos
  have dayOfYear : eraDay year month day - (365 * (year % 400) + (year % 400).tdiv 4 -
      (year % 400).tdiv 100) = marchDay month day := by
    rw [Int.tdiv_eq_ediv_of_nonneg (by omega), Int.tdiv_eq_ediv_of_nonneg (by omega), eraDay]
    omega
  have monthPrime : (5 * marchDay month day + 2).tdiv 153 = month := by
    rw [Int.tdiv_eq_ediv_of_nonneg (by omega)]
    rw [marchDay] at first inMonth ⊢
    rw [marchDay] at inMonth
    omega
  have yearOfEra : (eraDay year month day - (eraDay year month day).tdiv 1460
      + (eraDay year month day).tdiv 36524 - (eraDay year month day).tdiv 146096).tdiv 365 =
        year % 400 := by
    have quotient := yearOfEra_eq march
    rw [Int.tdiv_eq_ediv_of_nonneg range.1, Int.tdiv_eq_ediv_of_nonneg range.1,
      Int.tdiv_eq_ediv_of_nonneg range.1, Int.tdiv_eq_ediv_of_nonneg (by omega)]
    exact quotient
  have added : asI64 (number - 719468 + 719468) = number := by
    rw [sub_add_cancel]
    exact asI64_of_range (by omega) greatest
  have era : (if 0 ≤ number then number else asI64 (number - 146096)).tdiv 146097 = year / 400 := by
    rw [asI64_of_range (by omega) (by omega)]
    exact era_eq march
  rw [dateFromUnixDay]
  simp only [added, era, eraDay_eq march, yearOfEra, dayOfYear, monthPrime]
  have yearText : (year % 400 + year / 400 * 400 +
      if (month + if month < 10 then 3 else -9) ≤ 2 then 1 else 0) =
        year + if 10 ≤ month then 1 else 0 := by
    split_ifs <;> omega
  have monthText : (month + if month < 10 then 3 else -9) =
      if 10 ≤ month then month - 9 else month + 3 := by
    split_ifs <;> omega
  have dayText : marchDay month day - (153 * month + 2).tdiv 5 + 1 = day := by
    rw [Int.tdiv_eq_ediv_of_nonneg (by omega), marchDay]
    omega
  rw [yearText, monthText, dayText]

end March

/-! ## The text of a date -/

section Text

variable {date other : Date} {day : Int}

theorem dateFromUnixDay_date (date : Date) (short : unixDay date < 2 ^ 62) :
    dateFromUnixDay (unixDay date) = dateText date := by
  have march := date.march
  have first := date.month_pos
  have last := date.month_le
  have text := dateFromUnixDay_march march (by omega) (by rw [unixDay] at short; omega)
  have same : (date.number : Int) - 60 - 719468 = unixDay date := by
    rw [unixDay]
    omega
  have yearText : (date.marchYear + if 10 ≤ date.marchMonth then 1 else 0) = date.year := by
    rw [Date.marchYear, Date.marchMonth]
    split_ifs <;> omega
  have monthText : (if 10 ≤ date.marchMonth then date.marchMonth - 9 else date.marchMonth + 3) =
      date.month := by
    rw [Date.marchMonth]
    split_ifs <;> omega
  rw [← same, text, yearText, monthText, dateText]

/-- A year before 0 is written with a sign. -/
theorem dateFromUnixDay_negative (least : -2 ^ 63 ≤ day) (early : day < -719528) :
    ∃ rest, dateFromUnixDay day = "-" ++ rest := by
  obtain ⟨year, month, dayOfMonth, march⟩ := exists_marchDate (day + 719468)
  have text := dateFromUnixDay_march march (by omega) (by omega)
  have numbered := march.numbered
  have inMonth := march.marchDay_nonneg
  have month_le := march.month_le
  have day_pos := march.day_pos
  have negative : (year + if 10 ≤ month then 1 else 0) < 0 := by
    rw [leapDays] at numbered
    rw [marchDay] at numbered inMonth
    split_ifs <;> omega
  rw [add_sub_cancel_right] at text
  rw [text, zeroPadded, if_pos negative, String.append_assoc, String.append_assoc,
    String.append_assoc, String.append_assoc, String.append_assoc]
  exact ⟨_, rfl⟩

theorem zeroPadded_toList (width number : Nat) :
    (zeroPadded width number).toList = padded width number := by
  have nonneg : ¬(number : Int) < 0 := by omega
  have length : number.repr.length = (Nat.toDigits 10 number).length := by
    rw [← String.length_toList, Nat.toList_repr]
  rw [zeroPadded, if_neg nonneg]
  simp [padded, Nat.toString_eq_repr, length]

theorem dateText_toList (date : Date) : (dateText date).toList =
    padded 4 date.year ++ '-' :: (padded 2 date.month ++ '-' :: padded 2 date.day) := by
  simp [dateText, zeroPadded_toList]

theorem month_short (date : Date) : date.month < 10 ^ 2 := by
  have last := date.month_le
  omega

theorem day_short (date : Date) : date.day < 10 ^ 2 := by
  have last := date.day_le
  have leap := leapDay_cases date.year
  rw [monthLength] at last
  split_ifs at last <;> omega

/-- The texts of dates are in the order of the dates. -/
theorem dateText_lt_iff (date_digits : FourDigits date) (other_digits : FourDigits other) :
    dateText date < dateText other ↔ date.Before other := by
  have year : date.year < 10 ^ 4 := Nat.lt_succ_of_le date_digits
  have year' : other.year < 10 ^ 4 := Nat.lt_succ_of_le other_digits
  have years : (padded 4 date.year).length = (padded 4 other.year).length := by
    rw [padded_length (by decide) year, padded_length (by decide) year']
  have months : (padded 2 date.month).length = (padded 2 other.month).length := by
    rw [padded_length (by decide) (month_short date), padded_length (by decide) (month_short other)]
  rw [String.lt_iff_toList_lt, dateText_toList, dateText_toList, append_lt_append_iff years,
    List.cons_lt_cons_iff, append_lt_append_iff months, List.cons_lt_cons_iff,
    padded_lt_iff (by decide) year year', padded_inj,
    padded_lt_iff (by decide) (month_short date) (month_short other), padded_inj,
    padded_lt_iff (by decide) (day_short date) (day_short other), Date.Before]
  simp

theorem unixDay_range (digits : FourDigits date) :
    -719528 ≤ unixDay date ∧ unixDay date ≤ 2932896 := by
  have bound : date.number < daysBeforeYear (date.year + 1) := by
    have inYear := date.inYear
    rw [Date.number, daysBeforeYear]
    omega
  have years := daysBeforeYear_eq (date.year + 1)
  rw [FourDigits] at digits
  rw [unixDay]
  omega

/-- `daily_file_date` accepts the text of a date. -/
theorem dateShaped_dateText (digits : FourDigits date) : dateShaped (dateText date) = true := by
  have year : (padded 4 date.year).length = 4 :=
    padded_length (by decide) (Nat.lt_succ_of_le digits)
  have month : (padded 2 date.month).length = 2 := padded_length (by decide) (month_short date)
  have day : (padded 2 date.day).length = 2 := padded_length (by decide) (day_short date)
  have digit (width number : Nat) : (padded width number).all
      (fun value => value.isDigit || value = '-') = true := by
    rw [List.all_eq_true]
    intro value member
    rw [padded_digits width number value member]
    rfl
  have length : (dateText date).length = 10 := by
    rw [← String.length_toList, dateText_toList]
    simp [year, month, day]
  have second : (dateText date).toList[7]? = some '-' := by
    rw [dateText_toList, List.getElem?_append_right (by omega), year, List.getElem?_cons_succ,
      List.getElem?_append_right (by omega), month]
    rfl
  have first : (dateText date).toList[4]? = some '-' := by
    rw [dateText_toList, List.getElem?_append_right (by omega), year]
    rfl
  rw [dateShaped, length, first, second, dateText_toList]
  simp only [List.all_append, List.all_cons, digit]
  rfl

/-- A date is before a day as a text exactly if it is earlier. -/
theorem dateText_lt_cutoff (digits : FourDigits date) (other_digits : FourDigits other)
    (least : -2 ^ 63 ≤ day) (past : day ≤ unixDay other) :
    dateText date < dateFromUnixDay day ↔ unixDay date < day := by
  by_cases early : day < -719528
  · obtain ⟨rest, text⟩ := dateFromUnixDay_negative least early
    refine iff_of_false ?_ ?_
    · have year : (padded 4 date.year).length = 4 :=
        padded_length (by decide) (Nat.lt_succ_of_le digits)
      have digit := padded_digits 4 date.year
      rw [text, String.lt_iff_toList_lt, dateText_toList]
      cases parts : padded 4 date.year with
      | nil =>
          rw [parts] at year
          cases year
      | cons first more =>
          have range := digit_range (digit first (parts ▸ List.mem_cons_self))
          have dash : ¬first < '-' := by
            intro less
            have below : first.toNat < '-'.toNat := less
            have sign : '-'.toNat = 45 := rfl
            omega
          have differs : first ≠ '-' := by
            intro same
            rw [same] at range
            exact absurd range.1 (by decide)
          rw [String.toList_append, List.cons_append]
          intro less
          rcases List.cons_lt_cons_iff.mp less with less | ⟨same, _⟩
          · exact dash less
          · exact differs same
    · rw [unixDay]
      omega
  · obtain ⟨cutoff, number⟩ := Date.exists_number (day + 719528).toNat
    have same : day = unixDay cutoff := by
      rw [unixDay]
      omega
    have cutoff_digits : FourDigits cutoff := by
      by_contra later
      have after : other.Before cutoff := .inl (Nat.lt_of_le_of_lt other_digits (not_le.mp later))
      have more := Date.number_lt after
      rw [unixDay] at past
      omega
    have short := (unixDay_range cutoff_digits).2
    rw [same, dateFromUnixDay_date cutoff (by omega), dateText_lt_iff digits cutoff_digits,
      ← Date.number_lt_iff, unixDay, unixDay]
    omega

/-! ## The Gregorian calendar -/

theorem exists_civilDay (day : Int) :
    (∃ date, CivilDay day date ∧ FourDigits date) ↔ -719528 ≤ day ∧ day ≤ 2932896 := by
  constructor
  · intro found
    obtain ⟨date, civil, digits⟩ := found
    rw [← civilDay_iff.mp civil]
    exact unixDay_range digits
  · intro range
    obtain ⟨date, number⟩ := Date.exists_number (day + 719528).toNat
    have same : unixDay date = day := by
      rw [unixDay]
      omega
    refine ⟨date, civilDay_iff.mpr same, ?_⟩
    have years := daysBeforeYear_eq date.year
    rw [Date.number] at number
    rw [FourDigits]
    omega

theorem CivilDay.text (civil : CivilDay day date) (digits : FourDigits date) :
    dateFromUnixDay day = dateText date := by
  have last := (unixDay_range digits).2
  rw [← civilDay_iff.mp civil]
  exact dateFromUnixDay_date date (by omega)

theorem CivilDay.next (civil : CivilDay day date) : CivilDay (day + 1) date.next := by
  rw [civilDay_iff, unixDay] at *
  rw [Date.number_next]
  omega

/-- `date_from_unix_day` writes the dates of the years 0000 to 9999: a day has one, the days from
-719528 to 2932896 are theirs, the next day has the next one, and the texts are in the order of
the days. -/
structure Gregorian : Prop where
  days : ∀ day, (∃ date, CivilDay day date ∧ FourDigits date) ↔ -719528 ≤ day ∧ day ≤ 2932896
  one : ∀ day date other, CivilDay day date → CivilDay day other → date = other
  text : ∀ day date, CivilDay day date → FourDigits date →
    (dateFromUnixDay day).toList =
      padded 4 date.year ++ '-' :: (padded 2 date.month ++ '-' :: padded 2 date.day)
  lengths : ∀ date, FourDigits date → (padded 4 date.year).length = 4 ∧
    (padded 2 date.month).length = 2 ∧ (padded 2 date.day).length = 2
  consecutive : ∀ day date, CivilDay day date → CivilDay (day + 1) date.next
  order : ∀ day later date after, CivilDay day date → FourDigits date → CivilDay later after →
    FourDigits after → (dateFromUnixDay day < dateFromUnixDay later ↔ day < later)

theorem dateFromUnixDay_gregorian : Gregorian where
  days := exists_civilDay
  one day date other civil again := by
    have same := (civilDay_iff.mp civil).trans (civilDay_iff.mp again).symm
    rw [unixDay, unixDay] at same
    exact Date.number_injective (by omega)
  text day date civil digits := by
    rw [civil.text digits, dateText_toList]
  lengths date digits :=
    ⟨padded_length (by decide) (Nat.lt_succ_of_le digits),
      padded_length (by decide) (month_short date), padded_length (by decide) (day_short date)⟩
  consecutive _ _ := CivilDay.next
  order day later date after civil digits civil' digits' := by
    rw [civil.text digits, civil'.text digits', dateText_lt_iff digits digits',
      ← Date.number_lt_iff, ← civilDay_iff.mp civil, ← civilDay_iff.mp civil', unixDay, unixDay]
    omega

end Text

end RustZero.Log
