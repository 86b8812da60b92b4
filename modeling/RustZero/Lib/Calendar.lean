import Mathlib

/-!
# The Gregorian calendar

Dates from year 0 on, by the rule of leap years and the lengths of the months, and the number of
days before each.

* `Date` is a date that exists: its day is one of its month.
* `Date.number` counts the days before a date; `Date.number_lt_iff` says that it keeps the order,
  `Date.number_next` that the next date has the next number, and `Date.exists_number` that every
  number is the number of a date.
* `MarchDate` is a date in years that begin in March, where the number has a closed form; every
  date is one (`Date.march`), and every number has one (`exists_marchDate`).
-/

namespace RustZero.Lib

/-- Every fourth year, but of the centuries only every fourth. -/
def leapYear (year : Nat) : Bool :=
  year % 4 = 0 && (year % 100 ≠ 0 || year % 400 = 0)

/-- The days that a leap year has more. -/
def leapDay (year : Nat) : Nat :=
  if leapYear year then 1 else 0

def yearLength (year : Nat) : Nat :=
  365 + leapDay year

def monthLength (year month : Nat) : Nat :=
  if month = 2 then 28 + leapDay year
  else if month = 4 ∨ month = 6 ∨ month = 9 ∨ month = 11 then 30
  else 31

theorem monthLength_pos (year month : Nat) : 1 ≤ monthLength year month := by
  rw [monthLength]
  split_ifs <;> omega

def daysBeforeYear : Nat → Nat
  | 0 => 0
  | year + 1 => daysBeforeYear year + yearLength year

/-- The days of a year before one of its months, the months counted from 1. -/
def daysBeforeMonth (year : Nat) : Nat → Nat
  | 0 => 0
  | 1 => 0
  | month + 2 => daysBeforeMonth year (month + 1) + monthLength year (month + 1)

/-- A date that exists. -/
structure Date where
  year : Nat
  month : Nat
  day : Nat
  month_pos : 1 ≤ month
  month_le : month ≤ 12
  day_pos : 1 ≤ day
  day_le : day ≤ monthLength year month

/-- The days before a date, from the first day of year 0. -/
def Date.number (date : Date) : Nat :=
  daysBeforeYear date.year + daysBeforeMonth date.year date.month + (date.day - 1)

theorem Date.first_pos : 1 ≤ 1 := le_rfl

theorem Date.first_le : 1 ≤ 12 := by decide

/-- The first day of a year. -/
def Date.newYear (year : Nat) : Date :=
  ⟨year, 1, 1, first_pos, first_le, first_pos, monthLength_pos year 1⟩

/-- The day after a date. -/
def Date.next (date : Date) : Date :=
  if more : date.day < monthLength date.year date.month then
    ⟨date.year, date.month, date.day + 1, date.month_pos, date.month_le,
      Nat.le_add_left 1 date.day, more⟩
  else if later : date.month < 12 then
    ⟨date.year, date.month + 1, 1, Nat.le_add_left 1 date.month, later, first_pos,
      monthLength_pos date.year (date.month + 1)⟩
  else
    newYear (date.year + 1)

/-- The order of dates. -/
def Date.Before (date other : Date) : Prop :=
  date.year < other.year ∨ date.year = other.year ∧
    (date.month < other.month ∨ date.month = other.month ∧ date.day < other.day)

theorem leapDay_cases (year : Nat) :
    leapDay year = 1 ∧ year % 4 = 0 ∧ (year % 100 ≠ 0 ∨ year % 400 = 0) ∨
      leapDay year = 0 ∧ ¬(year % 4 = 0 ∧ (year % 100 ≠ 0 ∨ year % 400 = 0)) := by
  have rule : leapYear year = true ↔ year % 4 = 0 ∧ (year % 100 ≠ 0 ∨ year % 400 = 0) := by
    simp [leapYear]
  rw [leapDay]
  split
  case isTrue leap => exact .inl ⟨rfl, rule.mp leap⟩
  case isFalse common => exact .inr ⟨rfl, mt rule.mpr common⟩

/-- Rounded up, the years have one multiple more after each multiple. -/
theorem multiples_succ (year less : Nat) :
    (year + 1 + less) / (less + 1) =
      (year + less) / (less + 1) + if year % (less + 1) = 0 then 1 else 0 := by
  have moved : year + 1 + less = year + less + 1 := by omega
  have multiple : less + 1 ∣ year + less + 1 ↔ year % (less + 1) = 0 := by
    rw [Nat.add_assoc, Nat.dvd_add_self_right, Nat.dvd_iff_mod_eq_zero]
  rw [moved, Nat.succ_div, if_congr multiple rfl rfl]

theorem daysBeforeYear_eq (year : Nat) :
    daysBeforeYear year + (year + 99) / 100 =
      365 * year + (year + 3) / 4 + (year + 399) / 400 := by
  induction year with
  | zero => rfl
  | succ year ih =>
      have leap := leapDay_cases year
      rw [daysBeforeYear, yearLength, multiples_succ year 3, multiples_succ year 99,
        multiples_succ year 399]
      generalize (year + 3) / (3 + 1) = fourths at ih ⊢
      generalize (year + 99) / (99 + 1) = centuries at ih ⊢
      generalize (year + 399) / (399 + 1) = eras at ih ⊢
      split_ifs <;> omega

/-- The days before each month, and the leap day from March on. -/
theorem daysBeforeMonth_eq (year : Nat) {month : Nat} (first : 1 ≤ month) (last : month ≤ 12) :
    daysBeforeMonth year month =
      [0, 31, 59, 90, 120, 151, 181, 212, 243, 273, 304, 334].getD (month - 1) 0 +
        if 2 < month then leapDay year else 0 := by
  interval_cases month <;> simp [daysBeforeMonth, monthLength] <;> omega

theorem daysBeforeMonth_succ (year : Nat) {month : Nat} (first : 1 ≤ month) :
    daysBeforeMonth year (month + 1) = daysBeforeMonth year month + monthLength year month := by
  obtain ⟨month, rfl⟩ := Nat.exists_eq_add_of_le' first
  rfl

theorem daysBeforeMonth_mono (year : Nat) {month other : Nat} (first : 1 ≤ month)
    (less : month < other) :
    daysBeforeMonth year month + monthLength year month ≤ daysBeforeMonth year other := by
  induction other, less using Nat.le_induction with
  | base => exact (daysBeforeMonth_succ year first).ge
  | succ other less ih =>
      rw [daysBeforeMonth_succ year (by omega)]
      omega

theorem daysBeforeYear_mono {year other : Nat} (less : year < other) :
    daysBeforeYear year + yearLength year ≤ daysBeforeYear other := by
  induction other, less using Nat.le_induction with
  | base => exact le_rfl
  | succ other less ih =>
      rw [daysBeforeYear]
      omega

theorem yearLength_eq (year : Nat) :
    daysBeforeMonth year 12 + monthLength year 12 = yearLength year := by
  rw [daysBeforeMonth_eq year (by decide) le_rfl, yearLength]
  simp [monthLength]
  omega

namespace Date

variable {date other : Date}

/-- A date lies in its year. -/
theorem inYear (date : Date) :
    daysBeforeMonth date.year date.month + (date.day - 1) < yearLength date.year := by
  have first := date.day_pos
  have last := date.day_le
  have year := yearLength_eq date.year
  rcases date.month_le.lt_or_eq with earlier | december
  · have later := daysBeforeMonth_mono date.year date.month_pos earlier
    omega
  · rw [december] at last ⊢
    omega

theorem number_lt (before : date.Before other) : date.number < other.number := by
  have inYear := date.inYear
  have first := date.day_pos
  have last := date.day_le
  rw [number, number]
  rcases before with earlier | ⟨same, earlier | ⟨same', earlier⟩⟩
  · have later := daysBeforeYear_mono earlier
    omega
  · have later := daysBeforeMonth_mono date.year date.month_pos earlier
    rw [← same]
    omega
  · rw [← same, ← same']
    omega

theorem before_or_eq (date other : Date) :
    date.Before other ∨ date = other ∨ other.Before date := by
  obtain ⟨year, month, day, _, _, _, _⟩ := date
  obtain ⟨year', month', day', _, _, _, _⟩ := other
  simp only [Before, mk.injEq]
  omega

/-- Dates are numbered in their order. -/
theorem number_lt_iff : date.number < other.number ↔ date.Before other := by
  refine ⟨fun less => ?_, number_lt⟩
  rcases before_or_eq date other with before | same | after
  · exact before
  · rw [same] at less
    exact absurd less (lt_irrefl _)
  · exact absurd (number_lt after) less.not_gt

theorem number_injective : Function.Injective number := by
  intro date other same
  rcases before_or_eq date other with before | equal | after
  · exact absurd same (number_lt before).ne
  · exact equal
  · exact absurd same.symm (number_lt after).ne

/-- The next date has the next number. -/
theorem number_next (date : Date) : date.next.number = date.number + 1 := by
  have begins := date.day_pos
  have ends := date.day_le
  rw [next]
  split_ifs with more later
  · dsimp only [number]
    omega
  · dsimp only [number]
    rw [daysBeforeMonth_succ date.year date.month_pos]
    omega
  · have december : date.month = 12 := date.month_le.antisymm (Nat.not_lt.mp later)
    have whole := yearLength_eq date.year
    rw [december] at more ends
    dsimp only [number, newYear]
    rw [december, daysBeforeYear, daysBeforeMonth]
    omega

theorem number_iterate (date : Date) (days : Nat) :
    (next^[days] date).number = date.number + days := by
  induction days with
  | zero => rfl
  | succ days ih => rw [Function.iterate_succ_apply', number_next, ih, Nat.add_assoc]

/-- There is a date for every number. -/
theorem exists_number (number : Nat) : ∃ date : Date, date.number = number := by
  refine ⟨next^[number] (newYear 0), ?_⟩
  rw [number_iterate]
  exact Nat.zero_add number

end Date

/-! ## Years that begin in March -/

/-- The leap days before the first of March of a year. -/
def leapDays (year : Int) : Int :=
  year / 4 - year / 100 + year / 400

/-- The days since the first of March, the months counted from there. -/
def marchDay (month day : Int) : Int :=
  (153 * month + 2) / 5 + day - 1

/-- A date in a year that begins in March, numbered from the first of March of year 0. -/
structure MarchDate (number year month day : Int) : Prop where
  month_nonneg : 0 ≤ month
  month_le : month ≤ 11
  day_pos : 1 ≤ day
  inMonth : marchDay month day < marchDay (month + 1) 1
  inYear : marchDay month day ≤ 365
  leap : marchDay month day = 365 →
    (year + 1) % 4 = 0 ∧ ((year + 1) % 100 ≠ 0 ∨ (year + 1) % 400 = 0)
  numbered : number = 365 * year + leapDays year + marchDay month day

theorem daysBeforeYear_leapDays (year : Nat) :
    (daysBeforeYear year : Int) = 365 * year + leapDays (year - 1) + 1 := by
  have before := daysBeforeYear_eq year
  rw [leapDays]
  omega

theorem leapDays_succ (year : Nat) : leapDays year = leapDays (year - 1) + leapDay year := by
  have leap := leapDay_cases year
  rw [leapDays, leapDays]
  omega

/-- The year of a date when years begin in March. -/
def Date.marchYear (date : Date) : Int :=
  date.year - (if date.month ≤ 2 then 1 else 0)

/-- The month, counted from March. -/
def Date.marchMonth (date : Date) : Int :=
  (date.month + 9) % 12

theorem Date.number_march (date : Date) : (date.number : Int) =
    365 * date.marchYear + leapDays date.marchYear + marchDay date.marchMonth date.day + 60 := by
  have before := daysBeforeYear_leapDays date.year
  have leaps := leapDays_succ date.year
  have first := date.month_pos
  have last := date.month_le
  have begins := date.day_pos
  have inYear := daysBeforeMonth_eq date.year first last
  rw [marchDay, marchMonth, number]
  by_cases early : date.month ≤ 2
  · rw [marchYear, if_pos early]
    generalize date.month = month at first early inYear ⊢
    interval_cases month <;> simp at inYear ⊢ <;> omega
  · rw [marchYear, if_neg early, sub_zero]
    generalize date.month = month at last early inYear ⊢
    interval_cases month <;> simp at inYear ⊢ <;> omega

theorem Date.march (date : Date) :
    MarchDate (date.number - 60) date.marchYear date.marchMonth date.day := by
  have numbered := date.number_march
  have leap := leapDay_cases date.year
  have first := date.month_pos
  have last := date.month_le
  have begins := date.day_pos
  have ends := date.day_le
  have days : marchDay date.marchMonth date.day < marchDay (date.marchMonth + 1) 1 ∧
      marchDay date.marchMonth date.day ≤ 365 ∧ (marchDay date.marchMonth date.day = 365 →
        (date.marchYear + 1) % 4 = 0 ∧
          ((date.marchYear + 1) % 100 ≠ 0 ∨ (date.marchYear + 1) % 400 = 0)) := by
    rw [marchDay, marchDay, marchMonth, marchYear]
    rw [monthLength] at ends
    generalize date.month = month at first last ends ⊢
    interval_cases month <;> simp at ends ⊢ <;> omega
  refine ⟨?_, ?_, ?_, days.1, days.2.1, days.2.2, ?_⟩
  · rw [marchMonth]
    omega
  · rw [marchMonth]
    omega
  · omega
  · omega

theorem MarchDate.marchDay_nonneg {number year month day : Int}
    (march : MarchDate number year month day) : 0 ≤ marchDay month day := by
  have month_nonneg := march.month_nonneg
  have day_pos := march.day_pos
  rw [marchDay]
  omega

/-- The calendar repeats after 400 years. -/
theorem MarchDate.shift {number year month day : Int} (march : MarchDate number year month day)
    (eras : Int) : MarchDate (number + 146097 * eras) (year + 400 * eras) month day := by
  have leap := march.leap
  have numbered := march.numbered
  rw [leapDays] at numbered
  refine ⟨march.month_nonneg, march.month_le, march.day_pos, march.inMonth, march.inYear, ?_, ?_⟩
  · intro last
    have rule := leap last
    omega
  · rw [leapDays]
    omega

/-- Every number is that of a date. -/
theorem exists_marchDate (number : Int) : ∃ year month day, MarchDate number year month day := by
  obtain ⟨date, numbered⟩ := Date.exists_number (number % 146097 + 60).toNat
  have march := date.march.shift (number / 146097)
  have same : (date.number : Int) - 60 + 146097 * (number / 146097) = number := by
    omega
  rw [same] at march
  exact ⟨_, _, _, march⟩

end RustZero.Lib
