/-
**Civil dates.**  Days of the proleptic Gregorian calendar are counted from 0000-01-01, years may be
zero or negative, and a date is valid when its month has that day and its year can be represented.

Main definitions:

* `isLeap`, `daysInMonth`, `daysBeforeMonth`, `daysBeforeYear` — the calendar's arithmetic;
* `Date` — a year, a month and a day;
* `Date.of?` — the date with these numbers, if there is one;
* `Date.dayNumber`, `Date.ofDayNumber` — the count of days and its inverse.

Main results:

* `daysBeforeYear_succ` — a year has 366 days exactly when it is a leap year;
* `yearOfDay_le`, `lt_yearOfDay_succ` — the year that contains a day.
-/

set_option autoImplicit false

namespace DataAccess

/-- Whether a year has a 29 February. -/
def isLeap (year : Int) : Bool :=
  year % 4 == 0 && (year % 100 != 0 || year % 400 == 0)

/-- The number of days of a month. -/
def daysInMonth (year : Int) (month : Nat) : Nat :=
  match month with
  | 2 => if isLeap year then 29 else 28
  | 4 | 6 | 9 | 11 => 30
  | _ => 31

/-- The number of days of a year before the first day of a month. -/
def daysBeforeMonth (year : Int) : Nat → Nat
  | 0 | 1 => 0
  | month + 1 => daysBeforeMonth year month + daysInMonth year month

/-- The number of days from 0000-01-01 to the first day of a year. -/
def daysBeforeYear (year : Int) : Int :=
  365 * year + (year + 3) / 4 - (year + 99) / 100 + (year + 399) / 400

theorem daysBeforeYear_succ (year : Int) :
    daysBeforeYear (year + 1) = daysBeforeYear year + if isLeap year then 366 else 365 := by
  simp only [daysBeforeYear, isLeap, Bool.and_eq_true, Bool.or_eq_true, beq_iff_eq, bne_iff_ne]
  split <;> omega

/-- The year that contains a day. -/
def yearOfDay (day : Int) : Int :=
  -- 400 years have 146097 days, so the quotient is off by one year at most
  let guess := day * 400 / 146097
  if day < daysBeforeYear guess then guess - 1
  else if daysBeforeYear (guess + 1) ≤ day then guess + 1
  else guess

theorem yearOfDay_le (day : Int) : daysBeforeYear (yearOfDay day) ≤ day := by
  simp only [yearOfDay]
  split
  · simp only [daysBeforeYear] at *
    omega
  · split <;> omega

theorem lt_yearOfDay_succ (day : Int) : day < daysBeforeYear (yearOfDay day + 1) := by
  simp only [yearOfDay]
  split
  · simpa
  · split
    · simp only [daysBeforeYear] at *
      omega
    · omega

/-! ### Dates -/

/-- The least year of a date. -/
def leastYear : Int := -262143

/-- The greatest year of a date. -/
def greatestYear : Int := 262142

/-- A civil date. -/
structure Date where
  year : Int
  month : Nat
  day : Nat
deriving DecidableEq, Repr

namespace Date

/-- Whether the numbers name a day of the calendar within the range of years. -/
def isValid (d : Date) : Bool :=
  decide (leastYear ≤ d.year) && decide (d.year ≤ greatestYear) &&
    decide (1 ≤ d.month) && decide (d.month ≤ 12) &&
    decide (1 ≤ d.day) && decide (d.day ≤ daysInMonth d.year d.month)

/-- The date with these numbers, if there is one. -/
def of? (year : Int) (month day : Nat) : Option Date :=
  let d : Date := ⟨year, month, day⟩
  if d.isValid then some d else none

/-- The number of days from 0000-01-01. -/
def dayNumber (d : Date) : Int :=
  daysBeforeYear d.year + daysBeforeMonth d.year d.month + d.day - 1

/-- The greatest month of a year that begins on or before a day of the year. -/
def monthOfDay (year : Int) (day : Nat) : Nat :=
  ((List.range 12).filter fun m => daysBeforeMonth year (m + 1) ≤ day).length

/-- The date of a day number. -/
def ofDayNumber (day : Int) : Date :=
  let year := yearOfDay day
  let inYear := (day - daysBeforeYear year).toNat
  let month := monthOfDay year inYear
  ⟨year, month, inYear - daysBeforeMonth year month + 1⟩

/-- The day number of 1970-01-01. -/
def epoch : Int := 719528

theorem epoch_eq : epoch = dayNumber ⟨1970, 1, 1⟩ := by decide

end Date

end DataAccess
