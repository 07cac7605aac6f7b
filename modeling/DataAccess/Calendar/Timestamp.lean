import DataAccess.Calendar.Date
/-
**Instants and their written forms.**  An instant counts seconds since 1970-01-01T00:00:00Z and
nanoseconds within the second; a leap second is the last second of a minute with a thousand million
nanoseconds or more.  Backends receive the *native* form with whole seconds, callers the ISO form
with milliseconds.

Main definitions:

* `Timestamp` — seconds and nanoseconds;
* `Timestamp.ofMillis?` — the instant of a count of milliseconds;
* `Timestamp.native` — `YYYY-MM-DD HH:MM:SS`;
* `Timestamp.iso` — `YYYY-MM-DDTHH:MM:SS.mmmZ`;
* `Timestamp.brief?` — the same with no more digits of the fraction than needed.

Main results:

* `Timestamp.secondOfDay_lt` — the time of day lies within the day;
* `Timestamp.split_seconds` — day and time of day make up the seconds.
-/

set_option autoImplicit false

namespace DataAccess

/-- An instant. -/
structure Timestamp where
  /-- Whole seconds since 1970-01-01T00:00:00Z. -/
  seconds : Int
  /-- Nanoseconds within the second; a thousand million or more inside a leap second. -/
  nanos : Nat
deriving DecidableEq, Repr

namespace Timestamp

/-- The day number of the instant. -/
def dayNumber (t : Timestamp) : Int := t.seconds / 86400 + Date.epoch

/-- The date of the instant. -/
def date (t : Timestamp) : Date := Date.ofDayNumber t.dayNumber

/-- The seconds since midnight, leap second apart. -/
def secondOfDay (t : Timestamp) : Nat := (t.seconds % 86400).toNat

theorem secondOfDay_lt (t : Timestamp) : t.secondOfDay < 86400 := by
  unfold secondOfDay
  omega

theorem split_seconds (t : Timestamp) :
    (t.dayNumber - Date.epoch) * 86400 + t.secondOfDay = t.seconds := by
  unfold secondOfDay dayNumber
  omega

/-- The instant of a day number and a time of day. -/
def ofDay (day : Int) (second : Int) (nanos : Nat) : Timestamp :=
  ⟨(day - Date.epoch) * 86400 + second, nanos⟩

/-- Milliseconds since 1970-01-01T00:00:00Z, those of a leap second running past the thousand. -/
def millis (t : Timestamp) : Int := t.seconds * 1000 + t.nanos / 1000000

/-- Whether the year of the instant can be represented. -/
def inRange (t : Timestamp) : Bool :=
  decide (daysBeforeYear leastYear ≤ t.dayNumber) &&
    decide (t.dayNumber < daysBeforeYear (greatestYear + 1))

/-- The instant of a count of milliseconds, if its year can be represented. -/
def ofMillis? (ms : Int) : Option Timestamp :=
  let t : Timestamp := ⟨ms / 1000, (ms % 1000).toNat * 1000000⟩
  if t.inRange then some t else none

/-! ### Written forms -/

/-- A number in decimal with zeros in front up to a width. -/
def padded (width n : Nat) : List Char :=
  let digits := Nat.toDigits 10 n
  List.replicate (width - digits.length) '0' ++ digits

/-- A year with four digits; years outside 0 to 9999 carry a sign. -/
def yearText (year : Int) : List Char :=
  if 0 ≤ year ∧ year ≤ 9999 then padded 4 year.toNat
  else (if year < 0 then '-' else '+') :: padded 4 year.natAbs

/-- `YYYY-MM-DD`. -/
def dateText (d : Date) : List Char :=
  yearText d.year ++ '-' :: padded 2 d.month ++ '-' :: padded 2 d.day

/-- `HH:MM:SS`; a leap second shows as second 60. -/
def timeText (t : Timestamp) : List Char :=
  let s := t.secondOfDay
  let leap := if 1000000000 ≤ t.nanos then 1 else 0
  padded 2 (s / 3600) ++ ':' :: padded 2 (s / 60 % 60) ++ ':' :: padded 2 (s % 60 + leap)

/-- The form that backends receive: whole seconds. -/
def native (t : Timestamp) : String :=
  String.ofList (dateText t.date ++ ' ' :: timeText t)

/-- The form that callers receive: milliseconds, cut and not rounded. -/
def iso (t : Timestamp) : String :=
  String.ofList
    (dateText t.date ++ 'T' :: timeText t ++ '.' :: padded 3 (t.nanos % 1000000000 / 1000000) ++
      ['Z'])

/-- A fraction of a second without the zeros at its end, and nothing for none. -/
def briefFraction (nanos : Nat) : List Char :=
  if nanos = 0 then []
  else '.' :: ((padded 9 nanos).reverse.dropWhile (· == '0')).reverse

/-- The form with no more digits of the fraction than needed; only the years 0 to 9999 have one. -/
def brief? (t : Timestamp) : Option String :=
  let d := t.date
  if 0 ≤ d.year ∧ d.year ≤ 9999 then
    some (String.ofList (dateText d ++ 'T' :: timeText t ++ briefFraction t.nanos ++ ['Z']))
  else none

end Timestamp

end DataAccess
