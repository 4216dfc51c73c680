/-!
# Calendar dates

Dates of the Gregorian calendar, extended without end in both directions, and their relation
to day numbers counted from the first of January 1970. Years repeat in eras of 400 years or
146097 days; inside an era the calculation lets a year begin in March, so that the leap day
comes last.

## Main definitions

* `Date` — year, month and day of the month
* `Date.ofDayNumber`, `Date.dayNumber` — the date of a day and the day of a date
* `weekday` — the day of the week, from Sunday as 0
-/

namespace Metronome

/-- A date of the Gregorian calendar. -/
structure Date where
  year : Int
  /-- January is 1. -/
  month : Nat
  /-- The first day of a month is 1. -/
  day : Nat
deriving DecidableEq, Inhabited

namespace Date

/-- The date of the day that lies `days` days after the first of January 1970. -/
def ofDayNumber (days : Int) : Date :=
  let shifted := days + 719468
  let era := shifted / 146097
  let dayOfEra := (shifted % 146097).toNat
  let yearOfEra :=
    (dayOfEra - dayOfEra / 1460 + dayOfEra / 36524 - dayOfEra / 146096) / 365
  let dayOfYear := dayOfEra - (365 * yearOfEra + yearOfEra / 4 - yearOfEra / 100)
  let monthFromMarch := (5 * dayOfYear + 2) / 153
  let month := if monthFromMarch < 10 then monthFromMarch + 3 else monthFromMarch - 9
  { year := yearOfEra + era * 400 + (if month ≤ 2 then 1 else 0)
    month := month
    day := dayOfYear - (153 * monthFromMarch + 2) / 5 + 1 }

/-- The number of days from the first of January 1970 to a date. -/
def dayNumber (d : Date) : Int :=
  let year := if d.month ≤ 2 then d.year - 1 else d.year
  let era := year / 400
  let yearOfEra := (year % 400).toNat
  let monthFromMarch := if d.month ≤ 2 then d.month + 9 else d.month - 3
  let dayOfYear := (153 * monthFromMarch + 2) / 5 + d.day - 1
  let dayOfEra := yearOfEra * 365 + yearOfEra / 4 - yearOfEra / 100 + dayOfYear
  era * 146097 + dayOfEra - 719468

end Date

/-- The day of the week, counted from Sunday as 0. The first of January 1970 was a Thursday. -/
def weekday (days : Int) : Nat := ((days + 4) % 7).toNat

end Metronome
