import Metronome.Cron.Field
import Metronome.Time.Calendar

/-!
# Cron patterns

A pattern restricts each component of a point in time to a set of values. A whole second
matches when every component does; day of the month and day of the week must both match.

## Main definitions

* `Pattern` — the admitted values of each component
* `Pattern.matchesDay`, `Pattern.matchesTime` — the two halves of matching
* `Pattern.matchesSecond` — whether a second, counted from the start of 1970, matches
-/

namespace Metronome.Cron

/-- The admitted values of each component. -/
structure Pattern where
  seconds : List Nat
  minutes : List Nat
  hours : List Nat
  daysOfMonth : List Nat
  months : List Nat
  daysOfWeek : List Nat
  years : List Nat
deriving DecidableEq, Repr

namespace Pattern

/-- Whether a day, counted from the first of January 1970, has an admitted date. -/
def matchesDay (p : Pattern) (day : Nat) : Bool :=
  p.daysOfWeek.contains (weekday day + 1) &&
    let date := Date.ofDayNumber day
    p.daysOfMonth.contains date.day && p.months.contains date.month &&
      p.years.contains date.year.toNat

/-- Whether a second of a day has an admitted hour, minute and second. -/
def matchesTime (p : Pattern) (second : Nat) : Bool :=
  p.hours.contains (second / 3600) && p.minutes.contains (second / 60 % 60) &&
    p.seconds.contains (second % 60)

/-- Whether a second, counted from the start of 1970, matches. -/
def matchesSecond (p : Pattern) (second : Nat) : Bool :=
  p.matchesDay (second / 86400) && p.matchesTime (second % 86400)

end Pattern

end Metronome.Cron
