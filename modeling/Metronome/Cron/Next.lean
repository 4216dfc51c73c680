import Metronome.Cron.Pattern
import Metronome.Time.Instant

/-!
# The next occurrence of a cron pattern

The search goes through days, hours, minutes and seconds in this order, each time from the
least value that is not too early. It ends with the year 2100.

## Main definitions

* `firstSome` — the first result of a partial function on an interval of numbers
* `Pattern.firstTime` — the first admitted second of a day from a given one on
* `Pattern.firstFrom` — the first matching second from a given one on
* `Pattern.next?` — the next occurrence strictly after a point in time
-/

namespace Metronome.Cron

/-- The result of `f` at the first of the `count` numbers from `lo` on that has one. -/
def firstSomeCount {α : Type} (f : Nat → Option α) (lo : Nat) : Nat → Option α
  | 0 => none
  | count + 1 =>
    match f lo with
    | some a => some a
    | none => firstSomeCount f (lo + 1) count

/-- The result of `f` at the first number from `lo` to below `hi` that has one. -/
def firstSome {α : Type} (lo hi : Nat) (f : Nat → Option α) : Option α :=
  firstSomeCount f lo (hi - lo)

namespace Pattern

/-- The first admitted second of a day that is not before the second `lo`. -/
def firstTime (p : Pattern) (lo : Nat) : Option Nat :=
  firstSome (lo / 3600) 24 fun hour =>
    if p.hours.contains hour then
      -- the lower bounds hold only as long as all larger units are at theirs
      let loMinute := if hour = lo / 3600 then lo / 60 % 60 else 0
      firstSome loMinute 60 fun minute =>
        if p.minutes.contains minute then
          let loSecond := if hour = lo / 3600 ∧ minute = lo / 60 % 60 then lo % 60 else 0
          firstSome loSecond 60 fun second =>
            if p.seconds.contains second then some (hour * 3600 + minute * 60 + second) else none
        else none
    else none

/-- The number of days from the first of January 1970 to the first of January 2101. -/
def endDay : Nat := 47847

/-- The first matching second that is not before the second `lo` and not after the year 2100,
all counted from the start of 1970. -/
def firstFrom (p : Pattern) (lo : Nat) : Option Nat :=
  firstSome (lo / 86400) endDay fun day =>
    if p.matchesDay day then
      (p.firstTime (if day = lo / 86400 then lo % 86400 else 0)).map (day * 86400 + ·)
    else none

/-- The next occurrence strictly after a point in time. There is none when the second after it
lies before the year zero. -/
def next? (p : Pattern) (t : Instant) : Option Instant :=
  let lo := t.secs + 1
  if (Date.ofDayNumber (lo / 86400)).year < 0 then none
  else (p.firstFrom lo.toNat).map fun second => .ofSecs second

end Pattern

end Metronome.Cron
