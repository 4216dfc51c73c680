import Metronome.Time.Calendar
import Metronome.Time.Instant

/-!
# Timestamps

The written form of a point in time: date and time of day in UTC with as many decimal places
of the second, in groups of three, as it needs to be exact.

## Main definitions

* `Timestamp.year` — four digits, with a sign in front outside the years 0 to 9999
* `Timestamp.text` — such as `2024-02-29T12:00:00.250Z`
-/

namespace Metronome.Timestamp

/-- A year has at least four digits, and a sign when it is not one of 0 to 9999. -/
def year (y : Int) : String :=
  let digits := String.ofList (Span.padded 4 y.natAbs)
  if y < 0 then "-" ++ digits else if 9999 < y then "+" ++ digits else digits

/-- Two digits. -/
def pair (n : Nat) : String := String.ofList (Span.padded 2 n)

/-- The decimal places of a second: none, three, six or nine, the fewest that are exact. -/
def fraction (nanos : Nat) : String :=
  if nanos = 0 then ""
  else if nanos % 1000000 = 0 then "." ++ String.ofList (Span.padded 3 (nanos / 1000000))
  else if nanos % 1000 = 0 then "." ++ String.ofList (Span.padded 6 (nanos / 1000))
  else "." ++ String.ofList (Span.padded 9 nanos)

/-- The written form of a point in time. -/
def text (t : Instant) : String :=
  let date := Date.ofDayNumber (t.secs / 86400)
  let second := (t.secs % 86400).toNat
  year date.year ++ "-" ++ pair date.month ++ "-" ++ pair date.day ++ "T" ++
    pair (second / 3600) ++ ":" ++ pair (second / 60 % 60) ++ ":" ++ pair (second % 60) ++
    fraction t.subsecNanos ++ "Z"

end Metronome.Timestamp
