import Metronome.Cron.Next
import Metronome.Cron.Parser
import Metronome.Schedule.Advance
import Metronome.Text.Blank

/-!
# Recurrences on the wall clock

A recurrence fires when the wall clock has passed the next occurrence of a cron pattern. The
tick that it gives for the next look is an estimate, kept between one tick and a cap, so that it
never fires twice at one tick and a clock that drifts or jumps is noticed.

## Main definitions

* `Recurrence.normalize` — a pattern with five fields gets the seconds field `0`
* `Recurrence` — a pattern with the occurrence that it waits for
* `Recurrence.start?` — a recurrence that waits for its first occurrence
* `Recurrence.ticksTo` — the estimate, rounded to the nearest tick
* `Recurrence.probe`, `Recurrence.check` — the answer at a tick, without and with moving on
-/

namespace Metronome

/-- Why a recurrence cannot be started. -/
inductive RecurrenceError
  | invalidPattern
  | noOccurrence
deriving DecidableEq

/-- A cron pattern with the occurrence that it waits for. -/
structure Recurrence where
  /-- The text of the pattern, with a seconds field. -/
  text : String
  pattern : Cron.Pattern
  /-- The greatest number of ticks between two looks. -/
  cap : Nat
  /-- The width of a tick. -/
  tickWidth : Span
  /-- The occurrence to wait for. -/
  nextStart : Option Instant
  nextTick : Tick
  cap_pos : 1 ≤ cap
deriving DecidableEq

namespace Recurrence

/-- A pattern of exactly five words starts with the minutes and gets the seconds field `0` in
front. Blanks at the ends do not count. -/
def normalize (text : String) : String :=
  let trimmed := Text.trim text
  if Text.wordCount trimmed = 5 then "0 " ++ trimmed else trimmed

/-- The distance of two points in ticks of the given width, rounded to the nearest number, and
kept between one and `cap`. -/
def ticksBetween (width : Span) (cap : Nat) (now target : Instant) : Nat :=
  let step := max width.nanos 1
  max 1 (min (((now.timeTo target).nanos + step / 2) / step) cap)

/-- The number of ticks after which to look for the occurrence `target`. -/
def ticksTo (s : Recurrence) (now target : Instant) : Nat :=
  ticksBetween s.tickWidth s.cap now target

/-- The recurrence of a pattern that waits for the first occurrence after `now`. The cap is at
least one tick, and a tick without width counts as one millisecond. -/
def start? (text : String) (cap : Nat) (tickWidth : Span) (tick : Tick) (now : Instant) :
    Except RecurrenceError Recurrence :=
  let normalized := normalize text
  match Cron.Pattern.parse normalized with
  | none => .error .invalidPattern
  | some pattern =>
    match pattern.next? now with
    | none => .error .noOccurrence
    | some first =>
      let width := if tickWidth.isZero then .ofMillis 1 else tickWidth
      .ok
        { text := normalized
          pattern := pattern
          cap := max cap 1
          tickWidth := width
          nextStart := some first
          nextTick := tick + ticksBetween width (max cap 1) now first
          cap_pos := by omega }

/-- The first occurrence after a point in time. -/
def nextAfter (s : Recurrence) (t : Instant) : Option Instant := s.pattern.next? t

/-- The answer at a tick. A recurrence that is not due asks for the next occurrence again, so
that a clock that was set back does not leave it waiting for one that is too late. -/
def probe (s : Recurrence) (tick : Tick) (now : Instant) : Advance :=
  match s.nextStart with
  | none => { due := false, nextTick := tick + s.cap, nextStart := none, exhausted := true }
  | some start =>
    -- always asked for anew, so that the position depends on the reading alone
    let fresh := s.nextAfter now
    if start ≤ now then
      match fresh with
      | some next =>
        { due := true, nextTick := tick + s.ticksTo now next, nextStart := some next,
          exhausted := false }
      | none => { due := true, nextTick := tick + s.cap, nextStart := none, exhausted := true }
    else
      let start := match fresh with
        | some next => min next start
        | none => start
      { due := false, nextTick := tick + s.ticksTo now start, nextStart := some start,
        exhausted := false }

/-- The answer at a tick and the recurrence afterwards. -/
def check (s : Recurrence) (tick : Tick) (now : Instant) : Advance × Recurrence :=
  let advance := s.probe tick now
  (advance, { s with nextTick := advance.nextTick, nextStart := advance.nextStart })

end Recurrence

end Metronome
