import Metronome.Schedule.Advance

/-!
# Interval schedules

An interval schedule is due once a fixed number of ticks has passed since it was created or was
last due. A gap in the ticks fires it once, and the next period counts from there.

## Main definitions

* `Interval` — the period and the tick at which it ends
* `Interval.probe`, `Interval.check` — the answer at a tick, without and with moving on
-/

namespace Metronome

/-- A schedule that is due every `period` ticks. -/
structure Interval where
  period : Nat
  nextTick : Tick
  period_pos : 0 < period
deriving DecidableEq

namespace Interval

/-- A schedule that is first due `period` ticks after `current`, and at least one tick. -/
def starting (period : Nat) (current : Tick) : Interval :=
  { period := max period 1
    nextTick := current + max period 1
    period_pos := by omega }

/-- The answer at a tick. -/
def probe (s : Interval) (tick : Tick) : Advance :=
  { due := s.nextTick ≤ tick
    nextTick := if s.nextTick ≤ tick then tick + s.period else s.nextTick
    nextStart := none
    exhausted := false }

/-- The answer at a tick and the schedule afterwards. -/
def check (s : Interval) (tick : Tick) : Advance × Interval :=
  let advance := s.probe tick
  (advance, { s with nextTick := advance.nextTick })

end Interval

end Metronome
