import Metronome.Error
import Metronome.Schedule.Basic

/-!
# Descriptions of schedules

A description says when a job is to run; it becomes a schedule once it is anchored at a tick and
a point in time. A description of several schedules means their union.

## Main definitions

* `ScheduleSpec` — the description
* `Anchor` — the position at which a schedule starts, and the width of a tick
* `ScheduleSpec.build` — the schedule of a description, or the first thing wrong with it
* `ScheduleSpec.text` — the written form
-/

namespace Metronome

/-- A description of when a job runs. -/
inductive ScheduleSpec
  | every (length : Span)
  | cron (pattern : String)
  | any (specs : List ScheduleSpec)
deriving Inhabited

/-- The position at which a schedule starts. -/
structure Anchor where
  tick : Tick
  now : Instant
  /-- The width of one tick. -/
  tickWidth : Span
  /-- The greatest number of ticks between two looks at a recurrence. -/
  cronCap : Nat

namespace Anchor

/-- The number of whole ticks in a length of time, at least one and at most the last tick. -/
def ticksFor (a : Anchor) (length : Span) : Nat :=
  max (min (length.nanos / max a.tickWidth.nanos 1) Tick.last.val.toNat) 1

end Anchor

namespace ScheduleSpec

/-- The recurrence of a pattern, as a schedule. -/
def buildCron (a : Anchor) (pattern : String) : Except SchedulerError Schedule :=
  match Recurrence.start? pattern a.cronCap a.tickWidth a.tick a.now with
  | .ok s => .ok (.recurrence s)
  | .error .invalidPattern => .error (.invalidCron pattern)
  | .error .noOccurrence => .error (.cronExhausted pattern)

mutual

/-- The schedule of a description, or what is wrong with its first part, from left to right, that
makes no sense. -/
def build (a : Anchor) : ScheduleSpec → Except SchedulerError Schedule
  | .every length =>
    if length.isZero then .error .zeroInterval
    else .ok (.interval (.starting (a.ticksFor length) a.tick))
  | .cron pattern => buildCron a pattern
  | .any specs =>
    match buildAll a specs with
    | .error e => .error e
    | .ok schedules =>
      match Schedule.group? schedules with
      | some s => .ok s
      | none => .error .emptyGroup

/-- The schedules of several descriptions. -/
def buildAll (a : Anchor) : List ScheduleSpec → Except SchedulerError (List Schedule)
  | [] => .ok []
  | spec :: specs =>
    match build a spec with
    | .error e => .error e
    | .ok s =>
      match buildAll a specs with
      | .error e => .error e
      | .ok rest => .ok (s :: rest)

end

mutual

/-- The written form of a description. -/
def text : ScheduleSpec → String
  | .every length => "every " ++ length.text
  | .cron pattern => "cron '" ++ pattern ++ "'"
  | .any specs => "any[" ++ ", ".intercalate (texts specs) ++ "]"

/-- The written forms of several descriptions. -/
def texts : List ScheduleSpec → List String
  | [] => []
  | spec :: specs => text spec :: texts specs

end

end ScheduleSpec

end Metronome
