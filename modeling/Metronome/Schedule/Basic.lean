import Metronome.Queue.Basic
import Metronome.Schedule.Interval
import Metronome.Schedule.Recurrence

/-!
# Schedules

A schedule says when a job is due. It is an interval, a recurrence on the wall clock, or a group
of schedules, which is due whenever one of its children is. The children of a group wait in a
queue under the tick at which they want to be looked at, so that looking at a group looks only
at the children that asked for it.

## Main definitions

* `Schedule` — the three kinds of schedules
* `Schedule.nextTick`, `Schedule.nextStart` — when to look next, and when it fires next
* `Schedule.probe` — the answer at a tick, without moving on
* `Schedule.check` — the answer at a tick and the schedule afterwards
-/

namespace Metronome

/-- When a job is due. -/
inductive Schedule
  | interval (s : Interval)
  | recurrence (s : Recurrence)
  | group (children : Queue Schedule)

namespace Schedule

instance : Inhabited Schedule := ⟨.interval (.starting 1 0)⟩

theorem sizeOf_lt_of_mem {children : Queue Schedule} {e : Entry Schedule}
    (h : e ∈ children.entries) : sizeOf e.value < 1 + sizeOf children := by
  have := Array.sizeOf_lt_of_mem h
  cases e
  cases children
  simp only [Queue.mk.sizeOf_spec, Entry.mk.sizeOf_spec] at *
  omega

/-- The tick at which the schedule wants to be looked at next. -/
def nextTick : Schedule → Tick
  | .interval s => s.nextTick
  | .recurrence s => s.nextTick
  | .group children => children.nextPriority

/-- The next point in time at which the schedule fires, the earliest one for a group. Intervals
do not follow the wall clock. -/
def nextStart : Schedule → Option Instant
  | .interval _ => none
  | .recurrence s => s.nextStart
  | .group children =>
    earliest (children.entries.attach.toList.map fun ⟨e, h⟩ =>
      have := sizeOf_lt_of_mem h
      e.value.nextStart)
termination_by s => sizeOf s

/-- The answer of a group, put together from the answers of its children. -/
def unite (tick : Tick) (answers : List Advance) : Advance :=
  let live := answers.filter fun a => !a.exhausted
  { due := answers.any Advance.due
    nextTick := if live.isEmpty then tick + 1 else live.foldl (fun t a => min t a.nextTick) .last
    nextStart := earliest (answers.map Advance.nextStart)
    exhausted := live.isEmpty }

/-- The answer at a tick, without moving on. A child of a group that did not ask to be looked at
yet is not due and keeps its place. -/
def probe (tick : Tick) (now : Instant) : Schedule → Advance
  | .interval s => s.probe tick
  | .recurrence s => s.probe tick now
  | .group children =>
    unite tick (children.entries.attach.toList.map fun ⟨e, h⟩ =>
      have := sizeOf_lt_of_mem h
      if e.priority ≤ tick then e.value.probe tick now
      else
        { due := false, nextTick := e.priority, nextStart := e.value.nextStart,
          exhausted := false })
termination_by s => sizeOf s

/-- The queue with the children that were looked at put back, save for the exhausted ones. -/
def putBack (children : Queue Schedule) (checked : List (Advance × Schedule)) : Queue Schedule :=
  (checked.filter fun c => !c.1.exhausted).foldl (fun q (a, s) => q.push s a.nextTick) children

/-- The answer at a tick and the schedule afterwards. A group looks at the children that asked for
it, drops the exhausted ones and queues the others again. -/
def check (tick : Tick) (now : Instant) : Schedule → Advance × Schedule
  | .interval s =>
    let (advance, s) := s.check tick
    (advance, .interval s)
  | .recurrence s =>
    let (advance, s) := s.check tick now
    (advance, .recurrence s)
  | .group children =>
    let asked := children.popAllDue tick
    let checked := asked.1.attach.map fun ⟨e, h⟩ =>
      have := sizeOf_lt_of_mem (Queue.mem_of_popAllDue h)
      e.value.check tick now
    let children := putBack asked.2 checked
    ({ due := checked.any fun c => c.1.due
       nextTick := if children.isEmpty then tick + 1 else children.nextPriority
       nextStart := (group children).nextStart
       exhausted := children.isEmpty },
     .group children)
termination_by s => sizeOf s

/-- A group of schedules, if there is at least one. -/
def group? (schedules : List Schedule) : Option Schedule :=
  if schedules.isEmpty then none
  else some (.group (schedules.foldl (fun q s => q.push s s.nextTick) Queue.empty))

end Schedule

end Metronome
