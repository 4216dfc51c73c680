import Metronome.Job.Roster
import Std.Data.HashSet.Basic

/-!
# The line of jobs

Jobs with pending triggers stand in line for the pool. A job stands in line at most once, which is
seen at once from the set of the jobs in line.

## Main definitions

* `Line` — the jobs in order, and the set of them
* `Line.pushBack`, `Line.pushFront`, `Line.popFront` — a job joins or leaves
-/

namespace Metronome

/-- Jobs in line, each of them at most once. -/
structure Line where
  order : List JobId := []
  /-- The jobs in line. -/
  queued : Std.HashSet JobId := ∅

namespace Line

/-- A job joins at the end, unless it is in line. -/
def pushBack (l : Line) (id : JobId) : Line :=
  if l.queued.contains id then l
  else { order := l.order ++ [id], queued := l.queued.insert id }

/-- A job joins at the front, unless it is in line. -/
def pushFront (l : Line) (id : JobId) : Line :=
  if l.queued.contains id then l
  else { order := id :: l.order, queued := l.queued.insert id }

/-- The first job leaves. -/
def popFront (l : Line) : Option (JobId × Line) :=
  match l.order with
  | [] => none
  | id :: order => some (id, { order := order, queued := l.queued.erase id })

/-- The number of jobs in line. -/
def size (l : Line) : Nat := l.order.length

end Line

end Metronome
