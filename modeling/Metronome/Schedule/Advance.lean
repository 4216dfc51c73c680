import Metronome.Tick
import Metronome.Time.Instant

/-!
# What a schedule answers

Looking at a schedule at some tick yields whether it is due, when to look again, and whether
anything is left of it.

## Main definitions

* `Advance` — the answer of a schedule
* `earliest` — the least of several points in time, some of which may be missing
-/

namespace Metronome

/-- The answer of a schedule that is looked at. -/
structure Advance where
  /-- Something is to be run now. -/
  due : Bool
  /-- The tick at which the schedule wants to be looked at again. -/
  nextTick : Tick
  /-- The next point in time at which the schedule fires, if it follows the wall clock. -/
  nextStart : Option Instant
  /-- Nothing further will ever be due. -/
  exhausted : Bool
deriving DecidableEq

/-- The earlier of two points in time, either of which may be missing. -/
def earlier : Option Instant → Option Instant → Option Instant
  | none, t => t
  | s, none => s
  | some s, some t => some (min s t)

/-- The earliest of several points in time. -/
def earliest (ts : List (Option Instant)) : Option Instant := ts.foldl earlier none

end Metronome
