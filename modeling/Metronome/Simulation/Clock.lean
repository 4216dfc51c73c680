import Metronome.Timer.Basic

/-!
# Simulated time

A timer can be driven without threads and without waiting: a turn is followed by all that the
runner, the pool and the callbacks have to do, and the clock moves on by the width of a tick. The
points in time at which the ticks take place can also be given freely; the crew then goes on by
its own clock.

## Main definitions

* `Timer.settle` — the crew goes on until nothing can move
* `Timer.runTicks` — consecutive ticks at one given point in time
* `Timer.runWhile` — ticks with a clock that follows them, as long as something is left to do
* `Timer.runUntilDone` — ticks until some jobs are over
-/

namespace Metronome.Timer

/-- Lets the crew go on until nothing can move. -/
def settle (t : Timer) : Timer := { t with crew := t.crew.settle }

/-- The clock of the crew comes to a point in time, unless it is past it. -/
def catchUp (t : Timer) (now : Instant) : Timer := { t with crew := t.crew.catchUp now }

/-- `count` turns from the tick `first` on, all at one point in time, each followed by all that it
sets off. -/
def runTicks (t : Timer) (first : Tick) (now : Instant) : (count : Nat) → Timer
  | 0 => t
  | count + 1 => (t.turn first now).2.settle.runTicks (first + 1) now count

/-- At most `fuel` turns with a clock that follows them, as long as `busy` says that something is
left to do. -/
def runWhile (t : Timer) (now : Instant) (busy : Timer → Bool) : (fuel : Nat) → Timer
  | 0 => t
  | fuel + 1 =>
    if busy t then
      let now := now + t.config.interval
      ((t.turn (t.ticks + 1) now).2.catchUp now).settle.runWhile now busy fuel
    else t

/-- Whether a job has to be awaited: it may still run, or it is still in the queue. -/
def awaits (t : Timer) (id : JobId) : Bool := !t.roster.isClosed id || t.contains id

/-- At most `fuel` turns, until all the given jobs are closed and out of the queue. -/
def runUntilDone (t : Timer) (now : Instant) (ids : List JobId) (fuel : Nat) : Timer :=
  t.runWhile now (fun t => ids.any t.awaits) fuel

end Metronome.Timer
