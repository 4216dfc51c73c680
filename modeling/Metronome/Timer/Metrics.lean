import Metronome.Timer.Basic

/-!
# Metrics of timers

A view of a timer, its runner and its pool at one moment.

## Main definitions

* `TimerMetrics`, `Timer.metrics` — the view
* `TimerMetrics.utilization` — the share of the threads that are busy
-/

namespace Metronome

/-- What can be seen of a timer at one moment. -/
structure TimerMetrics where
  ticks : Int := 0
  status : TimerStatus := .running
  queuedJobs : Nat := 0
  pendingDispatch : Nat := 0
  poolThreads : Nat := 0
  poolRunning : Nat := 0
  poolWaiting : Nat := 0
  poolCapacity : Option Nat := none
  dispatched : Nat := 0
  coalesced : Nat := 0
  rejected : Nat := 0
  workerPanics : Nat := 0

/-- The double nearest to an unsigned number of 64 bits. -/
def nearestDouble (n : Nat) : Float := n.toUInt64.toFloat

/-- The share of the threads that are busy, at most one, and zero without threads. -/
def TimerMetrics.utilization (m : TimerMetrics) : Float :=
  if m.poolThreads = 0 then 0.0
  else
    let share := nearestDouble m.poolRunning / nearestDouble m.poolThreads
    if share < 1.0 then share else 1.0

/-- The metrics of a timer. -/
def Timer.metrics (t : Timer) : TimerMetrics :=
  { ticks := t.ticks.val
    status := t.status
    queuedJobs := t.queue.size
    pendingDispatch := t.crew.runner.line.size
    poolThreads := t.pool.threads
    poolRunning := t.pool.running.toNat
    poolWaiting := t.pool.waiting.toNat
    poolCapacity := t.pool.capacity
    dispatched := t.crew.runner.dispatched
    coalesced := t.crew.runner.coalesced
    rejected := t.crew.runner.rejected
    workerPanics := t.pool.panics }

end Metronome
