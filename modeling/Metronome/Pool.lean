import Metronome.Error
import Metronome.Text.Quoted

/-!
# Worker pools

A pool has a fixed number of threads and a limit on the tasks in flight, which may be changed at
any time. A task is admitted or refused when it is submitted; an admitted task waits for a
thread, runs on it and frees its place when it ends, also by a panic.

## Main definitions

* `Pool` — the limit and the counters
* `Pool.submit`, `Pool.beginTask`, `Pool.endTask` — the life of a task
* `Pool.freeSlots` — how many more tasks would be admitted
-/

namespace Metronome

/-- A worker pool, as far as admission is concerned. -/
structure Pool where
  threads : Nat
  /-- The greatest number of tasks in flight, zero for no limit. -/
  limit : Nat
  closed : Bool := false
  /-- Tasks that were admitted and are not over. -/
  inFlight : Int := 0
  running : Int := 0
  /-- Tasks that were admitted and have no thread yet. -/
  waiting : Int := 0
  /-- Tasks that ended by a panic. -/
  panics : Nat := 0
deriving DecidableEq, Inhabited

namespace Pool

/-- A pool with at least one thread. -/
def new (threads : Nat) (capacity : Option Nat) : Pool :=
  { threads := max threads 1, limit := capacity.getD 0 }

/-- The greatest number of tasks in flight, if there is a limit. -/
def capacity (p : Pool) : Option Nat := if p.limit = 0 then none else some p.limit

/-- Admits a task, or says why not. -/
def submit (p : Pool) : Except PoolError Pool :=
  if p.closed then .error .closed
  else if p.limit = 0 ∨ p.inFlight < p.limit then
    .ok { p with inFlight := p.inFlight + 1, waiting := p.waiting + 1 }
  else .error (.full p.limit)

/-- A waiting task gets a thread. -/
def beginTask (p : Pool) : Pool := { p with waiting := p.waiting - 1, running := p.running + 1 }

/-- A running task ends, perhaps by a panic. -/
def endTask (p : Pool) (panicked : Bool) : Pool :=
  { p with
    running := p.running - 1
    inFlight := p.inFlight - 1
    panics := if panicked then p.panics + 1 else p.panics }

/-- Changes the limit. Tasks that were admitted are not affected. -/
def tune (p : Pool) (capacity : Option Nat) : Pool := { p with limit := capacity.getD 0 }

/-- No further task is admitted. -/
def close (p : Pool) : Pool := { p with closed := true }

/-- The number that stands for "without limit". -/
def unlimited : Nat := 18446744073709551615

/-- How many more tasks would be admitted now. -/
def freeSlots (p : Pool) : Nat :=
  if p.closed then 0
  else if p.limit = 0 then unlimited
  else (p.limit - p.inFlight).toNat

/-- A pool as it is shown to a developer. -/
def debug (p : Pool) : String :=
  Text.record "WorkerPool"
    [("threads", toString p.threads), ("capacity", Text.option (p.capacity.map toString)),
      ("running", toString p.running), ("waiting", toString p.waiting)]

end Pool

end Metronome
