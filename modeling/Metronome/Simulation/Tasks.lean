import Metronome.Pool

/-!
# Simulated tasks of a pool

A pool can be driven without threads. A task may have to wait at a gate, and it may end by a
panic; it holds its thread until it ends. Threads take tasks in the order of admission.

## Main definitions

* `TaskKind`, `TaskBench` — the tasks, and a pool with tasks
* `TaskBench.submit`, `TaskBench.release` — a task comes in, and one goes on
-/

namespace Metronome

/-- What a task does. -/
structure TaskKind where
  gated : Bool
  panics : Bool
deriving DecidableEq

/-- A pool with its tasks. -/
structure TaskBench where
  pool : Pool
  waiting : List TaskKind := []
  /-- Tasks that wait at their gates, in the order of admission. -/
  atGate : List TaskKind := []
  /-- The number of tasks that have begun. -/
  begun : Nat := 0

namespace TaskBench

/-- Lets free threads take up to `fuel` of the waiting tasks. -/
def settleFuel (b : TaskBench) : (fuel : Nat) → TaskBench
  | 0 => b
  | fuel + 1 =>
    match b.waiting with
    | [] => b
    | task :: waiting =>
      if b.atGate.length < b.pool.threads then
        let b := { b with waiting := waiting, pool := b.pool.beginTask, begun := b.begun + 1 }
        let b := if task.gated then { b with atGate := b.atGate ++ [task] }
          else { b with pool := b.pool.endTask task.panics }
        b.settleFuel fuel
      else b

/-- Lets the threads go on until nothing can move. -/
def settle (b : TaskBench) : TaskBench := b.settleFuel b.waiting.length

/-- Submits a task. -/
def submit (b : TaskBench) (task : TaskKind) : Except PoolError TaskBench :=
  b.pool.submit.map fun pool => { b with pool := pool, waiting := b.waiting ++ [task] }.settle

/-- Lets the earliest task at its gate go on, and says whether there was one. -/
def release (b : TaskBench) : Bool × TaskBench :=
  match b.atGate with
  | [] => (false, b)
  | task :: atGate =>
    (true, { b with atGate := atGate, pool := b.pool.endTask task.panics }.settle)

end TaskBench

end Metronome
