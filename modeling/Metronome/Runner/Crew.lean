import Metronome.Job.Execution
import Metronome.Runner.Basic

/-!
# Crews

A crew is a runner together with the tasks that it has handed to the pool: those that wait for a
thread, in the order in which they were admitted, and those that a thread is working on. Its
operations are the steps in which the runner, the pool and the threads move on; `settle` lets
them go on in a fixed order until nothing can move. The steps come one after the other on one
clock, which each of them moves on.

## Main definitions

* `Task`, `Crew` — an admitted run on a thread; the runner with all its tasks
* `Crew.dispatch`, `Crew.beginTask?`, `Crew.advance` — the steps
* `Crew.catchUp` — time has passed
* `Crew.work` — the threads go on until each task is over, at its gate or without a thread
* `Crew.settle` — runner and threads go on until nothing can move
* `Crew.release` — lets a waiting call through its gate
-/

namespace Metronome

/-- A run that a thread of the pool is working on. -/
structure Task where
  id : JobId
  execution : Execution

/-- A runner with the tasks of its pool. -/
structure Crew where
  runner : Runner
  /-- The point in time that the crew has come to. -/
  clock : Instant
  /-- Admitted runs without a thread. -/
  waiting : List JobId := []
  /-- Runs on a thread. -/
  active : List Task := []
  /-- The calls of callbacks, in order. -/
  log : Array (JobId × CallRecord) := #[]

namespace Crew

/-- The clock comes to a point in time, unless it is past it. -/
def catchUp (c : Crew) (now : Instant) : Crew := { c with clock := max c.clock now }

/-- Hands jobs in line to the pool while it has room. -/
def dispatch (c : Crew) : Crew :=
  let (ids, runner) := c.runner.dispatch c.clock
  { c with runner := runner, clock := c.clock.next, waiting := c.waiting ++ ids }

/-- Lets an execution of a job go on as far as it can. -/
def runTask (c : Crew) (task : Task) (go : Execution → Job → Job × Execution) : Task × Crew :=
  -- the thread starts from the clock of the crew, which then is where the thread has come to
  let start := { task.execution with clock := c.clock, log := [] }
  let (x, roster) := c.runner.roster.updateWith task.id fun j =>
    let (j, x) := go start j
    (x, j)
  let x := x.getD start
  ({ task with execution := x },
   { c with
     runner := { c.runner with roster := roster }
     clock := x.clock
     log := c.log ++ x.log.map fun call => (task.id, call) })

/-- The first waiting task gets a free thread and begins. -/
def beginTask? (c : Crew) : Option Crew :=
  match c.waiting with
  | [] => none
  | id :: waiting =>
    if c.active.length < c.runner.pool.threads then
      let c := { c with
        waiting := waiting
        runner := { c.runner with pool := c.runner.pool.beginTask } }
      let (task, c) := c.runTask ⟨id, { clock := c.clock }⟩ fun x j => x.begin j
      some { c with active := c.active ++ [task] }
    else none

/-- A task is over: its run is completed, then its place in the pool becomes free. -/
def endTask (c : Crew) (task : Task) : Crew :=
  let runner := c.runner.complete task.id
  let panicked := task.execution.escaped.isSome
  { c with runner := { runner with pool := runner.pool.endTask panicked } }

/-- Each of the given tasks goes on as far as it can; those that are not over stay active. -/
def advanceTasks (c : Crew) : List Task → Crew
  | [] => c
  | task :: tasks =>
    let (task, c) := c.runTask task fun x j => x.proceed j Execution.stepLimit
    let c := if task.execution.isOver then c.endTask task
      else { c with active := c.active ++ [task] }
    c.advanceTasks tasks

/-- Each active task goes on as far as it can. -/
def advance (c : Crew) : Crew := { c with active := [] }.advanceTasks c.active

/-- Begins up to `fuel` waiting tasks, as long as a thread is free, and counts them. -/
def beginTasks (c : Crew) : (fuel : Nat) → Nat × Crew
  | 0 => (0, c)
  | fuel + 1 =>
    match c.beginTask? with
    | none => (0, c)
    | some c =>
      let (n, c) := c.beginTasks fuel
      (n + 1, c)

/-- Up to `fuel` rounds: all tasks go on, then free threads take waiting tasks. A round in which
none is taken is the last one. -/
def workFuel (c : Crew) : (fuel : Nat) → Crew
  | 0 => c
  | fuel + 1 =>
    let c := c.advance
    -- a task that begins comes to its first gate, or to its end, in the next round
    match c.beginTasks c.waiting.length with
    | (0, c) => c
    | (_ + 1, c) => c.workFuel fuel

/-- The threads work until each admitted task is over, at its gate or without a thread. -/
def work (c : Crew) : Crew := c.workFuel (c.waiting.length + 1)

/-- Up to `fuel` rounds: the threads work off what was admitted, then jobs are dispatched. A round
in which none is dispatched is the last one. -/
def settleFuel (c : Crew) : (fuel : Nat) → Crew
  | 0 => c
  | fuel + 1 =>
    let worked := c.work
    let next := worked.dispatch
    if next.waiting.length = worked.waiting.length then next else next.settleFuel fuel

/-- Lets the runner, the pool and the threads go on until nothing can move. Each round but the
last one dispatches a trigger that was pending. -/
def settle (c : Crew) : Crew := c.settleFuel (c.runner.workload + 2)

/-- The calls of a job that wait at their gates. -/
def waitingCalls (c : Crew) (id : JobId) : List Nat :=
  c.active.filterMap fun t => if t.id = id then t.execution.waitingCall? else none

/-- Lets the waiting call of a job with the lowest number through its gate, and says whether
there was one. -/
def release (c : Crew) (id : JobId) : Bool × Crew :=
  match (c.waitingCalls id).min? with
  | none => (false, c)
  | some n =>
    (true, { c with active := c.active.map fun t =>
      if t.id = id ∧ t.execution.waitingCall? = some n then
        { t with execution := t.execution.release }
      else t })

end Crew

end Metronome
