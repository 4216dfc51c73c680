import Metronome.Config.Timer
import Metronome.Queue.Basic
import Metronome.Runner.Crew

/-!
# Timers

A timer owns jobs and keeps each of them in a queue under the tick at which its schedule is to be
looked at. At every tick it clears out closed jobs if one was closed since the last tick, looks
at the jobs whose tick has come, hands those that are due to its runner, and queues them again.
While it is stopped, schedules advance as usual but nothing is handed over.

## Main definitions

* `Timer` — the settings, the queue, the tick counter, the status and the crew
* `Timer.new`, `Timer.addJob` — a timer, and a job for it
* `Timer.addInterval`, `Timer.addSingleton`, `Timer.addTimes`, `Timer.addOnce`, `Timer.addCron` —
  jobs that need no further description
* `Timer.visit`, `Timer.proceed` — one job, and all jobs whose tick has come
* `Timer.turn` — what happens at one tick
* `Timer.start`, `Timer.stop`, `Timer.close` — the changes of status
-/

namespace Metronome

/-- A timer with its jobs. -/
structure Timer where
  config : TimerConfig
  queue : Queue JobId := .empty
  ticks : Tick := 0
  status : TimerStatus := .running
  crew : Crew

/-- What happened at a tick. -/
structure Turn where
  /-- The number of jobs cleared out, if the timer looked for closed ones. -/
  reaped : Option Nat
  /-- The timer looked at jobs whose tick had come. -/
  proceeded : Bool
deriving DecidableEq

namespace Timer

/-- The jobs of a timer. -/
def roster (t : Timer) : Roster := t.crew.runner.roster

/-- The pool of a timer. -/
def pool (t : Timer) : Pool := t.crew.runner.pool

/-- A timer with another runner. -/
def withRunner (t : Timer) (runner : Runner) : Timer :=
  { t with crew := { t.crew with runner := runner } }

/-- A timer with other jobs. -/
def withRoster (t : Timer) (roster : Roster) : Timer :=
  t.withRunner { t.crew.runner with roster := roster }

/-- A running timer without jobs, created at a point in time. The settings have to be valid; zero
worker threads stand for as many as the machine offers. -/
def new (config : TimerConfig) (parallelism : Nat) (now : Instant) :
    Except SchedulerError Timer :=
  match config.validate with
  | .error cause => .error (.config cause)
  | .ok () =>
    let threads := if config.workerThreads = 0 then parallelism else config.workerThreads
    .ok
      { config := config
        crew := { runner := { pool := .new threads config.capacity }, clock := now } }

/-! ### Jobs -/

/-- Where the schedules of new jobs are anchored. -/
def anchor (t : Timer) (now : Instant) : Anchor :=
  { tick := t.ticks
    now := now
    tickWidth := t.config.interval
    cronCap := t.config.cronRecheckTicks }

/-- Adds a job and queues it under the tick of its schedule. Nothing is added when the timer is
closed or the description makes no sense. -/
def addJob (t : Timer) (o : JobOptions) (now : Instant) : Except SchedulerError (JobId × Timer) :=
  if t.status = .closed then .error .closed
  else
    match Job.create o (t.anchor now) with
    | .error e => .error e
    | .ok job =>
      let (id, roster) := t.roster.add job
      let t := t.withRoster roster
      .ok (id, { t with queue := t.queue.push id job.schedule.nextTick })

/-- Adds a job that runs at an interval. -/
def addInterval (t : Timer) (every : Span) (callback : Callback) (now : Instant) :
    Except SchedulerError (JobId × Timer) :=
  t.addJob { spec := .every every, callback := some callback } now

/-- Adds a job that runs at an interval and never overlaps with itself. -/
def addSingleton (t : Timer) (every : Span) (callback : Callback) (now : Instant) :
    Except SchedulerError (JobId × Timer) :=
  t.addJob { spec := .every every, callback := some callback, singleton := true } now

/-- Adds a job that runs a number of times at an interval. -/
def addTimes (t : Timer) (every : Span) (times : Nat) (callback : Callback) (now : Instant) :
    Except SchedulerError (JobId × Timer) :=
  t.addJob { spec := .every every, callback := some callback, times := some times } now

/-- Adds a job that runs once, after a delay. -/
def addOnce (t : Timer) (delay : Span) (callback : Callback) (now : Instant) :
    Except SchedulerError (JobId × Timer) :=
  t.addTimes delay 1 callback now

/-- Adds a job that runs by a cron pattern. -/
def addCron (t : Timer) (pattern : String) (callback : Callback) (now : Instant) :
    Except SchedulerError (JobId × Timer) :=
  t.addJob { spec := .cron pattern, callback := some callback } now

/-- Runs a job now, outside of its schedule. -/
def trigger (t : Timer) (id : JobId) : Submission × Timer :=
  let (answer, runner) := t.crew.runner.submit id
  (answer, t.withRunner runner)

/-- Whether a job is in the queue. -/
def contains (t : Timer) (id : JobId) : Bool := t.queue.scan.any fun e => e.value == id

/-! ### Ticks -/

/-- Clears closed jobs out of the queue, and says how many. -/
def reapClosed (t : Timer) : Nat × Timer :=
  let (n, queue) := t.queue.retain fun id => !t.roster.isClosed id
  (n, { t with queue := queue })

/-- Clears closed jobs out of the queue if one was closed since the last tick. -/
def reapIfAsked (t : Timer) : Option Nat × Timer :=
  if t.roster.reap then
    let (n, t) := (t.withRoster { t.roster with reap := false }).reapClosed
    (some n, t)
  else (none, t)

/-- Looks at the schedule of a job that has left the queue. If the job is due and neither it nor
the timer is stopped, the runner gets it. It goes back into the queue unless its schedule is
exhausted; then the run just handed over becomes its last one, and without such a run it is
closed. A closed job is dropped. -/
def visit (t : Timer) (id : JobId) (tick : Tick) (now : Instant) (dispatching : Bool) : Timer :=
  if t.roster.isClosed id then t
  else
    match t.roster.updateWith id fun j => j.checkSchedule tick now with
    | (none, _) => t
    | (some advance, roster) =>
      let t := t.withRoster roster
      let stopped := (t.roster.state? id).any fun s => s.status == .stopped
      let fires := advance.due && dispatching && !stopped
      -- the run that spends the budget closes the job, so one run is left for this occurrence
      let t := if fires && advance.exhausted then
          t.withRoster (t.roster.updateState id (·.capRuns 1)) else t
      let (submitted, t) := if fires then
          let (answer, t) := t.trigger id
          (answer != .refused, t)
        else (false, t)
      if advance.exhausted then
        if submitted then t else t.withRoster (t.roster.update id Job.close)
      -- under a later tick, whatever the schedule asks for: a tick visits no job twice
      else { t with queue := t.queue.push id (max advance.nextTick (tick + 1)) }

/-- Visits up to `fuel` jobs whose tick has come. -/
def proceedFuel (t : Timer) (tick : Tick) (now : Instant) (dispatching : Bool) :
    (fuel : Nat) → Timer
  | 0 => t
  | fuel + 1 =>
    match t.queue.popDue tick with
    | none => t
    | some (e, queue) =>
      ({ t with queue := queue }.visit e.value tick now dispatching).proceedFuel tick now
        dispatching fuel

/-- Visits all jobs whose tick has come. A visited job comes back under a later tick, so there are
at most as many visits as jobs in the queue. -/
def proceed (t : Timer) (tick : Tick) (now : Instant) : Timer :=
  t.proceedFuel tick now (t.status == .running) t.queue.size

/-- One tick, with its number and the point in time at which it takes place. Nothing is visited
before the least tick in the queue has come. -/
def turn (t : Timer) (tick : Tick) (now : Instant) : Turn × Timer :=
  let (reaped, t) := { t with ticks := tick }.reapIfAsked
  if tick < t.queue.nextPriority then ({ reaped := reaped, proceeded := false }, t)
  else ({ reaped := reaped, proceeded := true }, t.proceed tick now)

/-! ### Control -/

/-- Resumes a stopped timer, and says whether it was stopped. -/
def start (t : Timer) : Bool × Timer :=
  if t.status = .stopped then (true, { t with status := .running }) else (false, t)

/-- Stops a running timer, and says whether it was running. -/
def stop (t : Timer) : Bool × Timer :=
  if t.status = .running then (true, { t with status := .stopped }) else (false, t)

/-- Closes the runner and all jobs in the queue, which is left empty. -/
def close (t : Timer) : Timer :=
  if t.status = .closed then t
  else
    let t := { t with status := .closed }
    let t := t.withRunner t.crew.runner.close
    -- jobs that have left the queue are not among those that are closed here
    let (ids, queue) := t.queue.drain
    let t := { t with queue := queue }
    t.withRoster (ids.foldl (fun roster id => roster.update id Job.close) t.roster)

/-- Changes the greatest number of runs in flight. -/
def tune (t : Timer) (capacity : Option Nat) : Timer :=
  t.withRunner { t.crew.runner with pool := t.pool.tune capacity }

/-- A timer as it is shown to a developer. -/
def debug (t : Timer) : String :=
  Text.record "Timer"
    [("status", t.status.debug), ("ticks", toString t.ticks.val),
      ("jobs", toString t.queue.size)]

end Timer

end Metronome
