import Metronome.Pool
import Metronome.Runner.Line

/-!
# The runner

The runner turns triggers into tasks of a pool. It counts the triggers of each job and keeps the
jobs with pending triggers in line. A singleton holds at most one pending trigger, and none of its
runs overlap: while one is in the pool, its trigger is held back and the job does not stand in
line.

Every operation is made of steps that take place as a whole, while others may come in between:
the look at what is closed and the rest of `submit`; `pop`, then `handOver`, which undoes the pop
by `requeue` when the pool refuses; and `complete`.

## Main definitions

* `Runner` — the line, the pool and the counters, with the jobs
* `Submission`, `Runner.submit` — a trigger comes in
* `Runner.pop`, `Runner.handOver`, `Runner.dispatch` — a job goes from the line into the pool
* `Runner.requeue` — a refused job goes back to the head of the line
* `Runner.complete` — a run is over
* `Runner.close` — no further run begins
-/

namespace Metronome

/-- What happened to a trigger. -/
inductive Submission
  /-- It is pending and will run when the pool has room. -/
  | queued
  /-- The job is a singleton with a pending trigger. -/
  | coalesced
  /-- The job or the runner is closed. -/
  | refused
deriving DecidableEq, Repr

/-- A runner with the jobs that it may be given. -/
structure Runner where
  roster : Roster := {}
  line : Line := {}
  pool : Pool
  closed : Bool := false
  /-- Runs handed to the pool. -/
  dispatched : Nat := 0
  /-- Triggers dropped because one was pending. -/
  coalesced : Nat := 0
  /-- Runs refused by the pool. -/
  rejected : Nat := 0

/-- The place at which a refusal of the pool is recorded. -/
def Site.dispatch : Site := ⟨"metronome/runner", 1, 1⟩

namespace Runner

/-- Changes the run state of a job. -/
def updateState (r : Runner) (id : JobId) (f : JobState → JobState) : Runner :=
  { r with roster := r.roster.updateState id f }

/-- A job joins at the end of the line. -/
def pushBack (r : Runner) (id : JobId) : Runner := { r with line := r.line.pushBack id }

/-- A job joins at the head of the line. -/
def pushFront (r : Runner) (id : JobId) : Runner := { r with line := r.line.pushFront id }

/-! ### Triggers -/

/-- Whether a trigger is turned away because the runner or the job is closed. -/
def turnsAway (r : Runner) (id : JobId) : Bool := r.closed || r.roster.isClosed id

/-- Counts a trigger that was not turned away. -/
def enqueue (r : Runner) (id : JobId) : Submission × Runner :=
  match r.roster.state? id with
  | none => (.refused, r)
  | some s =>
    if s.singleton then
      if 0 < s.pending then (.coalesced, { r with coalesced := r.coalesced + 1 })
      else
        let r := r.updateState id (·.addPending 1)
        -- while a run is in the pool the trigger is held back, and `complete` puts it in line
        (.queued, if s.running = 0 then r.pushBack id else r)
    else (.queued, (r.updateState id (·.addPending 1)).pushBack id)

/-- A trigger for a job. -/
def submit (r : Runner) (id : JobId) : Submission × Runner :=
  if r.turnsAway id then (.refused, r) else r.enqueue id

/-! ### Dispatch -/

/-- What the head of the line turned out to be. -/
inductive Popped
  /-- The line is empty. -/
  | nothing
  /-- The job is closed; its triggers are dropped. -/
  | dropped (id : JobId)
  /-- The job is to be handed to the pool. -/
  | taken (id : JobId)
deriving DecidableEq

/-- Takes the job at the head of the line. A pending trigger of it turns into a run; a job with
further pending triggers goes to the end of the line, unless it is a singleton. -/
def pop (r : Runner) : Popped × Runner :=
  match r.line.popFront with
  | none => (.nothing, r)
  | some (id, line) =>
    let r := { r with line := line }
    if r.roster.isClosed id then (.dropped id, r.updateState id (·.clearPending))
    else
      let r := r.updateState id fun s => (s.addPending (-1)).addRunning 1
      -- a singleton has no second trigger to wait for; runs of other jobs may overlap
      let more := (r.roster.state? id).any fun s => !s.singleton && decide (0 < s.pending)
      (.taken id, if more then r.pushBack id else r)

/-- Takes back a run that the pool has refused: the job goes to the head of the line with the
trigger, unless it is a singleton that has got another one meanwhile. -/
def requeue (r : Runner) (id : JobId) : Runner :=
  let r := r.updateState id (·.addRunning (-1))
  if r.roster.isClosed id then r.updateState id (·.clearPending)
  else
    let r := r.updateState id fun s =>
      if !s.singleton || s.pending == 0 then s.addPending 1 else s
    r.pushFront id

/-- Hands a job that was taken from the line to the pool, and says whether it was admitted. -/
def handOver (r : Runner) (id : JobId) (now : Instant) : Bool × Runner :=
  match r.pool.submit with
  | .ok pool => (true, { r with pool := pool, dispatched := r.dispatched + 1 })
  | .error cause =>
    let r := r.requeue id
    let r := { r with rejected := r.rejected + 1 }
    (false, r.updateState id fun s => s.recordError (.wrap .dispatch (.pool cause)) now)

/-- A bound on the jobs that can be taken from the line: those in line, each as often again as its
counter says once a trigger has been taken from it. -/
def workload (r : Runner) : Nat :=
  r.roster.jobs.foldl (fun n j => n + (j.state.pending - 1).toNatClampNeg) r.line.size

/-- Takes up to `fuel` jobs from the line while the pool has room, and yields the admitted ones
in order. A refusal ends it. -/
def dispatchFuel (r : Runner) (now : Instant) : (fuel : Nat) → List JobId × Runner
  | 0 => ([], r)
  | fuel + 1 =>
    if r.pool.freeSlots = 0 || r.closed then ([], r)
    else
      match r.pop with
      | (.nothing, r) => ([], r)
      | (.dropped _, r) => r.dispatchFuel now fuel
      | (.taken id, r) =>
        match r.handOver id now with
        | (true, r) =>
          let (ids, r) := r.dispatchFuel now fuel
          (id :: ids, r)
        | (false, r) => ([], r)

/-- Hands jobs from the line to the pool while it has room. -/
def dispatch (r : Runner) (now : Instant) : List JobId × Runner :=
  r.dispatchFuel now (r.workload + 1)

/-! ### Completion and closing -/

/-- A run of a job is over. A trigger of a singleton that was held back goes into line. -/
def complete (r : Runner) (id : JobId) : Runner :=
  let r := r.updateState id (·.addRunning (-1))
  if r.roster.isClosed id then r.updateState id (·.clearPending)
  else if (r.roster.state? id).any fun s => s.singleton && decide (0 < s.pending) then r.pushBack id
  else r

/-- Drops the triggers of all jobs in line. -/
def dropLine (r : Runner) : Runner :=
  let r := r.line.order.foldl (fun r id => r.updateState id (·.clearPending)) r
  { r with line := {} }

/-- No further trigger is taken and no further run begins; runs in the pool come to their end. -/
def close (r : Runner) : Runner :=
  if r.closed then r
  else
    let r := { r with closed := true }.dropLine
    { r with pool := r.pool.close }

/-- A runner as it is shown to a developer. -/
def debug (r : Runner) : String :=
  Text.record "Runner"
    [("pool", r.pool.debug),
      ("stats", Text.record "RunnerStats"
        [("queued", toString r.line.size), ("dispatched", toString r.dispatched),
          ("coalesced", toString r.coalesced), ("rejected", toString r.rejected)])]

end Runner

end Metronome
