import Metronome.Failure.Directory
import Metronome.Job.Budget
import Metronome.Job.Status

/-!
# Run states

The run state of a job is its status, its budget, and what is counted about it. The runner counts
the triggers that are pending and the runs it has handed to the pool, with 32 bits each; the
callbacks that are executing are counted whoever called them. Points in time are kept in whole
milliseconds.

Each operation here is a single step, save for `enter`, `leave` and `start`, which are put
together from the steps that come before them.

## Main definitions

* `JobState` — the run state
* `JobState.transition` — a change of status that takes place only from a given status
* `JobState.enter`, `JobState.leave` — a callback begins and ends
* `JobState.start`, `JobState.stop`, `JobState.close` — the changes of status on request
* `JobState.averageRun` — the mean length of the runs that are over
-/

namespace Metronome

/-- The run state of a job. -/
structure JobState where
  status : JobStatus
  singleton : Bool
  budget : Budget
  /-- Triggers that have not been handed to the pool. The counter wraps around. -/
  pending : Int32 := 0
  /-- Runs that have been handed to the pool and are not over. The counter wraps around. -/
  running : Int32 := 0
  /-- Callbacks that are executing, each of which stands on a stack. -/
  executing : Int := 0
  runs : Nat := 0
  successes : Nat := 0
  failures : Nat := 0
  lastStart : Option Instant := none
  lastOver : Option Instant := none
  lastSuccess : Option Instant := none
  lastFailed : Option Instant := none
  /-- Runs that are over. -/
  completed : Nat := 0
  /-- The total length of these runs in nanoseconds. -/
  runtimeNanos : Nat := 0
  errors : ErrorDirectory := {}
deriving DecidableEq

namespace JobState

/-- The state of a job that has not run. -/
def new (singleton : Bool) (times : Option Nat) (status : JobStatus) : JobState :=
  { status := status, singleton := singleton, budget := .ofTimes times }

/-! ### Status -/

/-- Whether a job is over for good. -/
def isClosed (s : JobState) : Bool := s.status == .closed

/-- Changes the status to `dst` if it is `src`, and says whether it was. -/
def transition (s : JobState) (src dst : JobStatus) : Bool × JobState :=
  if s.status = src then (true, { s with status := dst }) else (false, s)

/-- Changes the status to `dst` and says what it was. -/
def swap (s : JobState) (dst : JobStatus) : JobStatus × JobState :=
  (s.status, { s with status := dst })

/-- Shows a ready job as running while a callback is executing. -/
def showRunning (s : JobState) : JobState :=
  if 0 < s.executing then (s.transition .ready .running).2 else s

/-- Resumes a stopped job, and says whether it was stopped. -/
def start (s : JobState) : Bool × JobState :=
  match s.transition .stopped .ready with
  | (true, s) => (true, s.showRunning)
  | (false, s) => (false, s)

/-- Stops a job that is neither stopped nor closed, and says whether that was so. -/
def stop (s : JobState) : Bool × JobState :=
  match s.status with
  | .stopped | .closed => (false, s)
  | .ready | .running => (true, { s with status := .stopped })

/-- Closes a job. -/
def close (s : JobState) : JobState := (s.swap .closed).2

/-! ### Budget -/

/-- Claims one run. -/
def claim (s : JobState) : RunClaim × JobState :=
  let (claim, budget) := s.budget.claim
  (claim, { s with budget := budget })

/-- Replaces the budget. -/
def setTimes (s : JobState) (times : Option Nat) : JobState := { s with budget := .ofTimes times }

/-- Lowers the budget to at most `limit` runs. -/
def capRuns (s : JobState) (limit : Nat) : JobState := { s with budget := s.budget.cap limit }

/-! ### Counters of the runner -/

/-- Changes the number of pending triggers. -/
def addPending (s : JobState) (d : Int32) : JobState := { s with pending := s.pending + d }

/-- Drops all pending triggers. -/
def clearPending (s : JobState) : JobState := { s with pending := 0 }

/-- Changes the number of runs in the pool. -/
def addRunning (s : JobState) (d : Int32) : JobState := { s with running := s.running + d }

/-! ### Execution -/

/-- Changes the number of executing callbacks. -/
def addExecuting (s : JobState) (d : Int) : JobState := { s with executing := s.executing + d }

/-- A callback begins. -/
def enter (s : JobState) : JobState := ((s.addExecuting 1).transition .ready .running).2

/-- A callback ends. The last one shows the job as ready, unless another has begun meanwhile. -/
def leave (s : JobState) : JobState :=
  -- only the callback that takes the count from one to zero was the last one
  let after := s.addExecuting (-1)
  if s.executing = 1 then (after.transition .running .ready).2.showRunning else after

/-- A run begins at a point in time. -/
def markStart (s : JobState) (t : Instant) : JobState :=
  { s with runs := s.runs + 1, lastStart := some t.floorMillis }

/-- A run has succeeded. -/
def markSuccess (s : JobState) (t : Instant) : JobState :=
  { s with successes := s.successes + 1, lastSuccess := some t.floorMillis }

/-- A run has failed. -/
def markFailure (s : JobState) (t : Instant) : JobState :=
  { s with failures := s.failures + 1, lastFailed := some t.floorMillis }

/-- A run is over and has taken some time. The total wraps around at 64 bits, and a single run
counts with at most the greatest number of 64 bits. -/
def markOver (s : JobState) (t : Instant) (elapsed : Span) : JobState :=
  { s with
    lastOver := some t.floorMillis
    completed := s.completed + 1
    runtimeNanos :=
      (s.runtimeNanos + min elapsed.nanos 18446744073709551615) % 18446744073709551616 }

/-- Counts an error in the directory of the job. -/
def recordError (s : JobState) (e : TracedError) (t : Instant) : JobState :=
  { s with errors := (s.errors.record e t).2 }

/-- The mean length of the runs that are over, zero before the first one. -/
def averageRun (s : JobState) : Span :=
  if s.completed = 0 then ⟨0⟩ else ⟨s.runtimeNanos / s.completed⟩

end JobState

end Metronome
