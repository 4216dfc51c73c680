import Metronome.Job.State
import Metronome.Schedule.Spec

/-!
# Jobs

A job binds a callback to a schedule and a run state. What a callback does is described by what
it does to its own job before it passes its gate, and by how it comes out.

## Main definitions

* `Action`, `Outcome`, `Call`, `Callback` — what the calls of a callback do
* `JobOptions`, `Job` — the description of a job and the job
* `Job.create` — the job of a description, anchored at a tick and a point in time
-/

namespace Metronome

/-- What a callback does to its own job. -/
inductive Action
  | start
  | stop
  | close
  | setTimes (n : Nat)
  | clearTimes
  /-- Runs the job once more, inside the running callback. -/
  | run
deriving DecidableEq, Repr

/-- How a call of a callback comes out. -/
inductive Outcome
  /-- The job goes on. -/
  | proceed
  /-- The job is to be closed. -/
  | exit
  | fail (e : TracedError)
  | panic (p : PanicPayload)
deriving DecidableEq

/-- One call of a callback. -/
structure Call where
  actions : List Action := []
  /-- After the actions, the call waits until it is let through. -/
  gated : Bool := false
  outcome : Outcome := .proceed
deriving DecidableEq

/-- What a callback does, by the number of the call, counted from zero. -/
abbrev Callback := Nat → Call

/-- The description of a job. -/
structure JobOptions where
  /-- Without a name the job gets a generated one. -/
  name : Option String := none
  spec : ScheduleSpec
  callback : Option Callback := none
  singleton : Bool := false
  times : Option Nat := none
  /-- The job has to be started before it runs. -/
  paused : Bool := false

/-- The status with which a job begins. -/
def JobOptions.status (o : JobOptions) : JobStatus := if o.paused then .stopped else .ready

/-- A callback bound to a schedule. -/
structure Job where
  /-- The name, `none` for a generated one. -/
  name : Option String
  spec : ScheduleSpec
  schedule : Schedule
  callback : Callback
  state : JobState

instance : Inhabited Job :=
  ⟨{ name := none, spec := default, schedule := default, callback := fun _ => {},
     state := .new false none .ready }⟩

namespace Job

/-- The job of a description with a schedule. It needs a callback. -/
def ofOptions (o : JobOptions) (schedule : Schedule) : Except SchedulerError Job :=
  match o.callback with
  | none => .error (.missingCallback (o.name.getD ""))
  | some callback =>
    .ok
      { name := o.name
        spec := o.spec
        schedule := schedule
        callback := callback
        state := .new o.singleton o.times o.status }

/-- The job of a description, anchored at a tick and a point in time. -/
def create (o : JobOptions) (a : Anchor) : Except SchedulerError Job :=
  match o.spec.build a with
  | .error e => .error e
  | .ok schedule => ofOptions o schedule

/-- Whether a job is over for good. -/
def isClosed (j : Job) : Bool := j.state.isClosed

/-- The job with another run state. -/
def withState (j : Job) (f : JobState → JobState) : Job := { j with state := f j.state }

/-- Resumes a stopped job, and says whether it was stopped. -/
def start (j : Job) : Bool × Job :=
  let (changed, s) := j.state.start
  (changed, { j with state := s })

/-- Stops a job that is neither stopped nor closed, and says whether that was so. -/
def stop (j : Job) : Bool × Job :=
  let (changed, s) := j.state.stop
  (changed, { j with state := s })

/-- Closes a job. -/
def close (j : Job) : Job := j.withState .close

/-- Looks at the schedule and moves it on. -/
def checkSchedule (j : Job) (tick : Tick) (now : Instant) : Advance × Job :=
  let (advance, schedule) := j.schedule.check tick now
  (advance, { j with schedule := schedule })

end Job

end Metronome
