import Metronome.Job.Basic

/-!
# Execution of callbacks

A run of a job claims a unit of the budget and calls the callback. The callback may run the job
again before it comes to its end, so that the calls in progress on one thread form a stack; a
call may also have to wait at its gate. Execution is therefore cut into steps: a call begins,
performs an action, passes its gate or ends.

The end of a call does all bookkeeping before a panic goes on. A panic that leaves a nested run
is caught by the callback around it; one that leaves the outermost run is handed to the thread.

A thread has a clock, which moves on with every step. Of two errors that one thread records, the
later one is therefore seen at a later point in time.

## Main definitions

* `Frame` — a call in progress
* `Execution` — the calls in progress on one thread, for one job
* `Execution.begin` — a run of the job is called
* `Execution.step?` — the next step, unless a call waits at its gate or nothing is in progress
* `Execution.proceed` — as many steps as are possible
-/

namespace Metronome

/-- A call in progress. -/
structure Frame where
  /-- The number of the call. -/
  number : Nat
  /-- The run has spent the budget. -/
  last : Bool
  /-- What the callback will do before it comes to its gate. -/
  actions : List Action
  /-- The call still has to pass its gate. -/
  gated : Bool
  outcome : Outcome
deriving DecidableEq

/-- What is seen of the job when a call begins. -/
structure CallRecord where
  number : Nat
  status : JobStatus
  executing : Int
deriving DecidableEq

/-- The calls in progress on one thread, for one job. -/
structure Execution where
  /-- The point in time that the thread has come to. -/
  clock : Instant
  /-- The calls in progress, the innermost one first. -/
  frames : List Frame := []
  /-- The calls that have begun, in order. -/
  log : List CallRecord := []
  /-- The panic that the outermost run has handed to the thread. -/
  escaped : Option TracedError := none
deriving DecidableEq

/-- The place at which a panic of a callback is recovered. -/
def Site.recovery : Site := ⟨"metronome/execution", 1, 1⟩

namespace Job

/-- The job closed, if the flag says so. -/
def closeIf (j : Job) (flag : Bool) : Job := if flag then j.close else j

/-- A run claims its unit of the budget and enters the callback. Without a unit nothing at all
happens. -/
def beginRun (j : Job) (now : Instant) : Option (Frame × Job) :=
  match j.state.claim with
  | (.exhausted, _) => none
  | (.granted last, s) =>
    let number := s.runs
    let call := j.callback number
    some
      ({ number := number, last := last, actions := call.actions, gated := call.gated,
         outcome := call.outcome },
       { j with state := (s.markStart now).enter })

/-- What the outcome of a call does to its job, and the panic that goes on. -/
def settle (j : Job) (outcome : Outcome) (now : Instant) : Job × Option TracedError :=
  match outcome with
  | .proceed => (j.withState (·.markSuccess now), none)
  | .exit => ((j.withState (·.markSuccess now)).close, none)
  | .fail e => (j.withState fun s => (s.markFailure now).recordError e now, none)
  | .panic p =>
    let e := TracedError.ofPanic .recovery p
    (j.withState fun s => (s.markFailure now).recordError e now, some e)

/-- A call ends. The run that has spent the budget closes the job. -/
def endRun (j : Job) (f : Frame) (now : Instant) : Job × Option TracedError :=
  let (j, panic) := j.settle f.outcome now
  let j := j.withState fun s => (s.markOver now ⟨0⟩).leave
  (j.closeIf f.last, panic)

/-- An action of a callback, save for a nested run. -/
def perform (j : Job) : Action → Job
  | .start => j.start.2
  | .stop => j.stop.2
  | .close => j.close
  | .setTimes n => j.withState (·.setTimes (some n))
  | .clearTimes => j.withState (·.setTimes none)
  | .run => j

end Job

namespace Execution

/-- A run is called, on top of the calls in progress. -/
def begin (x : Execution) (j : Job) : Job × Execution :=
  match j.beginRun x.clock with
  | none => (j, x)
  | some (frame, j) =>
    (j, { x with
      clock := x.clock.next
      frames := frame :: x.frames
      log := x.log ++ [⟨frame.number, j.state.status, j.state.executing⟩] })

/-- The next step of the innermost call: an action, or its end once it has passed its gate. -/
def step? (x : Execution) (j : Job) : Option (Job × Execution) :=
  match x.frames with
  | [] => none
  | f :: rest =>
    match f.actions with
    | .run :: actions =>
      -- the frame stays below the nested one and goes on with its remaining actions
      some (begin { x with frames := { f with actions := actions } :: rest } j)
    | action :: actions =>
      some (j.perform action, { x with
        clock := x.clock.next
        frames := { f with actions := actions } :: rest })
    | [] =>
      if f.gated then none
      else
        let (j, panic) := j.endRun f x.clock
        -- the callback around a nested run catches its panic
        some (j, { x with
          clock := x.clock.next
          frames := rest
          escaped := if rest.isEmpty then panic else x.escaped })

/-- Up to `fuel` steps, as long as one is possible. -/
def proceed (x : Execution) (j : Job) : (fuel : Nat) → Job × Execution
  | 0 => (j, x)
  | fuel + 1 =>
    match x.step? j with
    | none => (j, x)
    | some (j, x) => x.proceed j fuel

/-- The call that waits at its gate, by its number. -/
def waitingCall? (x : Execution) : Option Nat :=
  match x.frames with
  | f :: _ => if f.actions.isEmpty && f.gated then some f.number else none
  | [] => none

/-- Lets the innermost call through its gate. -/
def release (x : Execution) : Execution :=
  match x.frames with
  | [] => x
  | f :: rest => { x with frames := { f with gated := false } :: rest }

/-- Whether nothing is in progress. -/
def isOver (x : Execution) : Bool := x.frames.isEmpty

/-- A bound on the steps of one thread between two gates. Only a callback that runs its own job
again without end would need more. -/
def stepLimit : Nat := 1000000

end Execution

/-- One run of a job on a thread of its own that begins at a point in time: the job afterwards, with
the calls that were made and the panic that left the run. -/
def Job.runOnce (j : Job) (now : Instant) : Job × Execution :=
  let (j, x) := Execution.begin { clock := now } j
  x.proceed j Execution.stepLimit

end Metronome
