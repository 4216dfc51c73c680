import Metronome.Proofs.Course
import Metronome.Runner.Crew

/-!
# Shifts

A shift is a crew at work: the runner and its pool, together with what each thread around them is
in the middle of. Several threads hand in triggers, one thread dispatches, the threads of the pool
run callbacks, and anyone may close a job. A step is what one of these threads does without being
interrupted; between any two steps of a thread the others may take any number of theirs.

* A trigger comes in by two steps: the look at what is closed, which needs no lock, and the rest.
* A dispatch takes up to four: the look at the free slots, the pop, the offer to the pool, and,
  after a refusal, the requeue.
* The end of a run takes two: its completion, and then the release of its place in the pool.
* The runner is closed by two: the flag goes up, and once the dispatch thread has come to its end
  the line is dropped.

## Main definitions

* `Dispatcher`, `Floor`, `Shift` — what the threads are in the middle of
* `Event` — what is seen of a step
* `Shift.Step`, `Shift.Run` — one step, and any interleaving of steps
* `Shift.Fresh` — nothing has been handed to the runner yet

## Main results

* `Runner.handOver_eq`, `Runner.close_eq` — these operations are made of the steps
-/

namespace Metronome

namespace Runner

/-- The pool has admitted a run. -/
def grant (r : Runner) (pool : Pool) : Runner :=
  { r with pool := pool, dispatched := r.dispatched + 1 }

/-- The pool has refused a run: the job goes back into line, and the refusal is counted and
recorded. -/
def takeBack (r : Runner) (id : JobId) (cause : PoolError) (now : Instant) : Runner :=
  { r.requeue id with rejected := (r.requeue id).rejected + 1 }.updateState id fun s =>
    s.recordError (.wrap .dispatch (.pool cause)) now

theorem handOver_eq (r : Runner) (id : JobId) (now : Instant) :
    r.handOver id now =
      match r.pool.submit with
      | .ok pool => (true, r.grant pool)
      | .error cause => (false, r.takeBack id cause now) := rfl

/-- The flag that no further run is to begin. -/
def shut (r : Runner) : Runner := { r with closed := true }

/-- The line of a closed runner is dropped, and its pool is closed. -/
def clear (r : Runner) : Runner := { r.dropLine with pool := r.dropLine.pool.close }

theorem close_eq (r : Runner) : r.close = if r.closed then r else r.shut.clear := rfl

end Runner

namespace Crew

/-- A free thread takes one of the waiting runs and begins it. -/
def startTask (c : Crew) (before : List JobId) (id : JobId) (after : List JobId) : Crew :=
  let c := { c with
    waiting := before ++ after
    runner := { c.runner with pool := c.runner.pool.beginTask } }
  let (task, c) := c.runTask ⟨id, { clock := c.clock }⟩ fun x j => x.begin j
  { c with active := c.active ++ [task] }

theorem beginTask?_eq (c : Crew) :
    c.beginTask? =
      match c.waiting with
      | [] => none
      | id :: waiting =>
        if c.active.length < c.runner.pool.threads then some (c.startTask [] id waiting)
        else none := rfl

/-- A thread goes on with its run for a number of steps. -/
def moveTask (c : Crew) (before : List Task) (task : Task) (after : List Task) (n : Nat) : Crew :=
  let (task, c) := c.runTask task fun x j => x.proceed j n
  { c with active := before ++ task :: after }

end Crew

/-- What the dispatch thread is about to do. -/
inductive Dispatcher
  /-- To look for room in the pool. -/
  | idle
  /-- To take the job at the head of the line: there was room. -/
  | ready
  /-- To offer the job that it has taken to the pool. -/
  | holding (id : JobId)
  /-- To put the job that the pool has refused back into line. -/
  | refused (id : JobId) (cause : PoolError)

/-- The job that has left the line and is not in the pool. -/
def Dispatcher.hand? : Dispatcher → Option JobId
  | .idle | .ready => none
  | .holding id | .refused id _ => some id

/-- What the threads around a crew are in the middle of. -/
structure Floor where
  /-- Triggers that were not turned away and are yet to be counted. -/
  checked : List JobId := []
  dispatcher : Dispatcher := .idle
  /-- Completed runs that still have their place in the pool, and whether they panicked. -/
  leaving : List Bool := []
  /-- The runner is closed, and its line is yet to be dropped. -/
  closing : Bool := false

/-- A crew at work. -/
structure Shift extends Floor where
  crew : Crew

/-- What is seen of a step. -/
inductive Event
  /-- A trigger was answered. -/
  | answered (id : JobId) (answer : Submission)
  /-- A job was taken from the line. -/
  | taken (id : JobId)
  /-- A closed job was taken from the line, and its triggers were dropped. -/
  | dropped (id : JobId)
  /-- A run was admitted by the pool. -/
  | admitted (id : JobId)
  /-- A run that the pool had refused was taken back. -/
  | refused (id : JobId)
  /-- A run got a thread. -/
  | begun (id : JobId)
  /-- A run was completed. -/
  | completed (id : JobId)
  /-- The line of the closed runner was dropped. -/
  | cleared
  | quiet
deriving DecidableEq

/-- What is seen when the line is popped. -/
def Runner.Popped.event : Runner.Popped → Event
  | .nothing => .quiet
  | .dropped id => .dropped id
  | .taken id => .taken id

/-- What the dispatch thread does next when the line was popped. -/
def Runner.Popped.next : Runner.Popped → Dispatcher
  | .nothing | .dropped _ => .idle
  | .taken id => .holding id

namespace Shift

/-- The runner of the crew. -/
abbrev runner (s : Shift) : Runner := s.crew.runner

/-- The shift with another runner. -/
def withRunner (s : Shift) (r : Runner) : Shift := { s with crew := { s.crew with runner := r } }

/-- The shift with other jobs. -/
def withRoster (s : Shift) (roster : Roster) : Shift :=
  s.withRunner { s.runner with roster := roster }

/-- The shift with another pool. -/
def withPool (s : Shift) (pool : Pool) : Shift := s.withRunner { s.runner with pool := pool }

/-- What one thread does without being interrupted, and what is seen of it. -/
inductive Step : Shift → Event → Shift → Prop
  /-- A trigger finds the runner or the job closed. -/
  | turnAway (s : Shift) (id : JobId) (shut : s.runner.turnsAway id = true) :
      Step s (.answered id .refused) s
  /-- A trigger finds neither the runner nor the job closed. -/
  | check (s : Shift) (id : JobId) (opened : s.runner.turnsAway id = false) :
      Step s .quiet { s with checked := id :: s.checked }
  /-- A trigger that was not turned away is counted. -/
  | enqueue (s : Shift) (id : JobId) (checked : id ∈ s.checked) :
      Step s (.answered id (s.runner.enqueue id).1)
        { s.withRunner (s.runner.enqueue id).2 with checked := s.checked.erase id }
  /-- The dispatch thread sees room in the pool. -/
  | look (s : Shift) (idle : s.dispatcher = .idle) (room : s.runner.pool.freeSlots ≠ 0)
      (opened : s.runner.closed = false) :
      Step s .quiet { s with dispatcher := .ready }
  /-- The dispatch thread takes the job at the head of the line. -/
  | pop (s : Shift) (ready : s.dispatcher = .ready) :
      Step s s.runner.pop.1.event
        { s.withRunner s.runner.pop.2 with dispatcher := s.runner.pop.1.next }
  /-- The pool admits the job that the dispatch thread offers. -/
  | grant (s : Shift) (id : JobId) (pool : Pool) (holding : s.dispatcher = .holding id)
      (room : s.runner.pool.submit = .ok pool) :
      Step s (.admitted id)
        { s with
          dispatcher := .idle
          crew := { s.crew with runner := s.runner.grant pool, waiting := s.crew.waiting ++ [id] } }
  /-- The pool refuses the job that the dispatch thread offers. -/
  | refuse (s : Shift) (id : JobId) (cause : PoolError) (holding : s.dispatcher = .holding id)
      (full : s.runner.pool.submit = .error cause) :
      Step s .quiet { s with dispatcher := .refused id cause }
  /-- The dispatch thread puts the refused job back into line. -/
  | takeBack (s : Shift) (id : JobId) (cause : PoolError)
      (refused : s.dispatcher = .refused id cause) :
      Step s (.refused id)
        { s.withRunner (s.runner.takeBack id cause s.crew.clock) with dispatcher := .idle }
  /-- A free thread of the pool takes a waiting run. -/
  | begin (s : Shift) (before : List JobId) (id : JobId) (after : List JobId)
      (waiting : s.crew.waiting = before ++ id :: after)
      (free : s.crew.active.length + s.leaving.length < s.runner.pool.threads) :
      Step s (.begun id) { s with crew := s.crew.startTask before id after }
  /-- A thread of the pool goes on with its run, for one step or several. -/
  | advance (s : Shift) (before : List Task) (task : Task) (after : List Task) (n : Nat)
      (active : s.crew.active = before ++ task :: after) :
      Step s .quiet { s with crew := s.crew.moveTask before task after n }
  /-- A call that waits at its gate is let through. -/
  | release (s : Shift) (before : List Task) (task : Task) (after : List Task)
      (active : s.crew.active = before ++ task :: after) :
      Step s .quiet
        { s with crew := { s.crew with
          active := before ++ { task with execution := task.execution.release } :: after } }
  /-- A run that has come to its end, in whatever way, is completed. -/
  | complete (s : Shift) (before : List Task) (task : Task) (after : List Task)
      (active : s.crew.active = before ++ task :: after) (done : task.execution.isOver = true) :
      Step s (.completed task.id)
        { s with
          leaving := s.leaving ++ [task.execution.escaped.isSome]
          crew := { s.crew with
            runner := s.runner.complete task.id
            active := before ++ after } }
  /-- A completed run frees its place in the pool. -/
  | leave (s : Shift) (before : List Bool) (panicked : Bool) (after : List Bool)
      (leaving : s.leaving = before ++ panicked :: after) :
      Step s .quiet
        { s.withPool (s.runner.pool.endTask panicked) with leaving := before ++ after }
  /-- Someone starts, stops or closes a job or changes its budget. -/
  | act (s : Shift) (id : JobId) (action : Action) :
      Step s .quiet (s.withRoster (s.runner.roster.update id (·.perform action)))
  /-- The limit of the pool is changed. -/
  | tune (s : Shift) (capacity : Option Nat) :
      Step s .quiet (s.withPool (s.runner.pool.tune capacity))
  /-- Time goes by. -/
  | pass (s : Shift) (now : Instant) : Step s .quiet { s with crew := s.crew.catchUp now }
  /-- The runner is closed. -/
  | shut (s : Shift) (opened : s.runner.closed = false) :
      Step s .quiet { s.withRunner s.runner.shut with closing := true }
  /-- The dispatch thread has come to its end, and the line is dropped. -/
  | clear (s : Shift) (closing : s.closing = true) (idle : s.dispatcher = .idle) :
      Step s .cleared { s.withRunner s.runner.clear with closing := false }

/-- An interleaving of steps. -/
abbrev Run : Shift → List Event → Shift → Prop := Course Step

/-- A runner that has just been created: no job of it has been triggered yet. -/
structure Fresh (s : Shift) : Prop where
  checked : s.checked = []
  dispatcher : s.dispatcher = .idle
  closing : s.closing = false
  waiting : s.crew.waiting = []
  active : s.crew.active = []
  line : s.runner.line = {}
  dispatched : s.runner.dispatched = 0
  coalesced : s.runner.coalesced = 0
  pending : ∀ id st, s.runner.roster.state? id = some st → st.pending = 0
  running : ∀ id st, s.runner.roster.state? id = some st → st.running = 0

/-- A state that a runner can come to. -/
def Reachable (s : Shift) : Prop := ∃ start es, Fresh start ∧ Run start es s

end Shift

end Metronome
