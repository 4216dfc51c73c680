import Metronome.Proofs.Runner.Deeds
import Metronome.Proofs.Timer.Works

/-!
# A timer with all its threads

A tick is not taken as a whole: while the tick thread visits a job, the threads of the runner and of
the pool go on, callers add and treat jobs, and one of them may close the timer. A plant is a timer
together with what each of these threads is in the middle of. Between any two steps of a thread the
others may take any number of theirs.

* A visit takes up to seven steps: the job leaves the queue, its schedule is looked at, the status
  of the job is read, the budget is lowered, the trigger is offered by two steps as any other one,
  and the job goes back into the queue or is closed.
* A job is added by two steps: it is created, and then it goes into the queue.
* The timer is closed by as many as there are places to be emptied, one after the other.

## Main definitions

* `Sweep`, `Stage`, `Ticker`, `Closer` — what the tick thread and the closing thread are about to do
* `Occasion` — what is seen of a step
* `Plant`, `Plant.Step`, `Plant.Run` — a timer with its threads, one step, and any interleaving

## Main results

* `Plant.Step.move` — every step is a move of the account of each job
* `Plant.Step.calls` — every step is a step of the calls of each job
* `Plant.Step.callCount`, `Plant.Step.waiting` — the calls in the log, the runs without a thread
-/

namespace Metronome

/-- A tick on which jobs are visited. -/
structure Sweep where
  tick : Tick
  now : Instant
  /-- The timer was running when the tick began. -/
  dispatching : Bool
deriving DecidableEq

/-- What the tick thread is about to do on a tick. -/
inductive Stage
  /-- To take the next job whose tick has come out of the queue. -/
  | taking
  /-- To look at the schedule of a job. -/
  | looking (id : JobId)
  /-- To decide whether the job is handed to the runner. -/
  | deciding (id : JobId) (advance : Advance)
  /-- To leave the job one run, the last one. -/
  | capping (id : JobId) (advance : Advance)
  /-- To look whether the trigger is turned away. -/
  | offering (id : JobId) (advance : Advance)
  /-- To count the trigger. -/
  | counting (id : JobId) (advance : Advance)
  /-- To put the job back or to close it, knowing whether the runner has got it. -/
  | settling (id : JobId) (advance : Advance) (submitted : Bool)
deriving DecidableEq

/-- The job that is visited. -/
def Stage.hand? : Stage → Option JobId
  | .taking => none
  | .looking id | .deciding id _ | .capping id _ | .offering id _ | .counting id _
  | .settling id _ _ => some id

/-- What the tick thread is in the middle of. -/
inductive Ticker
  | idle
  | busy (sweep : Sweep) (stage : Stage)
deriving DecidableEq

/-- The job that is visited. -/
def Ticker.hand? : Ticker → Option JobId
  | .idle => none
  | .busy _ stage => stage.hand?

/-- What the thread that closes the timer is about to do. -/
inductive Closer
  /-- Nobody has closed the timer. -/
  | absent
  /-- To close the runner, once the tick thread has come to its end. -/
  | joining
  /-- To drop the line, once the dispatch thread has come to its end. -/
  | dropping
  /-- To empty the queue. -/
  | draining
  /-- To close the jobs that were in the queue. -/
  | closing (ids : List JobId)
  | done
deriving DecidableEq

/-- What is seen of a step. -/
inductive Occasion
  /-- A thread of the crew, or someone who treats or triggers a job, has taken a step. -/
  | worked (d : Deed)
  | created (id : JobId)
  /-- The schedule of a job was looked at and has moved on. -/
  | looked (id : JobId) (advance : Advance)
  /-- One run was left to a job. -/
  | capped (id : JobId)
  /-- The tick thread has triggered a job. -/
  | offered (id : JobId) (answer : Submission)
  /-- The timer has closed a job. -/
  | retired (id : JobId)
  /-- The timer has left a job to the run that it has handed over. -/
  | dismissed (id : JobId)
  /-- The line of the closed runner was dropped. -/
  | cleared
  | quiet
deriving DecidableEq

/-- What the runner sees of it. -/
def Occasion.event : Occasion → Event
  | .worked d => d.event
  | .offered id answer => .answered id answer
  | .cleared => .cleared
  | _ => .quiet

/-- What a job sees of it. -/
def Occasion.call (id : JobId) : Occasion → CallEvent
  | .worked d => d.call id
  | .capped other => if other = id then .capped 1 else .quiet
  | .retired other => if other = id then .acted .close else .quiet
  | _ => .quiet

/-- A timer with all its threads. -/
structure Plant extends Floor where
  timer : Timer
  ticker : Ticker := .idle
  /-- Jobs that were created and are yet to be queued, with their ticks. -/
  adding : List (JobId × Tick) := []
  closer : Closer := .absent

namespace Plant

/-- The crew at work. -/
def shift (p : Plant) : Shift := { p.toFloor with crew := p.timer.crew }

/-- The crew has moved on. -/
def withShift (p : Plant) (s : Shift) : Plant :=
  { p with toFloor := s.toFloor, timer := { p.timer with crew := s.crew } }

/-- The plant with other jobs. -/
def withRoster (p : Plant) (roster : Roster) : Plant :=
  { p with timer := p.timer.withRoster roster }

/-- The jobs of the timer. -/
abbrev roster (p : Plant) : Roster := p.timer.roster

/-- Whether a visited job is handed to the runner. -/
def fires (p : Plant) (sweep : Sweep) (id : JobId) (advance : Advance) : Bool :=
  advance.due && sweep.dispatching &&
    !((p.roster.state? id).any fun s => s.status == .stopped)

/-- What follows when it is known whether a visited job is handed to the runner. -/
def decided (p : Plant) (sweep : Sweep) (id : JobId) (advance : Advance) : Stage :=
  if p.fires sweep id advance then
    if advance.exhausted then .capping id advance else .offering id advance
  else .settling id advance false

/-- The beginning of a tick: closed jobs are cleared out, and it is seen whether any job is to be
visited. -/
def tickOver (p : Plant) (tick : Tick) (now : Instant) : Plant :=
  let t := p.timer.reaped tick
  { p with
    timer := t
    ticker :=
      if tick < t.queue.nextPriority then .idle
      else .busy ⟨tick, now, t.status == .running⟩ .taking }

/-- What one thread does without being interrupted, and what is seen of it. -/
inductive Step : Plant → Occasion → Plant → Prop
  | work (p : Plant) (d : Deed) (s : Shift) (does : Shift.Does p.shift d s) :
      Step p (.worked d) (p.withShift s)
  /-- A job is created while the timer is not closed. -/
  | create (p : Plant) (o : JobOptions) (now : Instant) (job : Job)
      (opened : p.timer.status ≠ .closed) (made : Job.create o (p.timer.anchor now) = .ok job) :
      Step p (.created (p.roster.add job).1)
        { p.withRoster (p.roster.add job).2 with
          adding := ((p.roster.add job).1, job.schedule.nextTick) :: p.adding }
  /-- A job that was created goes into the queue. -/
  | enlist (p : Plant) (before : List (JobId × Tick)) (id : JobId) (tick : Tick)
      (after : List (JobId × Tick)) (created : p.adding = before ++ (id, tick) :: after) :
      Step p .quiet
        { p with
          timer := { p.timer with queue := p.timer.queue.push id tick }
          adding := before ++ after }
  /-- The timer is resumed or stopped. -/
  | switch (p : Plant) (status : TimerStatus)
      (switched : p.timer.start.2 = { p.timer with status := status } ∨
        p.timer.stop.2 = { p.timer with status := status }) :
      Step p .quiet { p with timer := { p.timer with status := status } }
  /-- A tick begins. The thread may have looked at the status of the timer just before someone
  closed it. -/
  | tick (p : Plant) (tick : Tick) (now : Instant) (idle : p.ticker = .idle)
      (running : p.closer = .absent ∨ p.closer = .joining)
      (next : tick.val = p.timer.ticks.val + 1) :
      Step p .quiet (p.tickOver tick now)
  /-- A job whose tick has come leaves the queue. -/
  | take (p : Plant) (sweep : Sweep) (e : Entry JobId) (queue : Queue JobId)
      (taking : p.ticker = .busy sweep .taking)
      (due : p.timer.queue.popDue sweep.tick = some (e, queue)) :
      Step p .quiet
        { p with
          timer := { p.timer with queue := queue }
          ticker := .busy sweep (.looking e.value) }
  /-- There is no further job whose tick has come. -/
  | rest (p : Plant) (sweep : Sweep) (taking : p.ticker = .busy sweep .taking)
      (none : p.timer.queue.popDue sweep.tick = none) :
      Step p .quiet { p with ticker := .idle }
  /-- A closed job is dropped. -/
  | skip (p : Plant) (sweep : Sweep) (id : JobId) (looking : p.ticker = .busy sweep (.looking id))
      (closed : p.roster.isClosed id = true) :
      Step p .quiet { p with ticker := .busy sweep .taking }
  /-- The schedule of a job is looked at. It was open when the thread looked at that, but may have
  been closed since. -/
  | look (p : Plant) (sweep : Sweep) (id : JobId) (j : Job)
      (looking : p.ticker = .busy sweep (.looking id)) (found : p.roster.get? id = some j) :
      Step p (.looked id (j.checkSchedule sweep.tick sweep.now).1)
        { p.withRoster (p.roster.update id fun j => (j.checkSchedule sweep.tick sweep.now).2) with
          ticker := .busy sweep (.deciding id (j.checkSchedule sweep.tick sweep.now).1) }
  | decide (p : Plant) (sweep : Sweep) (id : JobId) (advance : Advance)
      (deciding : p.ticker = .busy sweep (.deciding id advance)) :
      Step p .quiet { p with ticker := .busy sweep (p.decided sweep id advance) }
  | cap (p : Plant) (sweep : Sweep) (id : JobId) (advance : Advance)
      (capping : p.ticker = .busy sweep (.capping id advance)) :
      Step p (.capped id)
        { p.withRoster (p.roster.updateState id (·.capRuns 1)) with
          ticker := .busy sweep (.offering id advance) }
  /-- The trigger of the tick thread is turned away. -/
  | turnAway (p : Plant) (sweep : Sweep) (id : JobId) (advance : Advance)
      (offering : p.ticker = .busy sweep (.offering id advance))
      (shut : p.timer.crew.runner.turnsAway id = true) :
      Step p (.offered id .refused)
        { p with ticker := .busy sweep (.settling id advance false) }
  /-- The trigger of the tick thread is not turned away. -/
  | check (p : Plant) (sweep : Sweep) (id : JobId) (advance : Advance)
      (offering : p.ticker = .busy sweep (.offering id advance))
      (opened : p.timer.crew.runner.turnsAway id = false) :
      Step p .quiet
        { p with checked := id :: p.checked, ticker := .busy sweep (.counting id advance) }
  /-- The trigger of the tick thread is counted. -/
  | count (p : Plant) (sweep : Sweep) (id : JobId) (advance : Advance)
      (counting : p.ticker = .busy sweep (.counting id advance)) (checked : id ∈ p.checked) :
      Step p (.offered id (p.timer.crew.runner.enqueue id).1)
        { p with
          checked := p.checked.erase id
          timer := p.timer.withRunner (p.timer.crew.runner.enqueue id).2
          ticker := .busy sweep
            (.settling id advance ((p.timer.crew.runner.enqueue id).1 != .refused)) }
  /-- A job goes back into the queue, under a later tick. -/
  | requeue (p : Plant) (sweep : Sweep) (id : JobId) (advance : Advance) (submitted : Bool)
      (settling : p.ticker = .busy sweep (.settling id advance submitted))
      (live : advance.exhausted = false) :
      Step p .quiet
        { p with
          timer := { p.timer with
            queue := p.timer.queue.push id (max advance.nextTick (sweep.tick + 1)) }
          ticker := .busy sweep .taking }
  /-- A job whose schedule is exhausted is closed, since the runner has not got it. -/
  | retire (p : Plant) (sweep : Sweep) (id : JobId) (advance : Advance)
      (settling : p.ticker = .busy sweep (.settling id advance false))
      (exhausted : advance.exhausted = true) :
      Step p (.retired id)
        { p.withRoster (p.roster.update id Job.close) with ticker := .busy sweep .taking }
  /-- A job whose schedule is exhausted is left to the run that was handed over. -/
  | dismiss (p : Plant) (sweep : Sweep) (id : JobId) (advance : Advance)
      (settling : p.ticker = .busy sweep (.settling id advance true))
      (exhausted : advance.exhausted = true) :
      Step p (.dismissed id) { p with ticker := .busy sweep .taking }
  /-- Someone closes the timer. -/
  | close (p : Plant) (absent : p.closer = .absent) (opened : p.timer.status ≠ .closed) :
      Step p .quiet { p with timer := { p.timer with status := .closed }, closer := .joining }
  /-- The tick thread has come to its end, and the runner is closed. -/
  | shut (p : Plant) (joining : p.closer = .joining) (idle : p.ticker = .idle)
      (opened : p.timer.crew.runner.closed = false) :
      Step p .quiet
        { p with
          closing := true
          timer := p.timer.withRunner p.timer.crew.runner.shut
          closer := .dropping }
  /-- The dispatch thread has come to its end, and the line is dropped. -/
  | clear (p : Plant) (dropping : p.closer = .dropping) (closing : p.closing = true)
      (idle : p.dispatcher = .idle) :
      Step p .cleared
        { p with
          closing := false
          timer := p.timer.withRunner p.timer.crew.runner.clear
          closer := .draining }
  /-- The queue is emptied. -/
  | drain (p : Plant) (draining : p.closer = .draining) :
      Step p .quiet
        { p with
          timer := { p.timer with queue := p.timer.queue.drain.2 }
          closer := .closing p.timer.queue.drain.1 }
  /-- A job that was in the queue is closed. -/
  | closeJob (p : Plant) (id : JobId) (ids : List JobId)
      (closing : p.closer = .closing (id :: ids)) :
      Step p (.retired id)
        { p.withRoster (p.roster.update id Job.close) with closer := .closing ids }
  | finish (p : Plant) (closing : p.closer = .closing []) : Step p .quiet { p with closer := .done }

/-- An interleaving of steps. -/
abbrev Run : Plant → List Occasion → Plant → Prop := Course Step

/-- A timer that has just been created. -/
structure Opened (p : Plant) : Prop where
  floor : p.toFloor = {}
  timer : ∃ config parallelism now, Timer.new config parallelism now = .ok p.timer
  ticker : p.ticker = .idle
  adding : p.adding = []
  closer : p.closer = .absent

variable {p q : Plant} {id : JobId} {j : Job} {st : JobState} {o : Occasion}

/-- Resuming and stopping the timer are steps. -/
theorem step_start (p : Plant) : Step p .quiet { p with timer := p.timer.start.2 } := by
  have heq : ∃ status, p.timer.start.2 = { p.timer with status := status } := by
    unfold Timer.start
    split <;> exact ⟨_, rfl⟩
  obtain ⟨status, heq⟩ := heq
  rw [heq]
  exact .switch p status (Or.inl heq)

theorem step_stop (p : Plant) : Step p .quiet { p with timer := p.timer.stop.2 } := by
  have heq : ∃ status, p.timer.stop.2 = { p.timer with status := status } := by
    unfold Timer.stop
    split <;> exact ⟨_, rfl⟩
  obtain ⟨status, heq⟩ := heq
  rw [heq]
  exact .switch p status (Or.inr heq)

/-- What the crew does, it does in the timer. -/
theorem run_work (p : Plant) {s t : Shift} {ds : List Deed} (h : Course Shift.Does s ds t)
    (hs : s = p.shift) : Run p (ds.map .worked) (p.withShift t) := by
  induction h with
  | refl =>
    rw [hs]
    exact .refl p
  | snoc _ hdoes ih =>
    rw [List.map_append]
    exact ih.snoc (.work _ _ _ hdoes)

/-- Someone triggers a job, and nobody comes in between. -/
theorem run_trigger (p : Plant) (id : JobId)
    (opened : p.timer.crew.runner.turnsAway id = false) :
    Run p [.worked .quiet, .worked (.counted (.answered id (p.timer.trigger id).1))]
      { p with timer := (p.timer.trigger id).2 } := by
  have hcheck : Shift.Does p.shift .quiet { p.shift with checked := id :: p.checked } :=
    .rest (.check p.shift id opened) rfl rfl rfl rfl rfl
  have henqueue := Shift.Step.enqueue { p.shift with checked := id :: p.checked } id
    List.mem_cons_self
  rw [List.erase_cons_head] at henqueue
  have hrun := run_work p ((Course.single hcheck).snoc (.count henqueue rfl)) rfl
  rw [Timer.trigger, Runner.submit, if_neg (Bool.eq_false_iff.mp opened)]
  exact hrun

/-! ### Accounts -/

theorem tickOver_crew (p : Plant) (tick : Tick) (now : Instant) :
    (p.tickOver tick now).roster.jobs = p.roster.jobs ∧
      (p.tickOver tick now).timer.crew.runner.line = p.timer.crew.runner.line ∧
      (p.tickOver tick now).timer.crew.active = p.timer.crew.active ∧
      (p.tickOver tick now).timer.crew.waiting = p.timer.crew.waiting ∧
      (p.tickOver tick now).timer.crew.log = p.timer.crew.log ∧
      (p.tickOver tick now).timer.crew.runner.closed = p.timer.crew.runner.closed := by
  unfold tickOver Timer.reaped Timer.reapIfAsked
  dsimp only
  split <;> exact ⟨rfl, rfl, rfl, rfl, rfl, rfl⟩

theorem status_tickOver (p : Plant) (tick : Tick) (now : Instant) :
    (p.tickOver tick now).timer.status = p.timer.status := by
  unfold tickOver Timer.reaped Timer.reapIfAsked
  dsimp only
  split <;> rfl

theorem get?_tickOver (p : Plant) (tick : Tick) (now : Instant) (id : JobId) :
    (p.tickOver tick now).roster.get? id = p.roster.get? id := by
  rw [Roster.get?, (p.tickOver_crew tick now).1]
  rfl

theorem get?_add_of_get? {r : Roster} (hj : r.get? id = some j) (k : Job) :
    (r.add k).2.get? id = some j := by
  obtain ⟨hlt, -⟩ := Array.getElem?_eq_some_iff.mp hj
  exact (Array.getElem?_push.trans (if_neg (Nat.ne_of_lt hlt))).trans hj

theorem state?_of_get? {r r' : Roster} (h : r'.get? id = r.get? id) :
    r'.state? id = r.state? id := by
  rw [Roster.state?, h, Roster.state?]

/-- A change that the runner does not see is no move, save that the job may be closed. -/
theorem move_of_keeps {st' : JobState} (hst : q.roster.state? id = some st')
    (hkeeps : st.Keeps st') (hline : q.timer.crew.runner.line = p.timer.crew.runner.line)
    (hhand : q.dispatcher = p.dispatcher)
    (hflying : q.timer.crew.flying id = p.timer.crew.flying id) :
    ∃ st', q.roster.state? id = some st' ∧
      Account.Move id (p.shift.account id st) .quiet (q.shift.account id st') := by
  have haround : Shift.Around id p.shift q.shift :=
    ⟨by rw [shift, shift, Shift.runner, Shift.runner, hline],
      by rw [shift, shift, hhand], hflying⟩
  exact ⟨st', hst, haround.move_of_keeps hkeeps⟩

/-- The timer closes a job or lowers its budget. -/
theorem move_of_update {f : Job → Job} {id' : JobId} (hst : p.roster.state? id = some st)
    (hf : ∀ j : Job, j.Keeps (f j)) (hroster : q.roster = p.roster.update id' f)
    (hline : q.timer.crew.runner.line = p.timer.crew.runner.line)
    (hhand : q.dispatcher = p.dispatcher)
    (hflying : q.timer.crew.flying id = p.timer.crew.flying id) :
    ∃ st', q.roster.state? id = some st' ∧
      Account.Move id (p.shift.account id st) .quiet (q.shift.account id st') := by
  obtain ⟨st', hst', hkeeps⟩ :
      ∃ st', (p.roster.update id' f).state? id = some st' ∧ st.Keeps st' :=
    Roster.keeps_update hf hst
  exact move_of_keeps (hroster ▸ hst') hkeeps hline hhand hflying

/-- Every step is a move of the account of each job. -/
theorem Step.move (h : Step p o q) (hline : p.shift.runner.line.Sound)
    (hst : p.roster.state? id = some st) :
    ∃ st', q.roster.state? id = some st' ∧
      Account.Move id (p.shift.account id st) o.event (q.shift.account id st') := by
  cases h with
  | work d s does => exact does.step.move hline hst
  | create o now job =>
    obtain ⟨j, hj, rfl⟩ := Option.map_eq_some_iff.mp hst
    have hst' := congrArg (Option.map Job.state) (get?_add_of_get? hj job)
    exact move_of_keeps hst' (.refl _) rfl rfl rfl
  | enlist | switch | take | rest | skip | decide | requeue | dismiss | close | drain | finish =>
    exact move_of_keeps hst (.refl st) rfl rfl rfl
  | tick tick now =>
    obtain ⟨-, hsame, hactive, hwaiting, -⟩ := p.tickOver_crew tick now
    have hst' := (state?_of_get? (p.get?_tickOver tick now id)).trans hst
    refine move_of_keeps hst' (.refl st) hsame rfl ?_
    rw [Crew.flying, Crew.flying, hactive, hwaiting]
  | look sweep id' j =>
    refine move_of_keeps (Eq.trans ?_ hst) (.refl st) rfl rfl rfl
    refine (Roster.state?_update _ _ _ _).trans ?_
    split <;> rfl
  | cap sweep id' =>
    have hcap (j : Job) : j.Keeps (j.withState (·.capRuns 1)) :=
      Job.keeps_of_state ⟨rfl, rfl, rfl, fun h => h⟩
    exact move_of_update hst hcap rfl rfl rfl rfl
  | turnAway sweep id' advance offering shut =>
    exact (Shift.Step.turnAway p.shift id' shut).move hline hst
  | check sweep id' advance offering opened =>
    exact (Shift.Step.check p.shift id' opened).move hline hst
  | count sweep id' advance counting checked =>
    exact (Shift.Step.enqueue p.shift id' checked).move hline hst
  | retire sweep id' => exact move_of_update hst Job.keeps_close rfl rfl rfl rfl
  | shut joining idle opened => exact (Shift.Step.shut p.shift opened).move hline hst
  | clear dropping closing idle => exact (Shift.Step.clear p.shift closing idle).move hline hst
  | closeJob id' => exact move_of_update hst Job.keeps_close rfl rfl rfl rfl

theorem Step.line_sound (h : Step p o q) (hline : p.shift.runner.line.Sound) :
    q.shift.runner.line.Sound := by
  cases h with
  | work d s does => exact does.step.line_sound hline
  | tick tick now =>
    rw [shift, Shift.runner, (p.tickOver_crew tick now).2.1]
    exact hline
  | count sweep id' => exact Runner.sound_enqueue hline
  | clear => exact Line.sound_empty
  | _ => exact hline

/-! ### Calls -/

theorem calls_of_tends (h : p.roster.Tends q.roster)
    (hactive : q.timer.crew.active = p.timer.crew.active) (hj : p.roster.get? id = some j) :
    ∃ k, q.roster.get? id = some k ∧
      Calls.Step (p.shift.calls id j) .quiet (q.shift.calls id k) := by
  have hstep := Shift.calls_of_tends (s := p.shift) (t := q.shift) h hactive hj
  exact hstep

theorem calls_of_update {id' : JobId} {f : Job → Job} {e : CallEvent}
    (hj : p.roster.get? id = some j) (hroster : q.roster = p.roster.update id' f)
    (hactive : q.timer.crew.active = p.timer.crew.active)
    (hstep : ∀ threads, Calls.Step ⟨j, threads⟩ e ⟨f j, threads⟩) :
    ∃ k, q.roster.get? id = some k ∧
      Calls.Step (p.shift.calls id j) (if id' = id then e else .quiet) (q.shift.calls id k) := by
  have hthreads (k : Job) : q.shift.calls id k = ⟨k, (p.shift.calls id j).threads⟩ := by
    rw [Shift.calls, Shift.calls, shift, shift, hactive]
  by_cases hid : id' = id
  · subst hid
    refine ⟨f j, by rw [hroster, Roster.get?_update_self hj], ?_⟩
    rw [if_pos rfl, hthreads]
    exact hstep _
  · refine ⟨j, by rw [hroster, Roster.get?_update, if_neg hid, hj], ?_⟩
    rw [if_neg hid, hthreads]
    exact .tend _ j (.refl j)

/-- Every step is a step of the calls of each job. -/
theorem Step.calls (h : Step p o q) (hj : p.roster.get? id = some j) :
    ∃ k, q.roster.get? id = some k ∧
      Calls.Step (p.shift.calls id j) (o.call id) (q.shift.calls id k) := by
  cases h with
  | work d s does => exact does.calls hj
  | create o now job =>
    exact calls_of_tends (fun id j hj => ⟨j, get?_add_of_get? hj job, .refl j⟩) rfl hj
  | enlist | switch | take | rest | skip | decide | turnAway | check | requeue | dismiss | close
  | shut | drain | finish => exact calls_of_tends (.refl _) rfl hj
  | tick tick now =>
    refine calls_of_tends (fun id j hj => ⟨j, ?_, .refl j⟩) (p.tickOver_crew tick now).2.2.1 hj
    rw [get?_tickOver, hj]
  | look sweep id' j' =>
    have htends (j : Job) : j.Tends (j.checkSchedule sweep.tick sweep.now).2 := ⟨rfl, rfl⟩
    exact calls_of_tends (Roster.tends_update htends _ _) rfl hj
  | cap sweep id' =>
    exact calls_of_update (f := (·.withState (·.capRuns 1))) hj rfl rfl fun threads =>
      .cap ⟨j, threads⟩ 1
  | count sweep id' => exact calls_of_tends (Runner.tends_enqueue _ id') rfl hj
  | retire sweep id' => exact calls_of_update hj rfl rfl fun threads => .act ⟨j, threads⟩ .close
  | clear => exact calls_of_tends (Runner.tends_clear _) rfl hj
  | closeJob id' => exact calls_of_update hj rfl rfl fun threads => .act ⟨j, threads⟩ .close

/-- The run of a job that has spent the budget is in progress. -/
def Lasting (p : Plant) (id : JobId) : Prop :=
  ∃ task ∈ p.timer.crew.active, task.id = id ∧ task.execution.Lasting

theorem lasting_calls (j : Job) : (p.shift.calls id j).Lasting ↔ p.Lasting id := by
  simp only [Calls.Lasting, Shift.calls, List.mem_map, List.mem_filter, decide_eq_true_eq, Lasting]
  constructor
  · rintro ⟨x, ⟨task, ⟨htask, hid⟩, rfl⟩, hlast⟩
    exact ⟨task, htask, hid, hlast⟩
  · rintro ⟨task, htask, hid, hlast⟩
    exact ⟨task.execution, ⟨task, ⟨htask, hid⟩, rfl⟩, hlast⟩

/-- What a step tells of a job. -/
theorem Step.tells (h : Step p o q) (hj : p.roster.get? id = some j) :
    ∃ k, q.roster.get? id = some k ∧ (o.call id).Tells j (p.Lasting id) k (q.Lasting id) := by
  obtain ⟨k, hk, hcalls⟩ := h.calls hj
  have htells := hcalls.tells
  rw [lasting_calls, lasting_calls] at htells
  exact ⟨k, hk, htells⟩

/-- No job opens again. -/
theorem Step.isClosed (h : Step p o q) (hid : id < p.roster.jobs.size)
    (hclosed : p.roster.isClosed id = true) : q.roster.isClosed id = true := by
  have hj : p.roster.get? id = some _ := Array.getElem?_eq_getElem hid
  obtain ⟨k, hk, htells⟩ := h.tells hj
  rw [Roster.isClosed_of_get? hj] at hclosed
  rw [Roster.isClosed_of_get? hk, htells.closed, hclosed]
  rfl

theorem Step.isClosed_eq_false (h : Step p o q) (hid : id < p.roster.jobs.size)
    (opened : q.roster.isClosed id = false) : p.roster.isClosed id = false :=
  Bool.eq_false_iff.mpr fun hclosed => Bool.eq_false_iff.mp opened (h.isClosed hid hclosed)

/-- The budget of a job is lowered by the tick thread only, which leaves one run. -/
theorem Step.capped (h : Step p o q) {limit : Nat} (hcall : o.call id = .capped limit) :
    o = .capped id ∧ limit = 1 := by
  have hself {id' : JobId} {e : CallEvent}
      (hcall : (if id' = id then e else .quiet) = .capped limit) :
      id' = id ∧ e = .capped limit := by
    split at hcall
    · next hid => exact ⟨hid, hcall⟩
    · cases hcall
  cases h with
  | work d s does =>
    cases does with
    | begin | act => cases (hself hcall).2
    | move before task after active =>
      have hcap : p.shift.callOf task = .capped limit := (hself hcall).2
      unfold Shift.callOf at hcap
      cases hj : p.shift.runner.roster.get? task.id with
      | none =>
        rw [hj] at hcap
        cases hcap
      | some j =>
        rw [hj] at hcap
        exact absurd hcap (Execution.nextEvent_ne_capped _ j limit)
    | count | rest | release => cases hcall
  | cap sweep id' advance =>
    obtain ⟨rfl, hlimit⟩ := hself hcall
    exact ⟨rfl, (CallEvent.capped.inj hlimit).symm⟩
  | retire | closeJob => cases (hself hcall).2
  | _ => cases hcall

theorem Step.one_le_of_capped (h : Step p o q) (limit : Nat) (hcall : o.call id = .capped limit) :
    1 ≤ limit :=
  Nat.le_of_eq (h.capped hcall).2.symm

/-- The run that begins on a thread asks for a unit of the budget. -/
theorem Step.claimed_of_begun (h : Step p o q) (ho : o.event = .begun id) :
    ∃ claim, o.call id = .claimed claim := by
  cases h with
  | work d s does =>
    cases does with
    | begin before id' =>
      obtain rfl : id' = id := Event.begun.inj ho
      exact ⟨_, if_pos rfl⟩
    | count step counts =>
      obtain rfl : _ = Event.begun id := ho
      cases counts
    | _ => cases ho
  | _ => cases ho

/-- The calls of a job are those found in the log. -/
theorem Step.callCount (h : Step p o q) (hj : p.roster.get? id = some j) :
    q.shift.callCount id = p.shift.callCount id + (CallEvent.grants [o.call id]).length := by
  cases h with
  | work d s does => exact does.callCount hj
  | tick tick now =>
    rw [Shift.callCount, shift, (p.tickOver_crew tick now).2.2.2.2.1]
    rfl
  | cap sweep id' | retire sweep id' | closeJob id' =>
    by_cases hid : id' = id
    · rw [Occasion.call, if_pos hid]
      rfl
    · rw [Occasion.call, if_neg hid]
      rfl
  | _ => rfl

/-- The runs that the pool has admitted wait for a thread until they begin. -/
theorem Step.waiting (h : Step p o q) (id : JobId) :
    q.timer.crew.waiting.count id + [o.event].count (.begun id) =
      p.timer.crew.waiting.count id + [o.event].count (.admitted id) := by
  cases h with
  | work d s does => exact does.step.waiting id
  | tick tick now =>
    rw [(p.tickOver_crew tick now).2.2.2.1]
    rfl
  | _ => rfl

end Plant

end Metronome
