import Metronome.Proofs.Job.Traffic
import Metronome.Proofs.Runner.Run

/-!
# The life of a job

A job is started, stopped and closed by whoever holds it, and its callbacks do the same while they
run; callbacks begin and end on any number of threads, some of them long after the job was stopped
or closed. All of them write to one status. It moves between ready and running as callbacks begin
and end, it comes to rest when the job is stopped and is woken up by a start only, and once it is
closed it is closed for good. The flag that asks the timer to clear its queue goes up in the same
step.

The steps here are operations, as those who call them see them. Single accesses to the status are
those of `Traffic`, and they keep to the same changes.

## Main definitions

* `JobStatus.Edge` — the changes of status
* `Lifetime` — a job of a roster with the threads that run it
* `Lifetime.Step`, `Lifetime.Run` — an operation on the job, and any sequence of them

## Main results

* `Calls.Step.edge`, `Traffic.Step.edge` — the changes of status in one step
* `Traffic.Run.isClosed` — no access opens a closed job
* `Lifetime.updateWith_eq` — an operation on the job is one of its roster
* `Lifetime.Step.isClosed`, `Lifetime.Step.reap` — what closes the job and raises the flag
* `Lifetime.Run.lifecycle` — the status, the answers and the flag throughout a life
-/

namespace Metronome

/-- The changes of status. Only a job that is being started is stopped no more. -/
inductive JobStatus.Edge (starting : Prop) : JobStatus → JobStatus → Prop
  | stay (s : JobStatus) : Edge starting s s
  | begin : Edge starting .ready .running
  | rest : Edge starting .running .ready
  | stop {s : JobStatus} (live : s.isHalted = false) : Edge starting s .stopped
  | start {s : JobStatus} (live : s.isHalted = false) (h : starting) : Edge starting .stopped s
  | close (s : JobStatus) : Edge starting s .closed

theorem JobStatus.Edge.mono {p q : Prop} {s t : JobStatus} (hpq : p → q) (h : Edge p s t) :
    Edge q s t := by
  cases h with
  | stay => exact .stay s
  | begin => exact .begin
  | rest => exact .rest
  | stop live => exact .stop live
  | start live hp => exact .start live (hpq hp)
  | close => exact .close s

theorem JobStatus.Edge.closed {p : Prop} {s : JobStatus} (h : Edge p .closed s) : s = .closed := by
  cases h with
  | stay | close => rfl
  | stop live => cases live

/-! ### Operations on the run state -/

namespace JobState

variable {s : JobState} {p : Prop}

/-- A change that is asked for is made, or the status stays. -/
theorem edge_transition {src dst : JobStatus} (h : JobStatus.Edge p src dst) (s : JobState) :
    JobStatus.Edge p s.status (s.transition src dst).2.status := by
  rw [status_transition]
  split
  · next hs => exact hs ▸ h
  · exact .stay _

theorem edge_enter (s : JobState) : JobStatus.Edge p s.status s.enter.status :=
  edge_transition .begin (s.addExecuting 1)

/-- The callback that ends last finds none that has begun meanwhile. -/
theorem edge_leave (s : JobState) : JobStatus.Edge p s.status s.leave.status := by
  unfold leave showRunning
  dsimp only
  split
  · next hlast =>
    have hnone : ¬ 0 < ((s.addExecuting (-1)).transition .running .ready).2.executing := by
      rw [executing_transition]
      simp only [addExecuting]
      omega
    rw [if_neg hnone]
    exact edge_transition .rest (s.addExecuting (-1))
  · exact .stay _

theorem edge_stop (s : JobState) : JobStatus.Edge p s.status s.stop.2.status := by
  unfold stop
  split
  · exact .stay _
  · exact .stay _
  · next h => exact .stop (by rw [h]; rfl)
  · next h => exact .stop (by rw [h]; rfl)

/-- A stopped job is started, and at once shown as running if a callback is executing. -/
theorem start_of_stopped (h : s.status = .stopped) :
    s.start = (true, { s with status := if 0 < s.executing then .running else .ready }) := by
  unfold start transition showRunning
  rw [if_pos h]
  dsimp only
  split
  · rfl
  · rfl

theorem start_of_not_stopped (h : s.status ≠ .stopped) : s.start = (false, s) := by
  unfold start transition
  rw [if_neg h]

theorem edge_start (s : JobState) (h : p) : JobStatus.Edge p s.status s.start.2.status := by
  by_cases hs : s.status = .stopped
  · rw [start_of_stopped hs, hs]
    refine .start ?_ h
    dsimp only
    split <;> rfl
  · rw [start_of_not_stopped hs]
    exact .stay _

/-- The answer of `start` says whether the status has changed. -/
theorem start_fst (s : JobState) : s.start.1 = true ↔ s.start.2.status ≠ s.status := by
  by_cases hs : s.status = .stopped
  · rw [start_of_stopped hs, hs]
    refine iff_of_true rfl ?_
    dsimp only
    split <;> decide
  · rw [start_of_not_stopped hs]
    exact iff_of_false Bool.false_ne_true (fun h => h rfl)

/-- The answer of `stop` says whether the status has changed. -/
theorem stop_fst (s : JobState) : s.stop.1 = true ↔ s.stop.2.status ≠ s.status := by
  unfold stop
  split <;> simp_all

end JobState

/-! ### Operations on a job -/

namespace Job

variable {j k : Job} {p : Prop}

theorem edge_perform (j : Job) (action : Action) :
    JobStatus.Edge (action = .start) j.state.status (j.perform action).state.status := by
  cases action with
  | start => exact j.state.edge_start rfl
  | stop => exact j.state.edge_stop
  | close => exact .close _
  | setTimes | clearTimes | run => exact .stay _

theorem edge_beginRun {f : Frame} {now : Instant} (h : j.beginRun now = some (f, k)) :
    JobStatus.Edge p j.state.status k.state.status := by
  unfold beginRun at h
  split at h
  · cases h
  · next last s hclaim =>
    have hs : j.state.status = (s.markStart now).status :=
      congrArg (fun c : RunClaim × JobState => c.2.status) hclaim
    cases h
    rw [hs]
    exact JobState.edge_enter _

/-- A call that ends leaves the job closed, or the job is left by a callback. -/
theorem edge_endRun (j : Job) (f : Frame) (now : Instant) :
    JobStatus.Edge p j.state.status (j.endRun f now).1.state.status := by
  have hleave (s : JobState) (hs : s.status = j.state.status) :
      JobStatus.Edge p j.state.status (s.markOver now ⟨0⟩).leave.status :=
    hs ▸ JobState.edge_leave (s.markOver now ⟨0⟩)
  by_cases hclosed : (j.endRun f now).1.isClosed = true
  · rw [(JobState.isClosed_iff _).mp hclosed]
    exact .close _
  · rw [isClosed_endRun, Bool.or_eq_true, Bool.or_eq_true, not_or, not_or] at hclosed
    obtain ⟨⟨-, hexit⟩, hlast⟩ := hclosed
    unfold endRun closeIf
    dsimp only
    rw [if_neg hlast]
    refine hleave _ ?_
    cases hout : f.outcome with
    | exit => exact absurd (by rw [hout]; rfl) hexit
    | proceed | fail | panic => rfl

end Job

namespace Execution

variable {p : Prop}

theorem edge_begin (x : Execution) (j : Job) :
    JobStatus.Edge p j.state.status (x.begin j).1.state.status := by
  unfold begin
  split
  · exact .stay _
  · next h => exact Job.edge_beginRun h

theorem edge_proceed (x : Execution) (j : Job) :
    JobStatus.Edge (x.nextEvent j = .acted .start) j.state.status
      (x.proceed j 1).1.state.status := by
  unfold nextEvent proceed step?
  cases hframes : x.frames with
  | nil => exact .stay _
  | cons f rest =>
    dsimp only
    cases hactions : f.actions with
    | nil =>
      dsimp only
      cases hgated : f.gated with
      | true => exact .stay _
      | false => exact Job.edge_endRun j f x.clock
    | cons action actions =>
      cases action with
      | run => exact edge_begin _ j
      | _ => exact (j.edge_perform _).mono (congrArg CallEvent.acted)

end Execution

/-- One step of those who run a job or treat it. -/
theorem Calls.Step.edge {c d : Calls} {e : CallEvent} (h : Step c e d) :
    JobStatus.Edge (e = .acted .start) c.job.state.status d.job.state.status := by
  cases h with
  | begin now => exact Execution.edge_begin _ _
  | move before x after now running =>
    exact Execution.edge_proceed { x with clock := now, log := [] } c.job
  | release => exact .stay _
  | finish before x after running done k tends =>
    rw [tends.state]
    exact .stay _
  | act action => exact (c.job.edge_perform action).mono (congrArg CallEvent.acted)
  | cap limit => exact .stay _
  | tend k tends =>
    rw [tends.state]
    exact .stay _

/-! ### Single accesses -/

namespace Traffic

variable {s t : Traffic} {e : Event} {es : List Event}

/-- A single access to the status. -/
theorem Step.edge (h : Step s e t) :
    JobStatus.Edge (e = .started) s.state.status t.state.status := by
  cases h with
  | count | uncount | check => exact .stay _
  | enter | restore => exact JobState.edge_transition .begin s.state
  | rest => exact JobState.edge_transition .rest s.state
  | start => exact JobState.edge_transition (.start rfl rfl) s.state
  | stop => exact s.state.edge_stop
  | close => exact .close _

/-- No access opens a closed job, whatever the threads were in the middle of. -/
theorem Run.isClosed (h : Run s es t) (hs : s.state.isClosed = true) : t.state.isClosed = true := by
  refine h.preserves (P := fun s => s.state.isClosed = true) (fun hstep hs => ?_) hs
  have hedge := hstep.edge
  rw [(JobState.isClosed_iff _).mp hs] at hedge
  exact (JobState.isClosed_iff _).mpr hedge.closed

end Traffic

/-! ### A job of a roster -/

/-- A job of a roster with the threads that run it. -/
structure Lifetime where
  roster : Roster
  id : JobId
  threads : List Execution := []
  known : id < roster.jobs.size

namespace Lifetime

/-- The job. -/
def job : Lifetime → Job
  | ⟨roster, id, _, _⟩ => roster.jobs[id]

/-- The job and its threads after an operation. The roster raises its flag if the job was closed. -/
def become (s : Lifetime) (c : Calls) : Lifetime where
  roster := s.roster.update s.id fun _ => c.job
  id := s.id
  threads := c.threads
  known := by
    rw [Roster.size_update]
    exact s.known

/-- What is seen of an operation. -/
inductive Event
  /-- A thread that runs the job has taken a step, or someone has treated the job. -/
  | called (e : CallEvent)
  /-- The answer to those who start the job. -/
  | started (changed : Bool)
  /-- The answer to those who stop the job. -/
  | stopped (changed : Bool)
  | entered
  | left
deriving DecidableEq

/-- Whether the job is started. -/
def Event.starts : Event → Bool
  | .called e => e == .acted .start
  | .started _ => true
  | _ => false

/-- Whether the job is closed. -/
def Event.closes : Event → Bool
  | .called e => e.closes
  | _ => false

/-- An operation on the job. Threads may be in the middle of any number of runs. -/
inductive Step : Lifetime → Event → Lifetime → Prop
  /-- A thread that runs the job goes on, or someone treats the job and does not ask for an
  answer. -/
  | call (s : Lifetime) {e : CallEvent} {c : Calls} (h : Calls.Step ⟨s.job, s.threads⟩ e c) :
      Step s (.called e) (s.become c)
  /-- Someone starts the job. -/
  | start (s : Lifetime) : Step s (.started s.job.start.1) (s.become ⟨s.job.start.2, s.threads⟩)
  /-- Someone stops the job. -/
  | stop (s : Lifetime) : Step s (.stopped s.job.stop.1) (s.become ⟨s.job.stop.2, s.threads⟩)
  /-- A callback begins. -/
  | enter (s : Lifetime) : Step s .entered (s.become ⟨s.job.withState .enter, s.threads⟩)
  /-- A callback ends. -/
  | leave (s : Lifetime) : Step s .left (s.become ⟨s.job.withState .leave, s.threads⟩)

/-- A sequence of operations. -/
abbrev Run : Lifetime → List Event → Lifetime → Prop := Course Step

variable {s t u : Lifetime} {e : Event} {es : List Event}

theorem get?_id (s : Lifetime) : s.roster.get? s.id = some s.job :=
  Array.getElem?_eq_some_iff.mpr ⟨s.known, rfl⟩

theorem job_become (s : Lifetime) (c : Calls) : (s.become c).job = c.job := by
  have hget := (s.become c).get?_id
  rw [become, Roster.get?_update, if_pos rfl, get?_id, Option.map_some] at hget
  exact (Option.some.inj hget).symm

theorem reap_become (s : Lifetime) (c : Calls) :
    (s.become c).roster.reap = (s.roster.reap || (!s.job.isClosed && c.job.isClosed)) := by
  rw [become, Roster.reap_update, get?_id, Option.any_some]

/-- Nothing has happened to a job that is what it was. -/
theorem become_self (s : Lifetime) : s.become ⟨s.job, s.threads⟩ = s := by
  obtain ⟨roster, id, threads, known⟩ := s
  simp only [become, mk.injEq, and_true]
  exact Roster.update_self (get?_id ⟨roster, id, threads, known⟩) rfl

/-- The roster treats its job in the same way. -/
theorem updateWith_eq {α : Type} (s : Lifetime) (f : Job → α × Job) :
    s.roster.updateWith s.id f =
      (some (f s.job).1, (s.become ⟨(f s.job).2, s.threads⟩).roster) := by
  rw [Roster.updateWith_of_get? s.get?_id]
  exact congrArg (Prod.mk _) (Roster.update_congr s.get?_id rfl)

/-! ### One operation -/

/-- The changes of status in one operation. -/
theorem Step.edge (h : Step s e t) :
    JobStatus.Edge (e.starts = true) s.job.state.status t.job.state.status := by
  cases h with
  | call h =>
    rw [job_become]
    exact h.edge.mono beq_iff_eq.mpr
  | start =>
    rw [job_become]
    exact s.job.state.edge_start rfl
  | stop =>
    rw [job_become]
    exact s.job.state.edge_stop
  | enter =>
    rw [job_become]
    exact s.job.state.edge_enter
  | leave =>
    rw [job_become]
    exact s.job.state.edge_leave

/-- An operation closes the job if it asks for that, and nothing opens it again. -/
theorem Step.isClosed (h : Step s e t) : t.job.isClosed = (s.job.isClosed || e.closes) := by
  cases h with
  | call h =>
    rw [job_become]
    exact h.tells.closed
  | start =>
    rw [job_become]
    exact s.job.state.isClosed_start.trans (Bool.or_false _).symm
  | stop =>
    rw [job_become]
    exact s.job.state.isClosed_stop.trans (Bool.or_false _).symm
  | enter =>
    rw [job_become]
    exact s.job.state.isClosed_enter.trans (Bool.or_false _).symm
  | leave =>
    rw [job_become]
    exact s.job.state.isClosed_leave.trans (Bool.or_false _).symm

/-- The flag is raised in the step in which the job is closed. -/
theorem Step.reap (h : Step s e t) :
    t.roster.reap = (s.roster.reap || (!s.job.isClosed && t.job.isClosed)) := by
  cases h <;> rw [reap_become, job_become]

/-- The answers say whether the status has changed, and a closed job is left alone. -/
theorem Step.answer {changed : Bool} (h : Step s e t)
    (he : e = .started changed ∨ e = .stopped changed) :
    (changed = true ↔ t.job.state.status ≠ s.job.state.status) ∧
      (s.job.isClosed = true → changed = false ∧ t = s) := by
  have hstatus (hclosed : s.job.isClosed = true) : s.job.state.status = .closed :=
    (JobState.isClosed_iff _).mp hclosed
  cases h with
  | start =>
    obtain rfl : s.job.start.1 = changed := by simpa using he
    refine ⟨?_, fun hclosed => ?_⟩
    · rw [job_become]
      exact s.job.state.start_fst
    · have hsame : s.job.start = (false, s.job) := by
        rw [Job.start, JobState.start_of_not_stopped (by rw [hstatus hclosed]; decide)]
      rw [hsame]
      exact ⟨rfl, s.become_self⟩
  | stop =>
    obtain rfl : s.job.stop.1 = changed := by simpa using he
    refine ⟨?_, fun hclosed => ?_⟩
    · rw [job_become]
      exact s.job.state.stop_fst
    · have hsame : s.job.stop = (false, s.job) := by
        rw [Job.stop, JobState.stop_of_halted (by rw [hstatus hclosed]; rfl)]
      rw [hsame]
      exact ⟨rfl, s.become_self⟩
  | call | enter | leave => simp at he

/-! ### A life -/

/-- Closed is closed. -/
theorem Run.isClosed (h : Run s es t) (hs : s.job.isClosed = true) : t.job.isClosed = true := by
  refine h.preserves (P := fun s => s.job.isClosed = true) (fun hstep hs => ?_) hs
  rw [hstep.isClosed, hs, Bool.true_or]

/-- The flag goes up when the job is closed, and stays up. -/
theorem Run.reap (h : Run s es t) (hs : s.job.isClosed = false) (ht : t.job.isClosed = true) :
    t.roster.reap = true := by
  induction h with
  | refl => rw [hs] at ht; cases ht
  | @snoc t u _ _ hrun hstep ih =>
    rw [hstep.reap, ht]
    cases hclosed : t.job.isClosed with
    | true => rw [ih hclosed, Bool.true_or]
    | false => exact Bool.or_true _

/-- Whatever has happened to a job, its status changes along the edges only, and it is started by
those alone who start it. Once it is closed it stays closed. Those who start or stop it are told
whether the status has changed, and change nothing at all if the job is closed. The flag is up when
a job that was open is closed. -/
theorem Run.lifecycle (h : Run s es t) :
    (∀ e u, Step t e u →
      JobStatus.Edge (e.starts = true) t.job.state.status u.job.state.status ∧
      u.job.isClosed = (t.job.isClosed || e.closes)) ∧
    (s.job.isClosed = true → t.job.isClosed = true) ∧
    (∀ e u changed, Step t e u → e = .started changed ∨ e = .stopped changed →
      (changed = true ↔ u.job.state.status ≠ t.job.state.status) ∧
      (t.job.isClosed = true → changed = false ∧ u = t)) ∧
    (s.job.isClosed = false → t.job.isClosed = true → t.roster.reap = true) :=
  ⟨fun _ _ hstep => ⟨hstep.edge, hstep.isClosed⟩, Run.isClosed h,
    fun _ _ _ hstep he => hstep.answer he, Run.reap h⟩

/-- A stopped job with a single run left. -/
def resting : Lifetime where
  roster := { jobs := #[{ (default : Job) with state := .new false (some 1) .stopped }] }
  id := 0
  known := Nat.zero_lt_one

/-- A thread that has begun this run. -/
def busy : Execution := (Execution.begin { clock := ⟨0⟩ } resting.job).2

/-- The job with this thread. It is stopped all the same. -/
def begun : Lifetime := resting.become ⟨(Execution.begin { clock := ⟨0⟩ } resting.job).1, [busy]⟩

/-- The job after it was started. -/
def woken : Lifetime := begun.become ⟨begun.job.start.2, begun.threads⟩

/-- The job after it was closed. -/
def shut : Lifetime := woken.become ⟨woken.job.perform .close, woken.threads⟩

theorem run_shut : Run resting
    [.called (.claimed (.granted true)), .started true, .called (.acted .close)] shut := by
  have hbegin : Step resting (.called (.claimed (.granted true))) begun := .call _ (.begin _ ⟨0⟩)
  have hstart : Step begun (.started true) woken := .start begun
  have hclose : Step woken (.called (.acted .close)) shut := .call _ (.act _ .close)
  exact ((Course.single hbegin).snoc hstart).snoc hclose

/-- The last run ends after the job was closed, and does not open it. -/
theorem run_resting : ∃ es t, Run resting (es ++ [.called (.ended true .proceed)]) t ∧
    t.job.isClosed = true := by
  have hend := Step.call shut (.move ⟨shut.job, shut.threads⟩ [] busy [] ⟨1⟩ rfl)
  exact ⟨_, _, run_shut.snoc hend, rfl⟩

/-- The job was open, is closed by now, and cannot be started any more. -/
theorem lifecycle_resting : ∃ es t, Run resting es t ∧ resting.job.isClosed = false ∧
    t.job.isClosed = true ∧ t.roster.reap = true ∧ .called (.ended true .proceed) ∈ es ∧
    ∀ u changed, Step t (.started changed) u → changed = false ∧ u = t := by
  obtain ⟨es, t, hrun, hclosed⟩ := run_resting
  obtain ⟨-, -, hanswer, hreap⟩ := Run.lifecycle hrun
  exact ⟨_, t, hrun, rfl, hclosed, hreap rfl hclosed,
    List.mem_append_right _ List.mem_cons_self,
    fun u changed hstep => (hanswer _ u changed hstep (Or.inl rfl)).2 hclosed⟩

end Lifetime

end Metronome
