import Metronome.Proofs.Course
import Metronome.Proofs.Job.Keeps

/-!
# Calls of a job

A job may be run by any number of threads at a time, and a callback may run its own job once more.
Meanwhile anyone may start, stop or close the job or change its budget, and those who schedule it
count its triggers. A step is what one of them does to the job; between any two steps of a thread
the others may take any number of theirs.

The budget of a job is moved by three of these steps only: by the claim of a run, by those who set
it, and by those who lower it. So it is known from what is seen of the steps.

## Main definitions

* `CallEvent` — what is seen of a step
* `CallEvent.Tells` — what an event tells of the step in which it is seen
* `Job.Tends` — a change of a job that has nothing to do with its calls
* `Calls`, `Calls.Step`, `Calls.Run` — the threads that run a job, one step, and any interleaving
* `Calls.Lasting` — the run that has spent the budget is in progress

## Main results

* `Execution.tells_begin`, `Execution.tells_proceed` — what the steps of a thread tell
* `Calls.Step.tells` — what any step tells: of the budget, of the number of runs, and of the end of
  the run that has spent the budget
-/

namespace Metronome

/-- What is seen of a job when a step is taken. -/
inductive CallEvent
  /-- A run has asked for a unit of the budget. -/
  | claimed (claim : RunClaim)
  /-- A call has ended; `last` says whether its run had spent the budget. -/
  | ended (last : Bool) (outcome : Outcome)
  /-- Someone has treated the job. -/
  | acted (action : Action)
  /-- The budget was lowered to a limit. -/
  | capped (limit : Nat)
  | quiet
deriving DecidableEq

/-- What is known of a call when it begins: whether its run has spent the budget. -/
def CallEvent.grant? : CallEvent → Option Bool
  | .claimed (.granted last) => some last
  | _ => none

/-- The calls that were made, in order. -/
def CallEvent.grants (es : List CallEvent) : List Bool := es.filterMap grant?

/-- Whether the event sets the budget. -/
def CallEvent.sets : CallEvent → Bool
  | .acted (.setTimes _) | .acted .clearTimes => true
  | _ => false

/-- What an event leaves of a budget. -/
def CallEvent.budget (b : Budget) : CallEvent → Budget
  | .claimed _ => b.claim.2
  | .acted (.setTimes n) => .ofTimes (some n)
  | .acted .clearTimes => .ofTimes none
  | .capped limit => b.cap limit
  | _ => b

/-- Whether the event closes the job. -/
def CallEvent.closes : CallEvent → Bool
  | .acted action => action == .close
  | .ended last outcome => outcome == .exit || last
  | _ => false

/-- What an event tells of the step that takes one job to another. The two propositions say whether
the run that has spent the budget is in progress before the step and after it. -/
structure CallEvent.Tells (e : CallEvent) (j : Job) (lasting : Prop) (k : Job) (lasting' : Prop) :
    Prop where
  claim : ∀ claim, e = .claimed claim → claim = j.state.budget.claim.1
  budget : k.state.budget = e.budget j.state.budget
  runs : k.state.runs = j.state.runs + (grants [e]).length
  closed : k.isClosed = (j.isClosed || e.closes)
  spent : e = .claimed (.granted true) → lasting'
  ended : ∀ outcome, e = .ended true outcome → lasting
  lasts : lasting → lasting' ∨ e.closes = true
  origin : lasting' → lasting ∨ e = .claimed (.granted true)

/-- An event that does not set the budget is a claim, or lowers it, or has nothing to do with it. -/
theorem CallEvent.cases_of_not_sets {e : CallEvent} (h : e.sets = false) :
    (∃ claim, e = .claimed claim) ∨ (∃ limit, e = .capped limit) ∨
      (∀ claim, e ≠ .claimed claim) ∧ grants [e] = [] ∧ ∀ b, e.budget b = b := by
  cases e with
  | claimed claim => exact Or.inl ⟨claim, rfl⟩
  | capped limit => exact Or.inr (Or.inl ⟨limit, rfl⟩)
  | acted action =>
    cases action with
    | setTimes | clearTimes => cases h
    | _ => exact Or.inr (Or.inr ⟨nofun, rfl, fun _ => rfl⟩)
  | ended | quiet => exact Or.inr (Or.inr ⟨nofun, rfl, fun _ => rfl⟩)

theorem CallEvent.grants_append (es fs : List CallEvent) :
    grants (es ++ fs) = grants es ++ grants fs := List.filterMap_append

/-! ### What treats budget and runs alike -/

/-- A change of the run state that leaves budget and number of runs alone. -/
structure JobState.Bides (s t : JobState) : Prop where
  budget : t.budget = s.budget
  runs : t.runs = s.runs

namespace JobState

variable {s t u : JobState}

theorem Bides.refl (s : JobState) : s.Bides s := ⟨rfl, rfl⟩

theorem Bides.trans (h : s.Bides t) (h' : t.Bides u) : s.Bides u :=
  ⟨h'.budget.trans h.budget, h'.runs.trans h.runs⟩

theorem bides_transition (s : JobState) (src dst : JobStatus) :
    s.Bides (s.transition src dst).2 := by
  unfold transition
  split
  · exact ⟨rfl, rfl⟩
  · exact .refl s

theorem bides_showRunning (s : JobState) : s.Bides s.showRunning := by
  unfold showRunning
  split
  · exact s.bides_transition _ _
  · exact .refl s

theorem bides_start (s : JobState) : s.Bides s.start.2 := by
  have hready := s.bides_transition .stopped .ready
  unfold start
  split
  · next t h =>
    rw [h] at hready
    exact hready.trans t.bides_showRunning
  · next t h =>
    rw [h] at hready
    exact hready

theorem bides_stop (s : JobState) : s.Bides s.stop.2 := by
  unfold stop
  split <;> exact ⟨rfl, rfl⟩

theorem bides_enter (s : JobState) : s.Bides s.enter := by
  have hadd : s.Bides (s.addExecuting 1) := ⟨rfl, rfl⟩
  exact hadd.trans (bides_transition _ _ _)

theorem bides_leave (s : JobState) : s.Bides s.leave := by
  have hafter : s.Bides (s.addExecuting (-1)) := ⟨rfl, rfl⟩
  unfold leave
  split
  · exact hafter.trans ((bides_transition _ _ _).trans (bides_showRunning _))
  · exact hafter

/-! ### What opens and closes -/

/-- Only a change to the last status closes a job. -/
theorem isClosed_transition (s : JobState) {src dst : JobStatus} (hsrc : src ≠ .closed)
    (hdst : dst ≠ .closed) : (s.transition src dst).2.isClosed = s.isClosed := by
  unfold transition
  split
  · next h =>
    rw [isClosed, isClosed, h]
    exact (beq_false_of_ne hdst).trans (beq_false_of_ne hsrc).symm
  · rfl

theorem isClosed_showRunning (s : JobState) : s.showRunning.isClosed = s.isClosed := by
  unfold showRunning
  split
  · exact s.isClosed_transition (by decide) (by decide)
  · rfl

theorem isClosed_start (s : JobState) : s.start.2.isClosed = s.isClosed := by
  have hready : (s.transition .stopped .ready).2.isClosed = s.isClosed :=
    s.isClosed_transition (by decide) (by decide)
  unfold start
  split
  · next t h =>
    rw [h] at hready
    exact t.isClosed_showRunning.trans hready
  · next t h =>
    rw [h] at hready
    exact hready

theorem isClosed_stop (s : JobState) : s.stop.2.isClosed = s.isClosed := by
  unfold stop
  split
  · rfl
  · rfl
  · next h => rw [isClosed, isClosed, h]; rfl
  · next h => rw [isClosed, isClosed, h]; rfl

theorem isClosed_leave (s : JobState) : s.leave.isClosed = s.isClosed := by
  unfold leave
  split
  · rw [isClosed_showRunning, isClosed_transition _ (by decide) (by decide)]
    rfl
  · rfl

end JobState

theorem JobOptions.status_cases (o : JobOptions) : o.status = .ready ∨ o.status = .stopped := by
  unfold status
  split
  · exact Or.inr rfl
  · exact Or.inl rfl

namespace Job

variable {j k l : Job}

/-! ### Jobs and their runs -/

/-- The state of a job that has just been created. -/
theorem state_create {o : JobOptions} {a : Anchor} {j : Job} (h : Job.create o a = .ok j) :
    j.state = .new o.singleton o.times o.status := by
  unfold create at h
  split at h
  · cases h
  · unfold ofOptions at h
    split at h
    · cases h
    · cases h
      rfl

/-- No job is closed from the start. -/
theorem isClosed_create {o : JobOptions} {a : Anchor} {j : Job} (h : Job.create o a = .ok j) :
    j.isClosed = false := by
  rw [isClosed, state_create h, JobState.new, JobState.isClosed]
  obtain hready | hstopped := o.status_cases
  · rw [hready]
    rfl
  · rw [hstopped]
    rfl

/-- A change that those make who schedule a job: its schedule, the counters of the runner and the
errors, none of which has to do with its calls. -/
structure Tends (j k : Job) : Prop where
  callback : k.callback = j.callback
  state : k.state =
    { j.state with
      pending := k.state.pending
      running := k.state.running
      errors := k.state.errors }

theorem Tends.refl (j : Job) : j.Tends j := ⟨rfl, rfl⟩

theorem Tends.trans (h : j.Tends k) (h' : k.Tends l) : j.Tends l :=
  ⟨h'.callback.trans h.callback, h'.state.trans (by rw [h.state])⟩

theorem Tends.bides (h : j.Tends k) : j.state.Bides k.state :=
  ⟨by rw [h.state], by rw [h.state]⟩

theorem Tends.isClosed (h : j.Tends k) : k.isClosed = j.isClosed := by
  rw [Job.isClosed, h.state]
  rfl

theorem bides_settle (j : Job) (outcome : Outcome) (now : Instant) :
    j.state.Bides (j.settle outcome now).1.state := by
  cases outcome <;> exact ⟨rfl, rfl⟩

theorem bides_closeIf (j : Job) (flag : Bool) : j.state.Bides (j.closeIf flag).state := by
  cases flag <;> exact ⟨rfl, rfl⟩

/-- The end of a run, however it comes out. -/
theorem bides_endRun (j : Job) (f : Frame) (now : Instant) :
    j.state.Bides (j.endRun f now).1.state := by
  have hover (k : Job) :
      k.state.Bides (k.withState fun s => (s.markOver now ⟨0⟩).leave).state := by
    have hmark : k.state.Bides (k.state.markOver now ⟨0⟩) := ⟨rfl, rfl⟩
    exact hmark.trans (JobState.bides_leave _)
  exact (bides_settle j f.outcome now).trans ((hover _).trans (bides_closeIf _ f.last))

theorem isClosed_settle (j : Job) (outcome : Outcome) (now : Instant) :
    (j.settle outcome now).1.isClosed = (j.isClosed || outcome == .exit) := by
  cases outcome with
  | exit => exact (Bool.or_true _).symm
  | proceed | fail | panic => exact (Bool.or_false _).symm

theorem isClosed_closeIf (j : Job) (flag : Bool) :
    (j.closeIf flag).isClosed = (j.isClosed || flag) := by
  cases flag with
  | true => exact (Bool.or_true _).symm
  | false => exact (Bool.or_false _).symm

/-- The end of a run closes the job if it asks for that or has spent the budget. -/
theorem isClosed_endRun (j : Job) (f : Frame) (now : Instant) :
    (j.endRun f now).1.isClosed = (j.isClosed || f.outcome == .exit || f.last) := by
  have hover (k : Job) :
      (k.withState fun s => (s.markOver now ⟨0⟩).leave).isClosed = k.isClosed :=
    (JobState.isClosed_leave _).trans rfl
  unfold endRun
  dsimp only
  rw [isClosed_closeIf, hover, isClosed_settle]

/-- A run begins with a unit of the budget, and does not begin without one. -/
theorem beginRun_cases (j : Job) (now : Instant) :
    (∃ last f k, j.state.claim.1 = .granted last ∧ j.beginRun now = some (f, k) ∧ f.last = last ∧
        k.state.budget = j.state.budget.claim.2 ∧ k.state.runs = j.state.runs + 1) ∨
      j.state.claim.1 = .exhausted ∧ j.beginRun now = none := by
  have hstate : j.state.claim =
      (j.state.budget.claim.1, { j.state with budget := j.state.budget.claim.2 }) := rfl
  unfold beginRun
  rw [hstate]
  cases j.state.budget.claim.1 with
  | granted last =>
    refine Or.inl ⟨last, _, _, rfl, rfl, rfl, ?_, ?_⟩
    · exact (JobState.bides_enter _).budget
    · exact (JobState.bides_enter _).runs
  | exhausted => exact Or.inr ⟨rfl, rfl⟩

/-- An action moves the budget only if it sets it. -/
theorem budget_perform (j : Job) (action : Action) :
    (j.perform action).state.budget = (CallEvent.acted action).budget j.state.budget ∧
      (j.perform action).state.runs = j.state.runs := by
  cases action with
  | start => exact ⟨j.state.bides_start.budget, j.state.bides_start.runs⟩
  | stop => exact ⟨j.state.bides_stop.budget, j.state.bides_stop.runs⟩
  | close | setTimes | clearTimes | run => exact ⟨rfl, rfl⟩

theorem isClosed_perform (j : Job) (action : Action) :
    (j.perform action).isClosed = (j.isClosed || action == .close) := by
  cases action with
  | start => exact j.state.isClosed_start.trans (Bool.or_false _).symm
  | stop => exact j.state.isClosed_stop.trans (Bool.or_false _).symm
  | close => exact (Bool.or_true _).symm
  | setTimes | clearTimes | run => exact (Bool.or_false _).symm

end Job

/-! ### One step of a thread -/

namespace Job

theorem tells_quiet (j : Job) (lasting : Prop) : CallEvent.quiet.Tells j lasting j lasting :=
  ⟨nofun, rfl, rfl, (Bool.or_false _).symm, nofun, nofun, Or.inl, Or.inl⟩

theorem Tends.tells {j k : Job} (h : j.Tends k) (lasting : Prop) :
    CallEvent.quiet.Tells j lasting k lasting :=
  ⟨nofun, h.bides.budget, h.bides.runs, h.isClosed.trans (Bool.or_false _).symm, nofun, nofun,
    Or.inl, Or.inl⟩

theorem tells_cap (j : Job) (limit : Nat) (lasting : Prop) :
    (CallEvent.capped limit).Tells j lasting (j.withState (·.capRuns limit)) lasting :=
  ⟨nofun, rfl, rfl, (Bool.or_false _).symm, nofun, nofun, Or.inl, Or.inl⟩

theorem tells_perform (j : Job) (action : Action) (lasting : Prop) :
    (CallEvent.acted action).Tells j lasting (j.perform action) lasting :=
  ⟨nofun, (j.budget_perform action).1, (j.budget_perform action).2, j.isClosed_perform action,
    nofun, nofun, Or.inl, Or.inl⟩

end Job

namespace Execution

/-- What is seen of the next step of a thread. -/
def nextEvent (x : Execution) (j : Job) : CallEvent :=
  match x.frames with
  | [] => .quiet
  | f :: _ =>
    match f.actions with
    | .run :: _ => .claimed j.state.budget.claim.1
    | action :: _ => .acted action
    | [] => if f.gated then .quiet else .ended f.last f.outcome

theorem nextEvent_ne_capped (x : Execution) (j : Job) (limit : Nat) :
    x.nextEvent j ≠ .capped limit := by
  unfold nextEvent
  split
  · nofun
  · split
    · nofun
    · nofun
    · split <;> nofun

/-- The run that has spent the budget is in progress on the thread. -/
def Lasting (x : Execution) : Prop := ∃ f ∈ x.frames, f.last = true

theorem lasting_release (x : Execution) : x.release.Lasting ↔ x.Lasting := by
  unfold release
  split
  · exact Iff.rfl
  · next f rest hframes => simp only [Lasting, hframes, List.mem_cons, exists_eq_or_imp]

theorem tells_begin (x : Execution) (j : Job) :
    (CallEvent.claimed j.state.budget.claim.1).Tells j x.Lasting (x.begin j).1
      (x.begin j).2.Lasting := by
  have hclosed : (x.begin j).1.isClosed = (j.isClosed || false) :=
    (keeps_begin x j).2.trans (Bool.or_false _).symm
  obtain ⟨last, f, k, hclaim, hbegin, hlast, hbudget, hruns⟩ | ⟨hclaim, hbegin⟩ :=
    j.beginRun_cases x.clock
  · have hafter : x.begin j = (k, { x with
        clock := x.clock.next
        frames := f :: x.frames
        log := x.log ++ [⟨f.number, k.state.status, k.state.executing⟩] }) := by
      rw [begin, hbegin]
    rw [hafter] at hclosed ⊢
    have hclaim' : j.state.budget.claim.1 = .granted last := hclaim
    refine ⟨fun _ h => (CallEvent.claimed.inj h).symm, hbudget, ?_, hclosed, fun h => ?_, nofun,
      ?_, ?_⟩
    · rw [hclaim']
      exact hruns
    · obtain rfl : last = true := by
        rw [hclaim'] at h
        simpa using h
      exact ⟨f, List.mem_cons_self, hlast⟩
    · exact fun ⟨g, hg, hglast⟩ => Or.inl ⟨g, List.mem_cons_of_mem _ hg, hglast⟩
    · rintro ⟨g, hg, hglast⟩
      obtain rfl | hmem := List.mem_cons.mp hg
      · right
        rw [hclaim', ← hlast, hglast]
      · exact Or.inl ⟨g, hmem, hglast⟩
  · have hafter : x.begin j = (j, x) := by rw [begin, hbegin]
    have hclaim' : j.state.budget.claim.1 = .exhausted := hclaim
    have hspent : j.state.budget.claim.2 = j.state.budget := by
      unfold Budget.claim at hclaim' ⊢
      split at hclaim' <;> first | rfl | cases hclaim'
    rw [hafter] at hclosed ⊢
    refine ⟨fun _ h => (CallEvent.claimed.inj h).symm, hspent.symm, ?_, hclosed, fun h => ?_,
      nofun, Or.inl, Or.inl⟩
    · rw [hclaim']
      rfl
    · rw [hclaim'] at h
      cases h

/-- What a step of a thread tells. -/
theorem tells_proceed (x : Execution) (j : Job) :
    (x.nextEvent j).Tells j x.Lasting (x.proceed j 1).1 (x.proceed j 1).2.Lasting := by
  unfold proceed nextEvent step?
  cases hframes : x.frames with
  | nil => exact j.tells_quiet _
  | cons f rest =>
    have hlasting (fs : List Action) :
        x.Lasting ↔ Lasting { x with frames := { f with actions := fs } :: rest } := by
      simp only [Lasting, hframes, List.mem_cons, exists_eq_or_imp]
    dsimp only
    cases hactions : f.actions with
    | nil =>
      dsimp only
      split
      · exact j.tells_quiet _
      · -- the innermost frame is gone, and what it knew has closed the job
        have hbides := j.bides_endRun f x.clock
        refine ⟨fun _ h => (by cases h), hbides.budget, hbides.runs, ?_, fun h => (by cases h), ?_,
          ?_, ?_⟩
        · exact (j.isClosed_endRun f x.clock).trans (Bool.or_assoc _ _ _)
        · exact fun outcome h => ⟨f, hframes ▸ List.mem_cons_self, (CallEvent.ended.inj h).1⟩
        · rintro ⟨g, hg, hlast⟩
          rw [hframes] at hg
          obtain rfl | hmem := List.mem_cons.mp hg
          · exact Or.inr (by rw [CallEvent.closes, hlast, Bool.or_true])
          · exact Or.inl ⟨g, hmem, hlast⟩
        · rintro ⟨g, hg, hlast⟩
          exact Or.inl ⟨g, hframes ▸ List.mem_cons_of_mem _ hg, hlast⟩
    | cons action actions =>
      rw [hlasting actions]
      cases action with
      | run => exact tells_begin _ j
      | _ => exact j.tells_perform _ _

end Execution

/-! ### Any number of threads -/

/-- A job with the threads that run it. -/
structure Calls where
  job : Job
  threads : List Execution := []

namespace Calls

/-- The run that has spent the budget is in progress. -/
def Lasting (c : Calls) : Prop := ∃ x ∈ c.threads, x.Lasting

/-- What one thread does to the job without being interrupted, and what is seen of it. -/
inductive Step : Calls → CallEvent → Calls → Prop
  /-- A thread runs the job. -/
  | begin (c : Calls) (now : Instant) :
      Step c (.claimed c.job.state.budget.claim.1)
        { job := (Execution.begin { clock := now } c.job).1
          threads := c.threads ++ [(Execution.begin { clock := now } c.job).2] }
  /-- A thread goes on, at its own time. -/
  | move (c : Calls) (before : List Execution) (x : Execution) (after : List Execution)
      (now : Instant) (running : c.threads = before ++ x :: after) :
      Step c (x.nextEvent c.job)
        { job := ({ x with clock := now, log := [] }.proceed c.job 1).1
          threads := before ++ ({ x with clock := now, log := [] }.proceed c.job 1).2 :: after }
  /-- A call that waits at its gate is let through. -/
  | release (c : Calls) (before : List Execution) (x : Execution) (after : List Execution)
      (running : c.threads = before ++ x :: after) :
      Step c .quiet { c with threads := before ++ x.release :: after }
  /-- A thread on which nothing is in progress turns to something else, and tells those who schedule
  the job. -/
  | finish (c : Calls) (before : List Execution) (x : Execution) (after : List Execution)
      (running : c.threads = before ++ x :: after) (done : x.isOver = true) (k : Job)
      (tends : c.job.Tends k) :
      Step c .quiet { job := k, threads := before ++ after }
  /-- Someone treats the job. -/
  | act (c : Calls) (action : Action) :
      Step c (.acted action) { c with job := c.job.perform action }
  /-- The budget is lowered. -/
  | cap (c : Calls) (limit : Nat) :
      Step c (.capped limit) { c with job := c.job.withState (·.capRuns limit) }
  /-- Those who schedule the job attend to it. -/
  | tend (c : Calls) (k : Job) (tends : c.job.Tends k) : Step c .quiet { c with job := k }

/-- An interleaving of steps. -/
abbrev Run : Calls → List CallEvent → Calls → Prop := Course Step

theorem lasting_mk (j : Job) (before : List Execution) (x : Execution) (after : List Execution) :
    Lasting ⟨j, before ++ x :: after⟩ ↔ x.Lasting ∨ ∃ y ∈ before ++ after, y.Lasting := by
  simp only [Lasting, List.mem_append, List.mem_cons]
  constructor
  · rintro ⟨y, hy | rfl | hy, hlast⟩
    · exact Or.inr ⟨y, Or.inl hy, hlast⟩
    · exact Or.inl hlast
    · exact Or.inr ⟨y, Or.inr hy, hlast⟩
  · rintro (hlast | ⟨y, hy | hy, hlast⟩)
    · exact ⟨x, Or.inr (Or.inl rfl), hlast⟩
    · exact ⟨y, Or.inl hy, hlast⟩
    · exact ⟨y, Or.inr (Or.inr hy), hlast⟩

end Calls

/-- What is in progress elsewhere makes no difference. -/
theorem CallEvent.Tells.or {e : CallEvent} {j k : Job} {lasting lasting' : Prop}
    (h : e.Tells j lasting k lasting') (others : Prop) :
    e.Tells j (lasting ∨ others) k (lasting' ∨ others) where
  claim := h.claim
  budget := h.budget
  runs := h.runs
  closed := h.closed
  spent he := Or.inl (h.spent he)
  ended outcome he := Or.inl (h.ended outcome he)
  lasts := fun
    | .inl hlasting => (h.lasts hlasting).imp_left Or.inl
    | .inr hothers => Or.inl (Or.inr hothers)
  origin := fun
    | .inl hlasting => (h.origin hlasting).imp_left Or.inl
    | .inr hothers => Or.inl (Or.inr hothers)

namespace Calls

variable {c d : Calls} {e : CallEvent}

/-- What a step tells. -/
theorem Step.tells (h : Step c e d) : e.Tells c.job c.Lasting d.job d.Lasting := by
  obtain ⟨job, threads⟩ := c
  cases h with
  | begin now =>
    have hthread := (Execution.tells_begin { clock := now } job).or (∃ x ∈ threads, x.Lasting)
    have hbefore : Execution.Lasting { clock := now } ∨ (∃ x ∈ threads, x.Lasting) ↔
        Lasting ⟨job, threads⟩ :=
      or_iff_right fun ⟨_, hmem, _⟩ => absurd hmem List.not_mem_nil
    rw [hbefore] at hthread
    rwa [lasting_mk, List.append_nil]
  | move before x after now running =>
    obtain rfl : threads = _ := running
    rw [lasting_mk, lasting_mk]
    exact (Execution.tells_proceed { x with clock := now, log := [] } job).or _
  | release before x after running =>
    obtain rfl : threads = _ := running
    rw [lasting_mk, lasting_mk, Execution.lasting_release]
    exact job.tells_quiet _
  | finish before x after running done k tends =>
    obtain rfl : threads = _ := running
    have hover : ¬ x.Lasting := fun ⟨f, hf, _⟩ => by
      rw [List.isEmpty_iff.mp done] at hf
      exact absurd hf List.not_mem_nil
    rw [lasting_mk, or_iff_right hover]
    exact tends.tells _
  | act action => exact job.tells_perform action _
  | cap limit => exact job.tells_cap limit _
  | tend k tends => exact tends.tells _

end Calls

end Metronome
