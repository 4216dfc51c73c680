import Metronome.Proofs.Failure.Occurrences
import Metronome.Proofs.Job.Halted

/-!
# Nested runs of a job

The callback of a job may run its own job once more, and so may the callback within, to any depth.
It may also start, stop or close the job and change its budget, and each call may end well, by an
error or by a panic. On one thread all of this is a sequence of steps, in which the calls in
progress form a stack: a run is what happens from its claim until the stack is as high as before.

The books of a job are kept by two of these steps only: the beginning of a call and its end. So they
agree with what is seen of the steps, whatever the callbacks do in between.

## Main definitions

* `CallEvent.errors`, `CallEvent.successes` — the calls that have ended, by how they came out
* `CallEvent.Books` — what the steps have added to the books of a job
* `JobState.Shown` — the status says whether a callback is executing
* `Thread`, `Thread.Step`, `Thread.Run` — a job on a thread, one step, and a sequence of them
* `Thread.Spans` — one run, with the runs within it

## Main results

* `Thread.Step.books`, `Thread.Step.shown` — one step
* `Thread.Run.balanced` — all steps, and the runs among them
* `Thread.spans_runOnce` — a run at one stroke is one of these runs
-/

namespace Metronome

/-! ### How calls end -/

/-- The error that a call has ended with, a panic included. -/
def Outcome.error? : Outcome → Option TracedError
  | .proceed | .exit => none
  | .fail e => some e
  | .panic p => some (.ofPanic .recovery p)

namespace CallEvent

/-- The error that a call has ended with. -/
def error? : CallEvent → Option TracedError
  | .ended _ outcome => outcome.error?
  | _ => none

/-- Whether a call has ended well. -/
def succeeds : CallEvent → Bool
  | .ended _ outcome => outcome.error?.isNone
  | _ => false

/-- The errors of the calls that have failed, in order. -/
def errors (es : List CallEvent) : List TracedError := es.filterMap error?

/-- The number of calls that have succeeded. -/
def successes (es : List CallEvent) : Nat := es.countP succeeds

/-- Whether a call has ended. -/
def isEnd : CallEvent → Bool
  | .ended _ _ => true
  | _ => false

/-- The number of calls that have ended. -/
def ends (es : List CallEvent) : Nat := es.countP isEnd

/-- A call that has ended has succeeded or failed. -/
theorem ends_eq (es : List CallEvent) : ends es = successes es + (errors es).length := by
  induction es with
  | nil => rfl
  | cons e es ih =>
    unfold ends successes errors at ih ⊢
    rw [List.countP_cons, List.countP_cons, List.filterMap_cons, ih]
    cases e with
    | ended last outcome =>
      cases outcome <;> simp [isEnd, succeeds, error?, Outcome.error?] <;> omega
    | _ => rfl

/-- What the steps in which some events are seen have added to the books of a job. -/
structure Books (s : JobState) (es : List CallEvent) (t : JobState) : Prop where
  runs : t.runs = s.runs + (grants es).length
  successes : t.successes = s.successes + successes es
  failures : t.failures = s.failures + (errors es).length
  executing : t.executing + ends es = s.executing + (grants es).length
  errors : s.errors.Gathers (errors es) t.errors

theorem errors_append (es fs : List CallEvent) : errors (es ++ fs) = errors es ++ errors fs :=
  List.filterMap_append

theorem successes_append (es fs : List CallEvent) :
    successes (es ++ fs) = successes es + successes fs := List.countP_append

theorem ends_append (es fs : List CallEvent) : ends (es ++ fs) = ends es + ends fs :=
  List.countP_append

variable {s t u : JobState} {es fs : List CallEvent}

theorem Books.refl (s : JobState) : Books s [] s :=
  ⟨rfl, rfl, rfl, rfl, .refl _⟩

theorem Books.append (h : Books s es t) (h' : Books t fs u) : Books s (es ++ fs) u := by
  have hexecuting := h.executing
  have hexecuting' := h'.executing
  constructor
  · rw [grants_append, List.length_append, h'.runs, h.runs, Nat.add_assoc]
  · rw [successes_append, h'.successes, h.successes, Nat.add_assoc]
  · rw [errors_append, List.length_append, h'.failures, h.failures, Nat.add_assoc]
  · rw [grants_append, ends_append, List.length_append]
    push_cast
    omega
  · rw [errors_append]
    exact h.errors.append h'.errors

end CallEvent

namespace JobState

variable {s t : JobState}

/-! ### What the steps do to the run state -/

theorem transition_eq (s : JobState) (src dst : JobStatus) :
    (s.transition src dst).2 = { s with status := (s.transition src dst).2.status } := by
  unfold transition
  split <;> rfl

theorem showRunning_eq (s : JobState) :
    s.showRunning = { s with status := s.showRunning.status } := by
  unfold showRunning
  split
  · exact transition_eq _ _ _
  · rfl

theorem start_eq (s : JobState) : s.start.2 = { s with status := s.start.2.status } := by
  unfold start transition
  by_cases h : s.status = .stopped
  · rw [if_pos h]
    exact showRunning_eq _
  · rw [if_neg h]

theorem stop_eq (s : JobState) : s.stop.2 = { s with status := s.stop.2.status } := by
  unfold stop
  split <;> rfl

theorem enter_eq (s : JobState) :
    s.enter = { s with executing := s.executing + 1, status := s.enter.status } :=
  transition_eq _ _ _

theorem leave_eq (s : JobState) :
    s.leave = { s with executing := s.executing - 1, status := s.leave.status } := by
  unfold leave
  dsimp only
  split
  · rw [showRunning_eq, transition_eq]
    rfl
  · rfl

/-! ### The status -/

/-- Unless a job is stopped or closed, its status says whether a callback is executing. -/
def Shown (s : JobState) : Prop :=
  s.status.isHalted = false → s.status = if 0 < s.executing then .running else .ready

theorem shown_of_halted (h : s.status.isHalted = true) : s.Shown :=
  fun hs => absurd (h.symm.trans hs) nofun

theorem shown_iff : s.Shown ↔ s.status.isHalted = true ∨
    s.status = .running ∧ 0 < s.executing ∨ s.status = .ready ∧ s.executing ≤ 0 := by
  unfold Shown
  split
  · next h => cases s.status <;> simp [JobStatus.isHalted, h]
  · next h => cases s.status <;> simp [JobStatus.isHalted] <;> omega

/-- A callback that begins is shown. -/
theorem Shown.enter (h : s.Shown) (hs : 0 ≤ s.executing) : s.enter.Shown := by
  have hpos : 0 < s.executing + 1 := by omega
  obtain hhalted | ⟨hrunning, -⟩ | ⟨hready, -⟩ := shown_iff.mp h
  · rw [enter_of_halted hhalted]
    exact shown_of_halted hhalted
  · refine shown_iff.mpr (Or.inr (Or.inl ?_))
    simp [JobState.enter, transition, addExecuting, hrunning, hpos]
  · refine shown_iff.mpr (Or.inr (Or.inl ?_))
    simp [JobState.enter, transition, addExecuting, hready, hpos]

/-- The callback that ends last takes the job back to ready, and the others leave it running. -/
theorem Shown.leave (h : s.Shown) (hs : 0 < s.executing) : s.leave.Shown := by
  obtain hhalted | ⟨hrunning, -⟩ | ⟨-, hnone⟩ := shown_iff.mp h
  · rw [leave_of_halted hhalted]
    exact shown_of_halted hhalted
  · by_cases hone : s.executing = 1
    · refine shown_iff.mpr (Or.inr (Or.inr ?_))
      simp [JobState.leave, showRunning, transition, addExecuting, hrunning, hone]
    · refine shown_iff.mpr (Or.inr (Or.inl ?_))
      have hmore : 1 < s.executing := by omega
      simp [JobState.leave, addExecuting, hrunning, hone, ← Int.sub_eq_add_neg, hmore]
  · omega

theorem shown_showRunning (h : s.status = .ready) : s.showRunning.Shown := by
  unfold showRunning transition
  rw [if_pos h]
  split
  · next hpos => exact shown_iff.mpr (Or.inr (Or.inl ⟨rfl, hpos⟩))
  · next hnone => exact shown_iff.mpr (Or.inr (Or.inr ⟨h, Int.not_lt.mp hnone⟩))

theorem Shown.start (h : s.Shown) : s.start.2.Shown := by
  unfold JobState.start transition
  by_cases hstopped : s.status = .stopped
  · rw [if_pos hstopped]
    exact shown_showRunning rfl
  · rw [if_neg hstopped]
    exact h

theorem Shown.stop (h : s.Shown) : s.stop.2.Shown := by
  unfold JobState.stop
  split
  · exact h
  · exact h
  · exact shown_of_halted rfl
  · exact shown_of_halted rfl

end JobState

/-! ### What the steps do to a job -/

namespace Job

open CallEvent

variable {j k : Job}

/-- An action is not seen in the books. -/
theorem books_perform (j : Job) (action : Action) :
    Books j.state [.acted action] (j.perform action).state := by
  have hstatus (t : JobState) (ht : t = { j.state with status := t.status, budget := t.budget }) :
      Books j.state [.acted action] t := by
    rw [ht]
    exact ⟨rfl, rfl, rfl, rfl, .refl _⟩
  cases action with
  | start => exact hstatus j.state.start.2 (by rw [JobState.start_eq])
  | stop => exact hstatus j.state.stop.2 (by rw [JobState.stop_eq])
  | close | setTimes | clearTimes | run => exact hstatus _ rfl

theorem shown_perform (h : j.state.Shown) (action : Action) : (j.perform action).state.Shown := by
  cases action with
  | start => exact h.start
  | stop => exact h.stop
  | close => exact JobState.shown_of_halted rfl
  | setTimes | clearTimes | run => exact h

/-- A run without a unit of the budget is not begun, and one with a unit is entered in the books. -/
theorem books_beginRun (j : Job) (now : Instant) :
    (∃ last f k, j.state.budget.claim.1 = .granted last ∧ j.beginRun now = some (f, k) ∧
        Books j.state [.claimed (.granted last)] k.state ∧
        (j.state.Shown → 0 ≤ j.state.executing → k.state.Shown)) ∨
      j.state.budget.claim.1 = .exhausted ∧ j.beginRun now = none := by
  have hstate : j.state.claim =
      (j.state.budget.claim.1, { j.state with budget := j.state.budget.claim.2 }) := rfl
  unfold beginRun
  rw [hstate]
  cases j.state.budget.claim.1 with
  | granted last =>
    refine Or.inl ⟨last, _, _, rfl, rfl, ?_, fun h hs => ?_⟩
    · dsimp only
      rw [JobState.enter_eq]
      exact ⟨rfl, rfl, rfl, Int.add_zero _, .refl _⟩
    · exact JobState.Shown.enter (s := JobState.markStart _ now) h hs
  | exhausted => exact Or.inr ⟨rfl, rfl⟩

/-- The end of a call, apart from its status. -/
theorem state_endRun (j : Job) (f : Frame) (now : Instant) :
    (j.endRun f now).1.state =
      { (j.settle f.outcome now).1.state.markOver now ⟨0⟩ with
        executing := (j.settle f.outcome now).1.state.executing - 1
        status := (j.endRun f now).1.state.status } := by
  unfold endRun closeIf
  dsimp only
  split
  · dsimp only [close, withState, JobState.close, JobState.swap]
    rw [JobState.leave_eq]
    rfl
  · dsimp only [withState]
    rw [JobState.leave_eq]
    rfl

/-- A call is entered in the books when it ends, however it comes out. -/
theorem books_endRun (j : Job) (f : Frame) (now : Instant) :
    Books j.state [.ended f.last f.outcome] (j.endRun f now).1.state := by
  have hcount : j.state.executing - 1 + 1 = j.state.executing + 0 := by omega
  rw [state_endRun]
  cases f.outcome with
  | proceed | exit => exact ⟨rfl, rfl, rfl, hcount, .refl _⟩
  | fail | panic =>
    exact ⟨rfl, rfl, rfl, hcount, .single (ErrorDirectory.gains_record _ _ _)⟩

theorem shown_endRun (h : j.state.Shown) (hs : 0 < j.state.executing) (f : Frame) (now : Instant) :
    (j.endRun f now).1.state.Shown := by
  have hsettle : (j.settle f.outcome now).1.state.Shown ∧
      (j.settle f.outcome now).1.state.executing = j.state.executing := by
    cases f.outcome with
    | exit => exact ⟨JobState.shown_of_halted rfl, rfl⟩
    | proceed | fail | panic => exact ⟨h, rfl⟩
  have hleave : ((j.settle f.outcome now).1.state.markOver now ⟨0⟩).leave.Shown :=
    JobState.Shown.leave hsettle.1 (hsettle.2.symm ▸ hs)
  unfold endRun closeIf
  dsimp only
  split
  · exact JobState.shown_of_halted rfl
  · exact hleave

end Job

/-! ### One step of a thread -/

/-- A step that takes a job with some calls in progress to another one agrees with the books. -/
structure CallEvent.Entered (e : CallEvent) (j : Job) (n : Nat) (k : Job) (m : Nat) : Prop where
  books : Books j.state [e] k.state
  depth : m + ends [e] = n + (grants [e]).length
  shown : j.state.executing = n → j.state.Shown → k.state.Shown
  /-- A run that is refused changes nothing at all. -/
  refused : e = .claimed .exhausted → k = j

namespace Execution

open CallEvent

variable {x y : Execution} {j k : Job}

theorem entered_begin (x : Execution) (j : Job) :
    (CallEvent.claimed j.state.budget.claim.1).Entered j x.frames.length (x.begin j).1
      (x.begin j).2.frames.length := by
  unfold begin
  obtain ⟨last, f, k, hclaim, hbegin, hbooks, hshown⟩ | ⟨hclaim, hbegin⟩ :=
    j.books_beginRun x.clock
  · rw [hbegin, hclaim]
    exact ⟨hbooks, rfl, fun hdepth h => hshown h (hdepth ▸ Int.natCast_nonneg _), nofun⟩
  · rw [hbegin, hclaim]
    exact ⟨⟨rfl, rfl, rfl, rfl, .refl _⟩, rfl, fun _ h => h, fun _ => rfl⟩

theorem entered_step (h : x.step? j = some (k, y)) :
    (x.nextEvent j).Entered j x.frames.length k y.frames.length := by
  unfold step? at h
  unfold nextEvent
  cases hframes : x.frames with
  | nil =>
    rw [hframes] at h
    cases h
  | cons f rest =>
    rw [hframes] at h
    dsimp only at h ⊢
    cases hactions : f.actions with
    | nil =>
      rw [hactions] at h
      dsimp only at h ⊢
      split at h
      · cases h
      · next hgated =>
        cases h
        rw [if_neg hgated]
        refine ⟨j.books_endRun f x.clock, rfl, fun hdepth hshown => ?_, nofun⟩
        exact Job.shown_endRun hshown (by rw [hdepth]; exact Int.natCast_pos.mpr (Nat.succ_pos _))
          f x.clock
    | cons action actions =>
      rw [hactions] at h
      cases action with
      | run =>
        have hbegin := Option.some.inj h
        have hentered := entered_begin
          { x with frames := { f with actions := actions } :: rest } j
        rwa [hbegin] at hentered
      | _ =>
        cases h
        exact ⟨j.books_perform _, rfl, fun _ hshown => Job.shown_perform hshown _, nofun⟩

end Execution

/-! ### A job on one thread -/

/-- A job with the one thread that runs it. -/
structure Thread where
  job : Job
  execution : Execution

namespace Thread

open CallEvent

/-- The number of calls in progress. -/
def depth (s : Thread) : Nat := s.execution.frames.length

/-- What the thread does next, and what is seen of it. -/
inductive Step : Thread → CallEvent → Thread → Prop
  /-- The job is run. -/
  | call (s : Thread) (now : Instant) (idle : s.execution.isOver = true) :
      Step s (.claimed s.job.state.budget.claim.1)
        { job := (Execution.begin { clock := now } s.job).1
          execution := (Execution.begin { clock := now } s.job).2 }
  /-- The innermost call goes on, at its own time. -/
  | move (s : Thread) (now : Instant) {k : Job} {y : Execution}
      (next : Execution.step? { s.execution with clock := now } s.job = some (k, y)) :
      Step s (s.execution.nextEvent s.job) { job := k, execution := y }
  /-- A call that waits at its gate is let through. -/
  | release (s : Thread) : Step s .quiet { s with execution := s.execution.release }
  /-- Between two runs, someone treats the job. -/
  | act (s : Thread) (action : Action) (idle : s.execution.isOver = true) :
      Step s (.acted action) { s with job := s.job.perform action }

/-- A sequence of steps. -/
abbrev Run : Thread → List CallEvent → Thread → Prop := Course Step

variable {s t u : Thread} {e : CallEvent} {es fs : List CallEvent} {d : Nat}

theorem Step.entered (h : Step s e t) : e.Entered s.job s.depth t.job t.depth := by
  cases h with
  | call now idle =>
    have hdepth : s.depth = 0 := List.length_eq_zero_iff.mpr (List.isEmpty_iff.mp idle)
    rw [hdepth]
    exact Execution.entered_begin { clock := now } s.job
  | move now next => exact Execution.entered_step (x := { s.execution with clock := now }) next
  | release =>
    have hdepth : depth { s with execution := s.execution.release } = s.depth := by
      unfold depth Execution.release
      split
      · rfl
      · next f rest hframes => rw [hframes]; rfl
    rw [hdepth]
    exact ⟨⟨rfl, rfl, rfl, rfl, .refl _⟩, rfl, fun _ h => h, nofun⟩
  | act action =>
    exact ⟨s.job.books_perform action, rfl, fun _ h => Job.shown_perform h action, nofun⟩

theorem Run.books (h : Run s es t) : Books s.job.state es t.job.state := by
  induction h with
  | refl => exact .refl _
  | snoc _ hstep ih => exact ih.append hstep.entered.books

theorem Run.depth (h : Run s es t) : t.depth + ends es = s.depth + (grants es).length := by
  induction h with
  | refl => rfl
  | snoc _ hstep ih =>
    have hlast := hstep.entered.depth
    rw [ends_append, grants_append, List.length_append]
    omega

/-- The books of a job balance, and its status says whether a callback is executing. -/
structure Sound (s : Thread) : Prop where
  balance : (s.job.state.runs : Int) =
    s.job.state.successes + s.job.state.failures + s.job.state.executing
  depth : s.job.state.executing = s.depth
  shown : s.job.state.Shown

theorem Step.sound (h : Step s e t) (hs : s.Sound) : t.Sound := by
  have hentered := h.entered
  have hbooks := hentered.books
  have hexecuting := hbooks.executing
  have hbalance := hs.balance
  have hdepth := hs.depth
  have hstep := hentered.depth
  have hends := ends_eq [e]
  constructor
  · rw [hbooks.runs, hbooks.successes, hbooks.failures]
    push_cast
    omega
  · omega
  · exact hentered.shown hdepth hs.shown

theorem Run.sound (h : Run s es t) (hs : s.Sound) : t.Sound :=
  h.preserves (fun hstep hs => hstep.sound hs) hs

theorem sound_create {o : JobOptions} {a : Anchor} {j : Job} (hj : Job.create o a = .ok j)
    (now : Instant) : Sound { job := j, execution := { clock := now } } := by
  constructor
  · rw [Job.state_create hj]
    rfl
  · rw [Job.state_create hj]
    rfl
  · rw [Job.state_create hj]
    obtain hready | hstopped := o.status_cases
    · exact JobState.shown_iff.mpr (Or.inr (Or.inr ⟨hready, Int.le_refl 0⟩))
    · exact JobState.shown_of_halted (by rw [JobState.new, hstopped]; rfl)

/-! ### One run -/

/-- Steps that are taken while more calls are in progress than a number. -/
def Within (d : Nat) : Thread → List CallEvent → Thread → Prop :=
  Course fun s e t => d < s.depth ∧ Step s e t

theorem Within.run (h : Within d s es t) : Run s es t := by
  induction h with
  | refl => exact .refl _
  | snoc _ hstep ih => exact ih.snoc hstep.2

/-- Where no more calls are in progress, nothing happens within. -/
theorem Within.eq_of_le (h : Within d s es t) (hs : s.depth ≤ d) : es = [] ∧ t = s := by
  induction h with
  | refl => exact ⟨rfl, rfl⟩
  | snoc _ hstep ih => exact absurd (ih.2 ▸ hstep.1) (Nat.not_lt.mpr hs)

/-- A run of the job: it asks for a unit of the budget, and goes on until the calls in progress are
those that were there before it. It may have come about within another run, and other runs may have
come about within it. -/
def Spans (s : Thread) (es : List CallEvent) (t : Thread) : Prop :=
  ∃ claim u fs, es = .claimed claim :: fs ∧ Step s (.claimed claim) u ∧ Within s.depth u fs t ∧
    t.depth = s.depth

theorem Spans.run (h : Spans s es t) : Run s es t := by
  obtain ⟨claim, u, fs, rfl, hstep, hwithin, -⟩ := h
  exact (Course.single hstep).append hwithin.run

theorem Spans.ends_eq (h : Spans s es t) : ends es = (grants es).length := by
  have hdepth := Run.depth h.run
  obtain ⟨-, -, -, -, -, -, hsame⟩ := h
  omega

/-- A run without a unit of the budget changes nothing at all. -/
theorem Spans.of_exhausted (h : Spans s es t) (hfirst : es.head? = some (.claimed .exhausted)) :
    es = [.claimed .exhausted] ∧ t.job = s.job := by
  obtain ⟨claim, u, fs, rfl, hstep, hwithin, -⟩ := h
  obtain rfl : claim = .exhausted := by simpa using hfirst
  have hentered := hstep.entered
  have hdepth : u.depth ≤ s.depth := Nat.le_of_eq hentered.depth
  obtain ⟨rfl, rfl⟩ := hwithin.eq_of_le hdepth
  exact ⟨rfl, hentered.refused rfl⟩

/-- A run that gets a unit of the budget ends with its own call, and the runs within it have ended
before. -/
theorem Spans.of_granted {last : Bool} (h : Spans s es t)
    (hfirst : es.head? = some (.claimed (.granted last))) :
    ∃ gs last' outcome, es = .claimed (.granted last) :: (gs ++ [.ended last' outcome]) ∧
      ends gs = (grants gs).length := by
  obtain ⟨claim, u, fs, rfl, hstep, hwithin, hsame⟩ := h
  obtain rfl : claim = .granted last := by simpa using hfirst
  have hdepth : u.depth = s.depth + 1 := hstep.entered.depth
  -- only the end of a call takes the stack down again, and its own call is the lowest one
  cases hwithin with
  | refl => omega
  | @snoc v _ gs e hgs hlast =>
    have hinner : v.depth + ends gs = u.depth + (grants gs).length :=
      Run.depth (Within.run hgs)
    have hend := hlast.2.entered.depth
    have hlt := hlast.1
    cases e with
    | ended last' outcome =>
      have hone : t.depth + 1 = v.depth := hend
      exact ⟨gs, last', outcome, rfl, by omega⟩
    | claimed | acted | capped | quiet =>
      have hnone : v.depth ≤ t.depth := le_of_le_of_eq (Nat.le_add_right _ _) hend.symm
      omega

/-- At any time the books of a job balance, and its status says whether a callback is executing,
unless it was stopped or closed. A run, with all the runs within it, leaves the number of executing
callbacks as it was. Each run that gets a unit of the budget is entered once, as a success or as a
failure with one occurrence of its error, and ends with its own call; a run that gets none changes
nothing. -/
theorem Run.balanced {o : JobOptions} {a : Anchor} {j : Job} {now : Instant}
    (hj : Job.create o a = .ok j) (h : Run { job := j, execution := { clock := now } } es s) :
    (s.job.state.runs : Int) =
      s.job.state.successes + s.job.state.failures + s.job.state.executing ∧
    (s.job.state.status ≠ .stopped → s.job.state.status ≠ .closed →
      s.job.state.status = if 0 < s.job.state.executing then .running else .ready) ∧
    ∀ fs t, Spans s fs t →
      t.job.state.executing = s.job.state.executing ∧
      (grants fs).length = successes fs + (errors fs).length ∧
      t.job.state.runs = s.job.state.runs + (grants fs).length ∧
      t.job.state.successes = s.job.state.successes + successes fs ∧
      t.job.state.failures = s.job.state.failures + (errors fs).length ∧
      s.job.state.errors.Gathers (errors fs) t.job.state.errors ∧
      (fs.head? = some (.claimed .exhausted) → fs = [.claimed .exhausted] ∧ t.job = s.job) ∧
      ∀ last, fs.head? = some (.claimed (.granted last)) → ∃ gs last' outcome,
        fs = .claimed (.granted last) :: (gs ++ [.ended last' outcome]) ∧
        (grants gs).length = successes gs + (errors gs).length := by
  have hsound := Run.sound h (sound_create hj now)
  refine ⟨hsound.balance, fun hstopped hclosed => hsound.shown ?_, fun fs t hspans => ?_⟩
  · cases hstatus : s.job.state.status with
    | stopped => exact absurd hstatus hstopped
    | closed => exact absurd hstatus hclosed
    | ready | running => rfl
  · have hbooks := Run.books hspans.run
    have hends := hspans.ends_eq
    have hexecuting := hbooks.executing
    refine ⟨by omega, hends.symm.trans (CallEvent.ends_eq fs), hbooks.runs, hbooks.successes,
      hbooks.failures, hbooks.errors, hspans.of_exhausted, fun last hfirst => ?_⟩
    obtain ⟨gs, last', outcome, heq, hgs⟩ := hspans.of_granted hfirst
    exact ⟨gs, last', outcome, heq, hgs.symm.trans (CallEvent.ends_eq gs)⟩

/-! ### A run at one stroke -/

/-- As far as a thread goes on with its calls, it takes steps within them. -/
theorem within_proceed (x : Execution) (j : Job) (n : Nat) :
    ∃ es, Within 0 { job := j, execution := x } es
      { job := (x.proceed j n).1, execution := (x.proceed j n).2 } := by
  induction n generalizing x j with
  | zero => exact ⟨[], .refl _⟩
  | succ n ih =>
    unfold Execution.proceed
    cases hnext : x.step? j with
    | none => exact ⟨[], .refl _⟩
    | some next =>
      obtain ⟨k, y⟩ := next
      have hpos : 0 < x.frames.length := by
        cases hframes : x.frames with
        | nil =>
          unfold Execution.step? at hnext
          rw [hframes] at hnext
          cases hnext
        | cons => exact Nat.succ_pos _
      obtain ⟨es, hes⟩ := ih y k
      exact ⟨_, (Course.single ⟨hpos, .move ⟨j, x⟩ x.clock hnext⟩).append hes⟩

/-- A run at one stroke that comes to its end is a run by steps. -/
theorem spans_runOnce (j : Job) (now : Instant) (hover : (j.runOnce now).2.isOver = true) :
    ∃ es, Spans { job := j, execution := { clock := now } } es
      { job := (j.runOnce now).1, execution := (j.runOnce now).2 } := by
  obtain ⟨es, hes⟩ := within_proceed (Execution.begin { clock := now } j).2
    (Execution.begin { clock := now } j).1 Execution.stepLimit
  have hend : (j.runOnce now).2.frames = [] := List.isEmpty_iff.mp hover
  exact ⟨_, _, _, _, rfl, .call ⟨j, { clock := now }⟩ now rfl, hes, congrArg List.length hend⟩

end Thread

/-! ### A run within a run -/

/-- The first call runs the job once more and then stops it, and asks for it to be closed. The call
within panics. -/
def Callback.nested : Callback
  | 0 => { actions := [.run, .stop], outcome := .exit }
  | _ => { outcome := .panic (.text "within") }

def JobOptions.nested : JobOptions :=
  { spec := .every (.ofMillis 100), callback := some .nested }

def Job.nested : Job :=
  { name := none
    spec := .every (.ofMillis 100)
    schedule := .interval (.starting 1 0)
    callback := .nested
    state := .new false none .ready }

theorem create_nested : Job.create .nested ⟨0, default, .ofMillis 100, 1⟩ = .ok .nested := rfl

namespace Thread

/-- What is seen of its run. -/
def nestedEvents : List CallEvent :=
  [.claimed (.granted false), .claimed (.granted false), .ended false (.panic (.text "within")),
    .acted .stop, .ended false .exit]

/-- The thread when its calls have gone on by one step. -/
def next (s : Thread) : Thread :=
  { job := (s.execution.proceed s.job 1).1, execution := (s.execution.proceed s.job 1).2 }

theorem step_next (h : (s.execution.step? s.job).isSome = true)
    (he : s.execution.nextEvent s.job = e) : Step s e s.next := by
  obtain ⟨⟨k, y⟩, hnext⟩ := Option.isSome_iff_exists.mp h
  have hafter : s.next = { job := k, execution := y } := by
    rw [next, Execution.proceed, hnext]
    rfl
  rw [hafter, ← he]
  exact .move s s.execution.clock hnext

theorem spans_nested : ∃ t, Spans { job := .nested, execution := { clock := default } }
    nestedEvents t := by
  let start : Thread := { job := .nested, execution := { clock := default } }
  let called : Thread :=
    { job := (Execution.begin { clock := default } .nested).1
      execution := (Execution.begin { clock := default } .nested).2 }
  have hinner : Step called (.claimed (.granted false)) called.next :=
    step_next (by decide +kernel) (by decide +kernel)
  have hpanic : Step called.next (.ended false (.panic (.text "within"))) called.next.next :=
    step_next (by decide +kernel) (by decide +kernel)
  have hstop : Step called.next.next (.acted .stop) called.next.next.next :=
    step_next (by decide +kernel) (by decide +kernel)
  have hexit : Step called.next.next.next (.ended false .exit) called.next.next.next.next :=
    step_next (by decide +kernel) (by decide +kernel)
  have hwithin : Within 0 called _ _ :=
    (((Course.single ⟨by decide +kernel, hinner⟩).snoc ⟨by decide +kernel, hpanic⟩).snoc
      ⟨by decide +kernel, hstop⟩).snoc ⟨by decide +kernel, hexit⟩
  exact ⟨_, _, called, _, rfl, .call start default rfl, hwithin, by decide +kernel⟩

/-- The run within fails and the one around it succeeds; both are over at the end. -/
theorem balanced_nested : ∃ t, Spans { job := .nested, execution := { clock := default } }
    nestedEvents t ∧ t.job.state.runs = 2 ∧ t.job.state.successes = 1 ∧
      t.job.state.failures = 1 ∧ t.job.state.executing = 0 := by
  obtain ⟨t, hspans⟩ := spans_nested
  obtain ⟨hexecuting, -, hruns, hsuccesses, hfailures, -⟩ :=
    (Run.balanced create_nested (.refl _)).2.2 _ t hspans
  exact ⟨t, hspans, hruns, hsuccesses, hfailures, hexecuting⟩

end Thread

end Metronome
