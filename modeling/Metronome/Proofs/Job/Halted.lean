import Metronome.Proofs.Job.Calls

/-!
# Stopped jobs

A job that is stopped or closed is shown neither as ready nor as running. It may execute all the
same, since no callback asks for the status before it begins; but no callback that begins or ends
changes such a status. Only those change it who treat the job: anyone may close it, and `start` is
the one way back, from the stopped status.

## Main definitions

* `JobStatus.isHalted`, `Job.isHalted` — stopped or closed

## Main results

* `JobState.isHalted_start` — a job that was started is stopped no more
* `Calls.Step.isHalted`, `Calls.Run.isHalted` — until it is started, a job stays stopped or is
  closed
-/

namespace Metronome

/-- Whether a status is neither ready nor running. -/
def JobStatus.isHalted : JobStatus → Bool
  | .ready | .running => false
  | .stopped | .closed => true

theorem JobStatus.isHalted_iff (s : JobStatus) :
    s.isHalted = true ↔ s = .stopped ∨ s = .closed := by
  cases s <;> decide

namespace JobState

variable {s : JobState} {src dst : JobStatus}

/-- A callback changes the status only if the job is ready or running. -/
theorem transition_of_halted (h : s.status.isHalted = true) (hsrc : src.isHalted = false) :
    (s.transition src dst).2 = s := by
  unfold transition
  split
  · next heq =>
    rw [heq, hsrc] at h
    cases h
  · rfl

theorem showRunning_of_halted (h : s.status.isHalted = true) : s.showRunning = s := by
  unfold showRunning
  split
  · exact transition_of_halted h rfl
  · rfl

theorem enter_of_halted (h : s.status.isHalted = true) : s.enter = s.addExecuting 1 :=
  transition_of_halted h rfl

theorem leave_of_halted (h : s.status.isHalted = true) : s.leave = s.addExecuting (-1) := by
  have hafter : (s.addExecuting (-1)).status.isHalted = true := h
  unfold leave
  dsimp only
  rw [transition_of_halted hafter rfl, showRunning_of_halted hafter, ite_self]

theorem stop_of_halted (h : s.status.isHalted = true) : s.stop = (false, s) := by
  unfold stop
  split
  · rfl
  · rfl
  · next heq =>
    rw [heq] at h
    cases h
  · next heq =>
    rw [heq] at h
    cases h

/-- A job that was started is halted only if it is closed. -/
theorem isHalted_start (s : JobState) : s.start.2.status.isHalted = s.start.2.isClosed := by
  -- once it is ready, the job may at most be shown as running
  have hshown (t : JobState) (ht : t.status = .ready) :
      t.showRunning.status.isHalted = t.showRunning.isClosed := by
    unfold showRunning transition
    rw [if_pos ht, isClosed]
    split
    · rfl
    · rw [ht]
      rfl
  unfold start transition
  by_cases h : s.status = .stopped
  · rw [if_pos h]
    exact hshown _ rfl
  · rw [if_neg h, isClosed]
    cases hstatus : s.status with
    | stopped => exact absurd hstatus h
    | ready | running | closed => rfl

end JobState

namespace Job

variable {j k : Job}

/-- Whether a job is stopped or closed. -/
def isHalted (j : Job) : Bool := j.state.status.isHalted

theorem Tends.isHalted (h : j.Tends k) : k.isHalted = j.isHalted := by
  rw [Job.isHalted, h.state]
  rfl

theorem isHalted_settle (h : j.isHalted = true) (outcome : Outcome) (now : Instant) :
    (j.settle outcome now).1.isHalted = true := by
  cases outcome with
  | exit => rfl
  | proceed | fail | panic => exact h

theorem isHalted_closeIf (h : j.isHalted = true) (flag : Bool) :
    (j.closeIf flag).isHalted = true := by
  cases flag with
  | true => rfl
  | false => exact h

theorem isHalted_endRun (h : j.isHalted = true) (f : Frame) (now : Instant) :
    (j.endRun f now).1.isHalted = true := by
  have hover (k : Job) (hk : k.isHalted = true) :
      (k.withState fun s => (s.markOver now ⟨0⟩).leave).isHalted = true := by
    have hmark : (k.state.markOver now ⟨0⟩).status.isHalted = true := hk
    rw [isHalted, withState, JobState.leave_of_halted hmark]
    exact hk
  exact isHalted_closeIf (hover _ (isHalted_settle h f.outcome now)) f.last

/-- A run begins whatever the status is, and leaves it alone. -/
theorem isHalted_beginRun (h : j.isHalted = true) {now : Instant} {f : Frame}
    (hbegin : j.beginRun now = some (f, k)) : k.isHalted = true := by
  -- a claim touches the budget only
  have hstate : j.state.claim =
      (j.state.budget.claim.1, { j.state with budget := j.state.budget.claim.2 }) := rfl
  unfold beginRun at hbegin
  rw [hstate] at hbegin
  split at hbegin
  · cases hbegin
  · next last s heq =>
    have hmark : (s.markStart now).status.isHalted = true := (Prod.mk.inj heq).2 ▸ h
    cases hbegin
    rw [isHalted, JobState.enter_of_halted hmark]
    exact hmark

theorem isHalted_perform (h : j.isHalted = true) {action : Action} (hstart : action ≠ .start) :
    (j.perform action).isHalted = true := by
  cases action with
  | start => exact absurd rfl hstart
  | stop =>
    rw [perform, isHalted, stop, JobState.stop_of_halted h]
    exact h
  | close => rfl
  | setTimes | clearTimes | run => exact h

end Job

/-! ### Steps of the threads -/

namespace Execution

variable {j : Job}

theorem isHalted_begin (h : j.isHalted = true) (x : Execution) :
    (x.begin j).1.isHalted = true := by
  unfold begin
  split
  · exact h
  · next heq => exact Job.isHalted_beginRun h heq

theorem isHalted_proceed (h : j.isHalted = true) (x : Execution)
    (hstart : x.nextEvent j ≠ .acted .start) : (x.proceed j 1).1.isHalted = true := by
  unfold nextEvent at hstart
  unfold proceed step?
  cases hframes : x.frames with
  | nil => exact h
  | cons f rest =>
    rw [hframes] at hstart
    dsimp only at hstart ⊢
    cases hactions : f.actions with
    | nil =>
      dsimp only
      cases hgated : f.gated with
      | true => exact h
      | false => exact Job.isHalted_endRun h f x.clock
    | cons action actions =>
      rw [hactions] at hstart
      cases action with
      | run => exact isHalted_begin h _
      | start => exact absurd rfl hstart
      | _ => exact Job.isHalted_perform h (by simp)

end Execution

namespace Calls

variable {c d : Calls} {e : CallEvent} {es : List CallEvent}

/-- Whatever is done to a job that is stopped, short of starting it, leaves it stopped or closes
it. -/
theorem Step.isHalted (h : Step c e d) (hc : c.job.isHalted = true) (hstart : e ≠ .acted .start) :
    d.job.isHalted = true := by
  cases h with
  | begin now => exact Execution.isHalted_begin hc _
  | move before x after now running =>
    exact Execution.isHalted_proceed hc { x with clock := now, log := [] } hstart
  | release => exact hc
  | finish before x after running done k tends => exact tends.isHalted.trans hc
  | act action => exact Job.isHalted_perform hc fun haction => hstart (congrArg _ haction)
  | cap limit => exact hc
  | tend k tends => exact tends.isHalted.trans hc

theorem Run.isHalted (h : Run c es d) (hc : c.job.isHalted = true)
    (hstart : .acted .start ∉ es) : d.job.isHalted = true := by
  induction h with
  | refl => exact hc
  | snoc _ hstep ih =>
    simp only [List.mem_append, List.mem_singleton, not_or] at hstart
    exact hstep.isHalted (ih hstart.1) (Ne.symm hstart.2)

end Calls

end Metronome
