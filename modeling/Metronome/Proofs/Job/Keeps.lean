import Metronome.Job.Execution

/-!
# What callbacks leave alone

Whoever starts, stops, closes or runs a job, and whatever its callback does, the counters of the
runner, the kind of the job and its schedule stay as they are, and a closed job stays closed. So
the runner has these counters to itself, and the timer has the schedule to itself.

## Main definitions

* `Job.Keeps` — a change of a job that the runner and the timer do not see, save that it may close

## Main results

* `Job.keeps_perform`, `Execution.keeps_begin`, `Execution.keeps_proceed` — actions and runs
-/

namespace Metronome

/-- A change of a job that touches neither the counters of the runner nor the schedule. -/
structure Job.Keeps (j k : Job) : Prop where
  singleton : k.state.singleton = j.state.singleton
  pending : k.state.pending = j.state.pending
  running : k.state.running = j.state.running
  schedule : k.schedule = j.schedule
  closed : j.isClosed = true → k.isClosed = true

namespace JobState

theorem isClosed_iff (s : JobState) : s.isClosed = true ↔ s.status = .closed := by
  rw [isClosed, beq_iff_eq]

/-- A change of the run state that the runner does not see. -/
structure Keeps (s t : JobState) : Prop where
  singleton : t.singleton = s.singleton
  pending : t.pending = s.pending
  running : t.running = s.running
  closed : s.isClosed = true → t.isClosed = true

variable {s t u : JobState}

theorem Keeps.refl (s : JobState) : s.Keeps s := ⟨rfl, rfl, rfl, id⟩

theorem Keeps.trans (h : s.Keeps t) (h' : t.Keeps u) : s.Keeps u :=
  ⟨h'.singleton.trans h.singleton, h'.pending.trans h.pending, h'.running.trans h.running,
    fun hs => h'.closed (h.closed hs)⟩

/-- A closed job has no way back: no status is changed from the last one. -/
theorem keeps_transition (s : JobState) {src : JobStatus} (dst : JobStatus)
    (hsrc : src ≠ .closed) : s.Keeps (s.transition src dst).2 := by
  unfold transition
  split
  · next h => exact ⟨rfl, rfl, rfl, fun hs => absurd (h.symm.trans (s.isClosed_iff.mp hs)) hsrc⟩
  · exact .refl s

theorem keeps_showRunning (s : JobState) : s.Keeps s.showRunning := by
  unfold showRunning
  split
  · exact s.keeps_transition .running (by decide)
  · exact .refl s

theorem keeps_start (s : JobState) : s.Keeps s.start.2 := by
  have hready : s.Keeps (s.transition .stopped .ready).2 := s.keeps_transition .ready (by decide)
  unfold start
  split
  · next t h =>
    rw [h] at hready
    exact hready.trans t.keeps_showRunning
  · next t h =>
    rw [h] at hready
    exact hready

theorem keeps_stop (s : JobState) : s.Keeps s.stop.2 := by
  unfold stop
  split
  · exact .refl s
  · exact .refl s
  · next h => exact ⟨rfl, rfl, rfl, fun hs => by rw [isClosed_iff, h] at hs; cases hs⟩
  · next h => exact ⟨rfl, rfl, rfl, fun hs => by rw [isClosed_iff, h] at hs; cases hs⟩

theorem keeps_close (s : JobState) : s.Keeps s.close := ⟨rfl, rfl, rfl, fun _ => rfl⟩

theorem keeps_enter (s : JobState) : s.Keeps s.enter := by
  have hadd : s.Keeps (s.addExecuting 1) := ⟨rfl, rfl, rfl, id⟩
  exact hadd.trans ((s.addExecuting 1).keeps_transition .running (by decide))

theorem isClosed_enter (s : JobState) : s.enter.isClosed = s.isClosed := by
  unfold enter transition
  split
  · next h =>
    have hs : s.status = .ready := h
    rw [isClosed, isClosed, hs]
    rfl
  · rfl

theorem keeps_leave (s : JobState) : s.Keeps s.leave := by
  have hafter : s.Keeps (s.addExecuting (-1)) := ⟨rfl, rfl, rfl, id⟩
  unfold leave
  split
  · exact hafter.trans ((keeps_transition _ .ready (by decide)).trans (keeps_showRunning _))
  · exact hafter

theorem keeps_markOver (s : JobState) (now : Instant) (elapsed : Span) :
    s.Keeps (s.markOver now elapsed) := ⟨rfl, rfl, rfl, id⟩

end JobState

namespace Job

variable {j k l : Job}

theorem Keeps.refl (j : Job) : j.Keeps j := ⟨rfl, rfl, rfl, rfl, id⟩

theorem Keeps.trans (h : j.Keeps k) (h' : k.Keeps l) : j.Keeps l :=
  ⟨h'.singleton.trans h.singleton, h'.pending.trans h.pending, h'.running.trans h.running,
    h'.schedule.trans h.schedule, fun hj => h'.closed (h.closed hj)⟩

/-- A change of the run state alone. -/
theorem keeps_of_state {t : JobState} (h : j.state.Keeps t) : j.Keeps { j with state := t } :=
  ⟨h.singleton, h.pending, h.running, rfl, h.closed⟩

theorem keeps_close (j : Job) : j.Keeps j.close := keeps_of_state j.state.keeps_close

theorem keeps_closeIf (j : Job) (flag : Bool) : j.Keeps (j.closeIf flag) := by
  unfold closeIf
  split
  · exact j.keeps_close
  · exact .refl j

/-- Whatever someone does to a job. -/
theorem keeps_perform (j : Job) (action : Action) : j.Keeps (j.perform action) := by
  cases action with
  | start => exact keeps_of_state j.state.keeps_start
  | stop => exact keeps_of_state j.state.keeps_stop
  | close => exact j.keeps_close
  | setTimes | clearTimes => exact keeps_of_state ⟨rfl, rfl, rfl, id⟩
  | run => exact .refl j

theorem keeps_settle (j : Job) (outcome : Outcome) (now : Instant) :
    j.Keeps (j.settle outcome now).1 := by
  cases outcome with
  | proceed => exact keeps_of_state ⟨rfl, rfl, rfl, id⟩
  | exit =>
    have hmark : j.Keeps (j.withState (·.markSuccess now)) :=
      keeps_of_state ⟨rfl, rfl, rfl, id⟩
    exact hmark.trans (keeps_close _)
  | fail | panic => exact keeps_of_state ⟨rfl, rfl, rfl, id⟩

/-- The end of a run, however it comes out. -/
theorem keeps_endRun (j : Job) (f : Frame) (now : Instant) : j.Keeps (j.endRun f now).1 := by
  have hover (k : Job) : k.Keeps (k.withState fun s => (s.markOver now ⟨0⟩).leave) :=
    keeps_of_state ((k.state.keeps_markOver now ⟨0⟩).trans (JobState.keeps_leave _))
  exact (keeps_settle j f.outcome now).trans ((hover _).trans (keeps_closeIf _ f.last))

/-- The beginning of a run does not close a job either. -/
theorem keeps_beginRun {f : Frame} {now : Instant} (h : j.beginRun now = some (f, k)) :
    j.Keeps k ∧ k.isClosed = j.isClosed := by
  unfold beginRun at h
  split at h
  · cases h
  · next last s hclaim =>
    have hs : { j.state with budget := j.state.budget.claim.2 } = s := congrArg Prod.snd hclaim
    have hmark : j.state.Keeps (s.markStart now) := hs ▸ ⟨rfl, rfl, rfl, id⟩
    cases h
    refine ⟨keeps_of_state (hmark.trans (JobState.keeps_enter _)), ?_⟩
    rw [isClosed, JobState.isClosed_enter, ← hs]
    rfl

end Job

namespace Execution

variable {j k : Job} {x y : Execution}

theorem keeps_begin (x : Execution) (j : Job) :
    j.Keeps (x.begin j).1 ∧ (x.begin j).1.isClosed = j.isClosed := by
  unfold begin
  split
  · exact ⟨.refl j, rfl⟩
  · next f k h => exact Job.keeps_beginRun h

theorem keeps_step (h : x.step? j = some (k, y)) : j.Keeps k := by
  unfold step? at h
  split at h
  · cases h
  · next f rest _ =>
    split at h
    · rw [← show _ = k from congrArg Prod.fst (Option.some.inj h)]
      exact (keeps_begin _ j).1
    · cases h
      exact Job.keeps_perform j _
    · split at h
      · cases h
      · cases h
        exact Job.keeps_endRun j f x.clock

/-- A run on a thread, as far as it goes. -/
theorem keeps_proceed (x : Execution) (j : Job) (n : Nat) : j.Keeps (x.proceed j n).1 := by
  induction n generalizing x j with
  | zero => exact .refl j
  | succ n ih =>
    unfold proceed
    split
    · exact .refl j
    · next k y h => exact (keeps_step h).trans (ih y k)

end Execution

end Metronome
