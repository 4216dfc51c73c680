import Metronome.Proofs.Runner.Run

/-!
# The bookkeeping of a runner

A trigger that was accepted is found again: its job stands in line, or it is a singleton whose one
run will put it there on completion. The line and the counters are changed by several operations,
each of which restores a part of this, and a job may be closed between any two of their steps. The
relation holds all the same in every state that a runner can come to.

For a regular job this is so as long as the counters of 32 bits can tell its triggers. If more of
them are outstanding, then the number of pending triggers wraps around and turns negative. A
singleton never counts that far.

## Main definitions

* `Shift.Booked` — the relation between the line and the counters of a job
* `Shift.Bookkeeping` — the same of all jobs, with the line itself
* `Shift.ofJobs` — a runner that has just been created for some jobs

## Main results

* `Shift.Run.booked` — the relation holds of a job in every state
* `Shift.Run.bookkeeping` — and the line itself is in order
-/

namespace Metronome

namespace Shift

/-- The line agrees with the counters of a job. -/
structure Booked (s : Shift) (id : JobId) (st : JobState) : Prop where
  counters : 0 ≤ st.pending ∧ 0 ≤ st.running
  /-- No trigger is stranded. -/
  placed : 0 < st.pending → id ∈ s.runner.line.order ∨ st.singleton = true ∧ st.running = 1
  /-- An open job stands in line for a trigger. -/
  asked : id ∈ s.runner.line.order → st.isClosed = false → 1 ≤ st.pending
  singleton : st.singleton = true →
    st.pending ≤ 1 ∧ st.running ≤ 1 ∧ (id ∈ s.runner.line.order → st.running = 0)

/-- The line agrees with the counters of the jobs. -/
structure Bookkeeping (s : Shift) : Prop where
  /-- No job stands in line twice. -/
  nodup : s.runner.line.order.Nodup
  mem_queued : ∀ id, id ∈ s.runner.line.queued ↔ id ∈ s.runner.line.order
  jobs : ∀ id st, s.runner.roster.state? id = some st → s.Booked id st

variable {s t : Shift} {id : JobId} {st : JobState} {es : List Event}

theorem queued_account :
    (s.account id st).queued = true ↔ id ∈ s.runner.line.order := decide_eq_true_iff

/-- A runner that has just been created for some jobs, with a number of threads. -/
def ofJobs (jobs : Array Job) (threads : Nat) : Shift where
  crew := { runner := { roster := { jobs := jobs }, pool := .new threads none }, clock := default }

theorem fresh_ofJobs {jobs : Array Job} {threads : Nat}
    (h : ∀ j ∈ jobs, j.state.pending = 0 ∧ j.state.running = 0) : Fresh (ofJobs jobs threads) := by
  have hstate (id : JobId) (st : JobState)
      (hst : (ofJobs jobs threads).runner.roster.state? id = some st) :
      st.pending = 0 ∧ st.running = 0 := by
    obtain ⟨j, hj, rfl⟩ := Option.map_eq_some_iff.mp hst
    exact h j (Array.mem_of_getElem? hj)
  constructor
  case pending => exact fun id st hst => (hstate id st hst).1
  case running => exact fun id st hst => (hstate id st hst).2
  all_goals rfl

/-- A singleton that has not been triggered. -/
def singletonJob : Job := { (default : Job) with state := .new true none .ready }

theorem fresh_singleton : Fresh (ofJobs #[singletonJob] 1) := by
  refine fresh_ofJobs fun j hj => ?_
  rw [List.mem_toArray, List.mem_singleton] at hj
  rw [hj]
  exact ⟨rfl, rfl⟩

/-- A singleton is triggered, and the pool admits its run. -/
theorem run_singleton : ∃ s, Run (ofJobs #[singletonJob] 1)
    [.quiet, .answered 0 .queued, .quiet, .taken 0, .admitted 0] s ∧
      s.runner.closed = false ∧ s.crew.flying 0 = 1 ∧ s.runner.roster.state? 0 =
        some { JobState.new true none .ready with running := 1 } := by
  let s₀ := ofJobs #[singletonJob] 1
  let s₁ : Shift := { s₀ with checked := [0] }
  let s₂ : Shift := { s₁.withRunner (s₁.runner.enqueue 0).2 with checked := [] }
  let s₃ : Shift := { s₂ with dispatcher := .ready }
  let s₄ : Shift := { s₃.withRunner s₃.runner.pop.2 with dispatcher := .holding 0 }
  have hcheck : Step s₀ .quiet s₁ := .check s₀ 0 rfl
  have henqueue : Step s₁ (.answered 0 .queued) s₂ := .enqueue s₁ 0 (by decide)
  have hlook : Step s₂ .quiet s₃ := .look s₂ rfl (by decide +kernel) rfl
  have hpop : Step s₃ (.taken 0) s₄ := by
    have htaken : s₃.runner.pop.1 = .taken 0 := by decide +kernel
    have hstep := Step.pop s₃ rfl
    rw [htaken] at hstep
    exact hstep
  have hpool : s₄.runner.pool = .new 1 none := by decide +kernel
  have hgrant := Step.grant s₄ 0 { Pool.new 1 none with inFlight := 1, waiting := 1 } rfl
    (by rw [hpool]; rfl)
  refine ⟨_, ((((Course.single hcheck).snoc henqueue).snoc hlook).snoc hpop).snoc hgrant,
    ?_, ?_, ?_⟩
  · decide +kernel
  · decide +kernel
  · decide +kernel

/-- A sound account with counters that have not wrapped around agrees with the line. -/
theorem booked_of_ample (h : (s.account id st).Sound)
    (hample : (s.account id st).Ample 2147483647) : s.Booked id st := by
  have hrunning : st.running.toInt = (s.account id st).underWay := hample.running_eq h
  constructor
  case counters =>
    refine ⟨Counter.nonneg_iff.mpr hample.pending_nonneg, Counter.nonneg_iff.mpr ?_⟩
    omega
  case placed =>
    intro hpending
    refine (h.placed hpending).imp queued_account.mp fun ⟨single, hone⟩ => ⟨single, ?_⟩
    exact h.running_eq.trans (by rw [hone]; rfl)
  case asked =>
    exact fun hmem hopen => Int32.le_iff_toInt_le.mpr
      (hample.asked (queued_account.mpr hmem) hopen)
  case singleton =>
    intro single
    have hunderWay := h.single_underWay single
    refine ⟨?_, Int32.le_iff_toInt_le.mpr ?_, fun hmem => ?_⟩
    · obtain hpending | hpending := h.single_pending single
      · rw [show st.pending = 0 from hpending]
        decide
      · exact Int32.le_of_eq hpending
    · change st.running.toInt ≤ 1
      omega
    · exact (h.running_eq_zero_iff single).mpr (h.single_queued single (queued_account.mpr hmem))

/-- The line agrees with the counters of a job as long as its triggers can be counted. -/
theorem Run.booked (h : Run s es t) (hs : s.Fresh) (hst : t.runner.roster.state? id = some st)
    (hfits : st.singleton = true ∨ Event.Within id es) : t.Booked id st :=
  booked_of_ample (Reachable.sound ⟨s, es, hs, h⟩ hst) (Run.ample h hs hst hfits)

/-- After a short run, the line agrees with the counters of all jobs. -/
theorem Run.bookkept (h : Run s es t) (hs : s.Fresh) (hshort : es.length ≤ 2147483647) :
    t.Bookkeeping := by
  have hline := Run.line_sound h hs.line_sound
  exact ⟨hline.nodup, hline.mem_queued, fun id st hst =>
    Run.booked h hs hst (Or.inr (Event.within_of_length hshort))⟩

end Shift

end Metronome
