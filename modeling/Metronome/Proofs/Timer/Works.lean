import Metronome.Proofs.Timer.Lone

/-!
# A timer at work

Jobs are added to a timer and are started, stopped and closed, the timer is stopped and resumed, its
crew works off what was handed over, and ticks go by, all in any order. Each job that is open has
its schedule where it would be if it had been driven on its own since the job was added, and is
handed over when that schedule is due. So the other jobs make no difference, nor does the order in
which they were added, and what came due while the job or the timer was stopped is not made up for.

## Main definitions

* `Works`, `Works.Step`, `Works.Run` — a timer with the threads around its crew
* `Lone.follow` — a schedule on its own over the ticks of a run

## Main results

* `Works.Run.orderly` — the queue of a timer is in order at all times
* `Works.Run.tracks` — every job is where its schedule would be on its own
* `Works.Run.refines` — the same of a job since it was added, with what is handed over
-/

namespace Metronome

/-- What happens to a timer. -/
inductive Occurrence
  /-- A job was added. -/
  | added (id : JobId)
  /-- The timer was resumed or stopped. -/
  | switched
  /-- A tick has gone by, with what was handed to the runner. -/
  | ticked (tick : Tick) (now : Instant) (handed : List (JobId × Submission))
  /-- A thread of the crew, or someone who treats a job, has taken a step. -/
  | worked (e : Event)

/-- A schedule on its own, over whatever happens to a timer. -/
def Lone.follow (l : Lone) : List Occurrence → Lone
  | [] => l
  | .ticked tick now _ :: os => (l.tick tick now).follow os
  | _ :: os => l.follow os

theorem Lone.follow_append (l : Lone) (os os' : List Occurrence) :
    l.follow (os ++ os') = (l.follow os).follow os' := by
  induction os generalizing l with
  | nil => rfl
  | cons o os ih => cases o <;> exact ih _

/-- A timer, with the threads around its crew. -/
structure Works extends Floor where
  timer : Timer

namespace Works

/-- The crew at work. -/
def shift (w : Works) : Shift := { w.toFloor with crew := w.timer.crew }

/-- The crew has moved on. -/
def withShift (w : Works) (s : Shift) : Works :=
  { s.toFloor with timer := { w.timer with crew := s.crew } }

/-- What happens without being interrupted. -/
inductive Step : Works → Occurrence → Works → Prop
  | add (w : Works) (o : JobOptions) (now : Instant) (id : JobId) (t : Timer)
      (added : w.timer.addJob o now = .ok (id, t)) :
      Step w (.added id) { w with timer := t }
  | start (w : Works) : Step w .switched { w with timer := w.timer.start.2 }
  | stop (w : Works) : Step w .switched { w with timer := w.timer.stop.2 }
  /-- Ticks are numbered one after the other, as far as there are numbers. -/
  | tick (w : Works) (tick : Tick) (now : Instant) (next : tick.val = w.timer.ticks.val + 1)
      (more : tick < Tick.last) :
      Step w (.ticked tick now (w.timer.turnLog tick now).1)
        { w with timer := (w.timer.turn tick now).2 }
  | work (w : Works) (e : Event) (s : Shift) (step : Shift.Step w.shift e s) :
      Step w (.worked e) (w.withShift s)

/-- An interleaving of steps. -/
abbrev Run : Works → List Occurrence → Works → Prop := Course Step

/-- A timer that has just been created. -/
structure Opened (w : Works) : Prop where
  floor : w.toFloor = {}
  timer : ∃ config parallelism now, Timer.new config parallelism now = .ok w.timer

end Works

namespace Timer

variable {t t' : Timer} {id other : JobId} {l : Lone}

/-- A new job is the last one, and goes into the queue under the tick of its schedule. -/
theorem addJob_eq_ok {o : JobOptions} {now : Instant} (h : t.addJob o now = .ok (id, t')) :
    ∃ job, Job.create o (t.anchor now) = .ok job ∧ id = t.roster.jobs.size ∧
      t'.roster.jobs = t.roster.jobs.push job ∧
      t'.queue = t.queue.push id job.schedule.nextTick ∧ t'.ticks = t.ticks := by
  unfold addJob at h
  split at h
  · cases h
  · split at h
    · cases h
    · next job hjob =>
      cases h
      exact ⟨job, hjob, rfl, rfl, rfl, rfl⟩

theorem new_eq_ok {config : TimerConfig} {parallelism : Nat} {now : Instant}
    (h : new config parallelism now = .ok t) : t.queue = .empty := by
  unfold new at h
  split at h
  · cases h
  · cases h
    rfl

theorem orderly_of_empty (h : t.queue = .empty) : t.Orderly := by
  constructor
  · rw [h]
    exact Queue.wf_empty
  · rw [h]
    exact fun e he => absurd he (Array.not_mem_empty e)

/-- As long as queue and tick counter stay, a job that only grows older stays where it is. -/
theorem Tracks.of_ages (h : Tracks t id l) (hages : t.roster.Ages t'.roster)
    (hqueue : t'.queue = t.queue) (hticks : t'.ticks = t.ticks) : Tracks t' id l := by
  have hopened (hopen : t'.roster.isClosed id = false) : t.roster.isClosed id = false :=
    Bool.eq_false_iff.mpr fun hclosed => Bool.eq_false_iff.mp hopen (hages.closed id hclosed)
  constructor
  · intro j' hj' hopen'
    have hopen := hopened ((Roster.isClosed_of_get? hj').trans hopen')
    have hschedule := hages.schedule id
    rw [Roster.schedule?, Roster.schedule?, hj', Option.map_some] at hschedule
    obtain ⟨j, hj, hsame⟩ := Option.map_eq_some_iff.mp hschedule.symm
    rw [Roster.isClosed_of_get? hj] at hopen
    exact hsame.symm.trans (h.schedule j hj hopen)
  · intro hopen hexhausted
    rw [hqueue]
    exact h.none (hopened hopen) hexhausted
  · intro hopen hlive
    rw [hqueue, hticks]
    exact h.once (hopened hopen) hlive

theorem Orderly.of_ages (h : t.Orderly) (hages : t.roster.Ages t'.roster)
    (hqueue : t'.queue = t.queue) : t'.Orderly := by
  refine ⟨by rw [hqueue]; exact h.wf, fun e he => ?_⟩
  rw [hages.size]
  exact h.known e (hqueue ▸ he)

end Timer

namespace Timer

variable {t t' : Timer} {id other : JobId} {l : Lone}

/-! ### A job is added -/

theorem Orderly.addJob {o : JobOptions} {now : Instant} (h : t.Orderly)
    (hadd : t.addJob o now = .ok (id, t')) : t'.Orderly := by
  obtain ⟨job, -, rfl, hjobs, hqueue, -⟩ := addJob_eq_ok hadd
  constructor
  · rw [hqueue]
    exact h.wf.push _ _
  · intro e he
    rw [hjobs, Array.size_push]
    rw [hqueue] at he
    obtain hmem | rfl := Queue.mem_push.mp he
    · exact Nat.lt_succ_of_lt (h.known e hmem)
    · exact Nat.lt_succ_self _

/-- A job that is added makes no difference to the others. -/
theorem Tracks.addJob {o : JobOptions} {now : Instant} (h : Tracks t id l)
    (hid : id < t.roster.jobs.size) (hadd : t.addJob o now = .ok (other, t')) :
    Tracks t' id l := by
  obtain ⟨job, -, rfl, hjobs, hqueue, hticks⟩ := addJob_eq_ok hadd
  have hget : t'.roster.get? id = t.roster.get? id := by
    rw [Roster.get?, hjobs, Array.getElem?_push, if_neg (Nat.ne_of_lt hid)]
    rfl
  have hclosed : t'.roster.isClosed id = t.roster.isClosed id := by
    rw [Roster.isClosed, hget]
    rfl
  have hplaces : t'.queue.places id = t.queue.places id := by
    rw [hqueue, Queue.places_push_of_ne (Nat.ne_of_gt hid)]
  constructor
  · intro j hj
    rw [hget] at hj
    exact h.schedule j hj
  · rw [hclosed, hplaces]
    exact h.none
  · rw [hclosed, hplaces, hticks]
    exact h.once

/-- A new job is queued under the tick of its schedule. -/
theorem Orderly.tracks_addJob {o : JobOptions} {now : Instant} (h : t.Orderly)
    (hadd : t.addJob o now = .ok (id, t')) :
    ∃ job, Job.create o (t.anchor now) = .ok job ∧ id < t'.roster.jobs.size ∧
      Tracks t' id { schedule := job.schedule } := by
  obtain ⟨job, hjob, rfl, hjobs, hqueue, -⟩ := addJob_eq_ok hadd
  have hget : t'.roster.get? t.roster.jobs.size = some job := by
    rw [Roster.get?, hjobs, Array.getElem?_push, if_pos rfl]
  have hnone : t.queue.places t.roster.jobs.size = 0 := by
    refine Multiset.eq_zero_of_forall_notMem fun p hp => ?_
    exact absurd (h.known _ (Queue.mem_places.mp hp)) (Nat.lt_irrefl _)
  refine ⟨job, hjob, by rw [hjobs, Array.size_push]; exact Nat.lt_succ_self _, ?_⟩
  constructor
  · intro j hj _
    rw [hget] at hj
    rw [Option.some.inj hj]
  · intro _ hexhausted
    cases hexhausted
  · intro _ _
    refine ⟨job.schedule.nextTick, ?_, fun _ _ => Iff.rfl⟩
    rw [hqueue, Queue.places_push_self, hnone]
    rfl

end Timer

namespace Works

variable {w w' : Works} {o : Occurrence} {os : List Occurrence} {id : JobId} {l : Lone}

/-- What a step of the crew leaves alone. -/
theorem ages_of_step {e : Event} {s : Shift} (h : Shift.Step w.shift e s) :
    w.timer.roster.Ages (w.withShift s).timer.roster := h.effect.roster

theorem Step.orderly (h : Step w o w') (hw : w.timer.Orderly) : w'.timer.Orderly := by
  cases h with
  | add o now id t added => exact hw.addJob added
  | start =>
    unfold Timer.start
    split <;> exact ⟨hw.wf, hw.known⟩
  | stop =>
    unfold Timer.stop
    split <;> exact ⟨hw.wf, hw.known⟩
  | tick tick now =>
    rw [← Timer.snd_turnLog]
    exact hw.turnLog tick now
  | work e s step => exact hw.of_ages (ages_of_step step) rfl

/-- Jobs are never removed. -/
theorem Step.size_le (h : Step w o w') (hw : w.timer.Orderly) :
    w.timer.roster.jobs.size ≤ w'.timer.roster.jobs.size := by
  cases h with
  | add o now id t added =>
    obtain ⟨job, -, -, hjobs, -⟩ := Timer.addJob_eq_ok added
    rw [hjobs, Array.size_push]
    exact Nat.le_succ _
  | start =>
    unfold Timer.start
    split <;> exact Nat.le_refl _
  | stop =>
    unfold Timer.stop
    split <;> exact Nat.le_refl _
  | tick tick now =>
    rw [← Timer.snd_turnLog]
    exact Nat.le_of_eq (hw.frame_turnLog tick now).1.symm
  | work e s step => exact Nat.le_of_eq (ages_of_step step).size.symm

/-- A step moves a job on as it would move on its schedule alone: by the ticks. -/
theorem Step.tracks (h : Step w o w') (hw : w.timer.Orderly)
    (hid : id < w.timer.roster.jobs.size) (ht : w.timer.Tracks id l) :
    w'.timer.Tracks id (l.follow [o]) := by
  cases h with
  | add o now id' t added => exact ht.addJob hid added
  | start =>
    unfold Timer.start
    split <;> exact ⟨ht.schedule, ht.none, ht.once⟩
  | stop =>
    unfold Timer.stop
    split <;> exact ⟨ht.schedule, ht.none, ht.once⟩
  | tick tick now next more =>
    rw [← Timer.snd_turnLog]
    exact ht.turnLog hw (Tick.lt_def.mpr (by omega)) more
  | work e s step => exact ht.of_ages (ages_of_step step) rfl rfl

theorem Run.orderly (h : Run w os w') (hw : w.timer.Orderly) : w'.timer.Orderly :=
  h.preserves (P := fun u => u.timer.Orderly) (fun hstep hu => hstep.orderly hu) hw

/-- Every job is where its schedule would be on its own. -/
theorem Run.tracks (h : Run w os w') (hw : w.timer.Orderly) (hid : id < w.timer.roster.jobs.size)
    (ht : w.timer.Tracks id l) :
    id < w'.timer.roster.jobs.size ∧ w'.timer.Tracks id (l.follow os) := by
  induction h with
  | refl => exact ⟨hid, ht⟩
  | snoc hrun hstep ih =>
    have horderly := Run.orderly hrun hw
    rw [Lone.follow_append]
    exact ⟨Nat.lt_of_lt_of_le ih.1 (hstep.size_le horderly), hstep.tracks horderly ih.1 ih.2⟩

theorem Opened.orderly (h : Opened w) : w.timer.Orderly := by
  obtain ⟨config, parallelism, now, hnew⟩ := h.timer
  exact Timer.orderly_of_empty (Timer.new_eq_ok hnew)

/-- From when it is added on, a job that is open has its schedule where driving it alone would have
brought it, and the next tick hands the job to the runner once if that schedule is due, the timer is
running and the job is neither stopped nor closed, and not at all otherwise. Nothing can be asked
for after the last tick there is a number for, which a counter that begins at zero does not come
to. -/
theorem Run.refines {w₀ w₁ : Works} {before after : List Occurrence} {o : JobOptions}
    {now : Instant} {t : Timer} (hopened : Opened w₀) (hbefore : Run w₀ before w)
    (hadd : w.timer.addJob o now = .ok (id, t)) (hafter : Run { w with timer := t } after w₁) :
    ∃ job, Job.create o (w.timer.anchor now) = .ok job ∧
      ∃ j, w₁.timer.roster.get? id = some j ∧
        (j.isClosed = false → j.schedule = (Lone.follow ⟨job.schedule, false⟩ after).schedule) ∧
        ∀ (tick : Tick) (now : Instant), tick.val = w₁.timer.ticks.val + 1 → tick < Tick.last →
          ((w₁.timer.turnLog tick now).1.map Prod.fst).count id =
            if (Lone.follow ⟨job.schedule, false⟩ after).due tick now = true ∧
                w₁.timer.status = .running ∧ j.state.status ≠ .stopped ∧ j.state.status ≠ .closed
              then 1 else 0 := by
  have horderly := Run.orderly hbefore hopened.orderly
  obtain ⟨job, hjob, hid, htracks⟩ := horderly.tracks_addJob hadd
  obtain ⟨hid₁, htracks₁⟩ := Run.tracks hafter (horderly.addJob hadd) hid htracks
  have horderly₁ := Run.orderly hafter (horderly.addJob hadd)
  have hj : w₁.timer.roster.get? id = some w₁.timer.roster.jobs[id] :=
    Array.getElem?_eq_getElem hid₁
  refine ⟨job, hjob, _, hj, fun hopen => htracks₁.schedule _ hj hopen, ?_⟩
  intro tick now hnext hmore
  exact htracks₁.count_turnLog horderly₁ (Tick.lt_def.mpr (by omega)) hmore hj

/-- A timer that has just been created. -/
def idle : Works :=
  { timer := { config := {}, crew := { runner := { pool := .new 1 none }, clock := default } } }

/-- A job that asks for every tick. -/
def everyTick : JobOptions := { spec := .every (.ofMillis 100), callback := some fun _ => {} }

/-- A job that asks for every tick is handed over at the second one as well as at the first. -/
theorem refines_everyTick : Opened idle ∧
    ∃ t, idle.timer.addJob everyTick default = .ok (0, t) ∧
      ∃ log w, Run { idle with timer := t } [.ticked 1 default log] w ∧
        ((w.timer.turnLog 2 default).1.map Prod.fst).count 0 = 1 := by
  have hopened : Opened idle := ⟨rfl, {}, 1, default, rfl⟩
  obtain ⟨t, hadd⟩ : ∃ t, idle.timer.addJob everyTick default = .ok (0, t) := ⟨_, rfl⟩
  have hafter : Run { idle with timer := t } [.ticked 1 default (t.turnLog 1 default).1]
      { idle with timer := (t.turn 1 default).2 } :=
    .single (.tick _ _ _ (by cases hadd; rfl) (by decide))
  obtain ⟨job, hjob, j, hj, -, hcount⟩ := Run.refines hopened (.refl _) hadd hafter
  refine ⟨hopened, t, hadd, _, _, hafter, ?_⟩
  have hticks : (t.turn 1 default).2.ticks = 1 := by
    cases hadd
    decide +kernel
  have hrunning : (t.turn 1 default).2.status = .running := by
    cases hadd
    decide +kernel
  have hready : j.state.status = .ready := by
    have hstatus : ((t.turn 1 default).2.roster.get? 0).map (·.state.status) = some .ready := by
      cases hadd
      decide +kernel
    rw [hj] at hstatus
    exact Option.some.inj hstatus
  have hdue : (Lone.tick ⟨job.schedule, false⟩ 1 default).due 2 default = true := by
    cases hjob
    decide +kernel
  rw [hcount 2 default (by rw [hticks]; rfl) (by decide), if_pos]
  rw [hready]
  exact ⟨hdue, hrunning, by decide, by decide⟩

end Works

end Metronome
