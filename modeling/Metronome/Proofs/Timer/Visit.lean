import Metronome.Proofs.Queue.Contents
import Metronome.Proofs.Runner.Run
import Metronome.Timer.Basic

/-!
# Visits

A tick visits the jobs whose tick has come, one after the other. To see which jobs are handed to
the runner on the way, the visit, the loop and the tick are given once more with a record of every
submission; they do the same to the timer. A visit is about one job: it moves on its schedule,
queues it again, and leaves all others alone.

## Main definitions

* `Timer.visitLog`, `Timer.proceedLog`, `Timer.turnLog` — what is handed to the runner
* `Timer.Handles` — what may become of a timer besides its queue while one job is treated

## Main results

* `Timer.snd_visitLog`, `Timer.snd_proceedLog`, `Timer.snd_turnLog` — the timer is the same
* `Timer.visitLog_of_closed`, `Timer.visitLog_of_open` — what a visit does to its job
* `Timer.frame_visitLog` — what it leaves alone
-/

namespace Metronome

/-! ### Changes of one job -/

namespace Roster

variable {r r' r'' : Roster} {id other : JobId}

/-- Nothing has changed but one job. -/
def AgreeOff (id : JobId) (r r' : Roster) : Prop :=
  ∀ other, other ≠ id → r'.get? other = r.get? other

theorem AgreeOff.trans (h : AgreeOff id r r') (h' : AgreeOff id r' r'') : AgreeOff id r r'' :=
  fun other hne => (h' other hne).trans (h other hne)

theorem agreeOff_update (r : Roster) (id : JobId) (f : Job → Job) : AgreeOff id r (r.update id f) :=
  fun other hne => by rw [get?_update, if_neg hne.symm]

theorem isClosed_of_get? {j : Job} (h : r.get? id = some j) : r.isClosed id = j.isClosed := by
  rw [isClosed, h, Option.all_some]

end Roster

theorem Runner.agreeOff_submit (r : Runner) (id : JobId) :
    r.roster.AgreeOff id (r.submit id).2.roster := by
  unfold submit
  split
  · exact fun _ _ => rfl
  · cases hst : r.roster.state? id with
    | none =>
      rw [enqueue_none hst]
      exact fun _ _ => rfl
    | some st =>
      obtain ⟨-, -, heq⟩ | ⟨-, -, -, heq⟩ | ⟨-, heq⟩ := enqueue_cases hst
      · rw [heq]
        exact fun _ _ => rfl
      · rw [heq]
        exact Roster.agreeOff_update _ _ _
      · rw [heq]
        exact Roster.agreeOff_update _ _ _

theorem Runner.ages_submit (r : Runner) (id : JobId) : r.roster.Ages (r.submit id).2.roster := by
  unfold submit
  split
  · exact .refl _
  · exact (r.steady_enqueue id).roster

namespace Timer

variable {t t' t'' : Timer} {id other : JobId} {tick : Tick} {now : Instant} {dispatching : Bool}

/-- One job has been treated: it may have grown older, and nothing else has changed that the timer
keeps track of. -/
structure Handles (id : JobId) (t t' : Timer) : Prop where
  ages : t.roster.Ages t'.roster
  others : t.roster.AgreeOff id t'.roster
  queue : t'.queue = t.queue
  ticks : t'.ticks = t.ticks
  status : t'.status = t.status

theorem Handles.refl (id : JobId) (t : Timer) : Handles id t t :=
  ⟨.refl _, fun _ _ => rfl, rfl, rfl, rfl⟩

theorem Handles.trans (h : Handles id t t') (h' : Handles id t' t'') : Handles id t t'' :=
  ⟨h.ages.trans h'.ages, h.others.trans h'.others, h'.queue.trans h.queue, h'.ticks.trans h.ticks,
    h'.status.trans h.status⟩

/-! ### The record of submissions -/

/-- Hands a job to the runner, if it is to be handed over. -/
def offer (t : Timer) (id : JobId) (fires : Bool) : List (JobId × Submission) × Timer :=
  if fires then
    let (answer, t) := t.trigger id
    ([(id, answer)], t)
  else ([], t)

/-- What follows the look at the schedule of a job: the job is handed over and queued again. -/
def resume (t : Timer) (id : JobId) (tick : Tick) (advance : Advance) (fires : Bool) :
    List (JobId × Submission) × Timer :=
  let t := if fires && advance.exhausted then
      t.withRoster (t.roster.updateState id (·.capRuns 1)) else t
  let (log, t) := t.offer id fires
  let submitted := log.any fun entry => entry.2 != .refused
  (log,
    if advance.exhausted then
      if submitted then t else t.withRoster (t.roster.update id Job.close)
    else { t with queue := t.queue.push id (max advance.nextTick (tick + 1)) })

/-- A visit, with what is handed to the runner. -/
def visitLog (t : Timer) (id : JobId) (tick : Tick) (now : Instant) (dispatching : Bool) :
    List (JobId × Submission) × Timer :=
  if t.roster.isClosed id then ([], t)
  else
    match t.roster.updateWith id fun j => j.checkSchedule tick now with
    | (none, _) => ([], t)
    | (some advance, roster) =>
      let t := t.withRoster roster
      let stopped := (t.roster.state? id).any fun s => s.status == .stopped
      t.resume id tick advance (advance.due && dispatching && !stopped)

/-- Up to `fuel` visits, with what is handed to the runner, in order. -/
def proceedLog (t : Timer) (tick : Tick) (now : Instant) (dispatching : Bool) :
    (fuel : Nat) → List (JobId × Submission) × Timer
  | 0 => ([], t)
  | fuel + 1 =>
    match t.queue.popDue tick with
    | none => ([], t)
    | some (e, queue) =>
      let (first, t) := { t with queue := queue }.visitLog e.value tick now dispatching
      let (rest, t) := t.proceedLog tick now dispatching fuel
      (first ++ rest, t)

/-- A tick, with what is handed to the runner, in order. -/
def turnLog (t : Timer) (tick : Tick) (now : Instant) : List (JobId × Submission) × Timer :=
  let (_, t) := { t with ticks := tick }.reapIfAsked
  if tick < t.queue.nextPriority then ([], t)
  else t.proceedLog tick now (t.status == .running) t.queue.size

theorem snd_offer (t : Timer) (id : JobId) (fires : Bool) :
    ((t.offer id fires).1.any fun entry => entry.2 != .refused, (t.offer id fires).2) =
      if fires then
        let (answer, t) := t.trigger id
        (answer != .refused, t)
      else (false, t) := by
  cases fires with
  | true => exact congrArg (·, (t.trigger id).2) (Bool.or_false _)
  | false => rfl

theorem snd_visitLog :
    (t.visitLog id tick now dispatching).2 = t.visit id tick now dispatching := by
  unfold visitLog visit
  by_cases hclosed : t.roster.isClosed id = true
  · rw [if_pos hclosed, if_pos hclosed]
  · rw [if_neg hclosed, if_neg hclosed]
    -- both go on in the same way with what the look at the schedule yields
    generalize t.roster.updateWith id (fun j => j.checkSchedule tick now) = checked
    obtain ⟨_ | advance, roster⟩ := checked
    · rfl
    · unfold resume
      dsimp only
      rw [← snd_offer]

theorem proceedLog_of_none (h : t.queue.popDue tick = none) (fuel : Nat) :
    t.proceedLog tick now dispatching fuel = ([], t) := by
  cases fuel with
  | zero => rfl
  | succ fuel => rw [proceedLog, h]

theorem proceedLog_of_some {e : Entry JobId} {queue : Queue JobId}
    (h : t.queue.popDue tick = some (e, queue)) (fuel : Nat) :
    t.proceedLog tick now dispatching (fuel + 1) =
      let visited := { t with queue := queue }.visitLog e.value tick now dispatching
      let rest := visited.2.proceedLog tick now dispatching fuel
      (visited.1 ++ rest.1, rest.2) := by
  rw [proceedLog, h]

theorem snd_proceedLog (t : Timer) (fuel : Nat) :
    (t.proceedLog tick now dispatching fuel).2 = t.proceedFuel tick now dispatching fuel := by
  induction fuel generalizing t with
  | zero => rfl
  | succ fuel ih =>
    cases hpop : t.queue.popDue tick with
    | none => rw [proceedLog_of_none hpop, proceedFuel, hpop]
    | some popped =>
      obtain ⟨e, queue⟩ := popped
      rw [proceedLog_of_some hpop, proceedFuel, hpop]
      dsimp only
      rw [ih, snd_visitLog]

/-- The record changes nothing. -/
theorem snd_turnLog (t : Timer) (tick : Tick) (now : Instant) :
    (t.turnLog tick now).2 = (t.turn tick now).2 := by
  unfold turnLog turn
  dsimp only
  split
  · rfl
  · exact snd_proceedLog _ _

/-! ### What a visit does -/

theorem handles_withRoster {roster : Roster} (hages : t.roster.Ages roster)
    (hothers : t.roster.AgreeOff id roster) : Handles id t (t.withRoster roster) :=
  ⟨hages, hothers, rfl, rfl, rfl⟩

theorem handles_offer (t : Timer) (id : JobId) (fires : Bool) :
    Handles id t (t.offer id fires).2 := by
  cases fires with
  | true => exact ⟨Runner.ages_submit _ _, Runner.agreeOff_submit _ _, rfl, rfl, rfl⟩
  | false => exact .refl id t

theorem map_fst_offer (t : Timer) (id : JobId) (fires : Bool) :
    (t.offer id fires).1.map Prod.fst = if fires then [id] else [] := by
  cases fires <;> rfl

/-- The budget of the run that will be the last one. -/
theorem handles_cap (t : Timer) (id : JobId) (last : Bool) :
    Handles id t (if last then t.withRoster (t.roster.updateState id (·.capRuns 1)) else t) := by
  cases last with
  | true =>
    exact handles_withRoster (Roster.ages_updateState (f := (·.capRuns 1)) (fun _ => rfl) _ _)
      (Roster.agreeOff_update _ _ _)
  | false => exact .refl id t

theorem handles_close (t : Timer) (id : JobId) (submitted : Bool) :
    Handles id t (if submitted then t else t.withRoster (t.roster.update id Job.close)) := by
  cases submitted with
  | true => exact .refl id t
  | false =>
    exact handles_withRoster (Roster.ages_of_keeps Job.keeps_close _ _)
      (Roster.agreeOff_update _ _ _)

theorem map_fst_resume (t : Timer) (id : JobId) (tick : Tick) (advance : Advance) (fires : Bool) :
    (t.resume id tick advance fires).1.map Prod.fst = if fires then [id] else [] :=
  map_fst_offer _ id fires

theorem resume_of_exhausted {advance : Advance} (h : advance.exhausted = true) (t : Timer)
    (id : JobId) (tick : Tick) (fires : Bool) :
    Handles id t (t.resume id tick advance fires).2 := by
  unfold resume
  dsimp only
  rw [if_pos h]
  exact ((t.handles_cap id _).trans (handles_offer _ id fires)).trans (handles_close _ id _)

theorem resume_of_live {advance : Advance} (h : advance.exhausted = false) (t : Timer)
    (id : JobId) (tick : Tick) (fires : Bool) :
    ∃ t', Handles id t t' ∧ (t.resume id tick advance fires).2 =
      { t' with queue := t'.queue.push id (max advance.nextTick (tick + 1)) } := by
  refine ⟨_, (t.handles_cap id (fires && advance.exhausted)).trans (handles_offer _ id fires), ?_⟩
  unfold resume
  dsimp only
  rw [if_neg (Bool.eq_false_iff.mp h)]

/-- Neither the other jobs nor what the timer says of itself have changed. -/
structure Frame (t : Timer) (id : JobId) (t' : Timer) : Prop where
  size : t'.roster.jobs.size = t.roster.jobs.size
  others : t.roster.AgreeOff id t'.roster
  ticks : t'.ticks = t.ticks
  status : t'.status = t.status

theorem Frame.refl (t : Timer) (id : JobId) : Frame t id t := ⟨rfl, fun _ _ => rfl, rfl, rfl⟩

/-- A visit has moved on the schedule of a job and queued the job again, unless it is exhausted. -/
structure Visited (t : Timer) (id : JobId) (tick : Tick) (checked : Advance × Schedule)
    (t' : Timer) : Prop extends Frame t id t' where
  schedule : t'.roster.schedule? id = some checked.2
  queue : t'.queue =
    if checked.1.exhausted then t.queue
    else t.queue.push id (max checked.1.nextTick (tick + 1))

theorem visitLog_of_closed (h : t.roster.isClosed id = true) :
    t.visitLog id tick now dispatching = ([], t) := by
  rw [visitLog, if_pos h]

/-- An open job is handed over if its schedule is due and neither it nor the timer is stopped. -/
theorem visitLog_of_open {j : Job} (hj : t.roster.get? id = some j) (hopen : j.isClosed = false)
    (tick : Tick) (now : Instant) (dispatching : Bool) :
    Visited t id tick (j.schedule.check tick now) (t.visitLog id tick now dispatching).2 ∧
      (t.visitLog id tick now dispatching).1.map Prod.fst =
        if (j.schedule.check tick now).1.due && dispatching && !(j.state.status == .stopped) then
          [id]
        else [] := by
  have hnot : ¬ t.roster.isClosed id = true := by
    rw [Roster.isClosed_of_get? hj, hopen]
    decide
  -- the timer once the schedule has moved on
  let t₁ := t.withRoster (t.roster.update id fun j => (j.checkSchedule tick now).2)
  have hget : t₁.roster.get? id = some (j.checkSchedule tick now).2 := by
    have hupdate : t₁.roster.get? id = _ := Roster.get?_update _ _ _ _
    rw [hupdate, if_pos rfl, hj, Option.map_some]
  have hstopped : ((t₁.roster.state? id).any fun s => s.status == .stopped) =
      (j.state.status == .stopped) := by
    rw [Roster.state?, hget]
    rfl
  have hvisit : t.visitLog id tick now dispatching =
      t₁.resume id tick (j.schedule.check tick now).1
        ((j.schedule.check tick now).1.due && dispatching && !(j.state.status == .stopped)) := by
    rw [visitLog, if_neg hnot, Roster.updateWith_of_get? hj, ← hstopped]
    rfl
  have hschedule : t₁.roster.schedule? id = some (j.schedule.check tick now).2 := by
    rw [Roster.schedule?, hget]
    rfl
  have hframe (t' : Timer) (h : Handles id t₁ t') : Frame t id t' :=
    ⟨h.ages.size.trans (Roster.size_update _ _ _),
      (Roster.agreeOff_update _ _ _).trans h.others, h.ticks, h.status⟩
  rw [hvisit]
  refine ⟨?_, map_fst_resume _ _ _ _ _⟩
  cases hexhausted : (j.schedule.check tick now).1.exhausted with
  | true =>
    have hhandles := resume_of_exhausted hexhausted t₁ id tick
      ((j.schedule.check tick now).1.due && dispatching && !(j.state.status == .stopped))
    refine ⟨hframe _ hhandles, (hhandles.ages.schedule id).trans hschedule, ?_⟩
    rw [hhandles.queue, if_pos hexhausted]
    rfl
  | false =>
    obtain ⟨t', hhandles, heq⟩ := resume_of_live hexhausted t₁ id tick
      ((j.schedule.check tick now).1.due && dispatching && !(j.state.status == .stopped))
    have hframe' := hframe t' hhandles
    rw [heq]
    refine ⟨⟨hframe'.size, hframe'.others, hframe'.ticks, hframe'.status⟩,
      (hhandles.ages.schedule id).trans hschedule, ?_⟩
    rw [if_neg (Bool.eq_false_iff.mp hexhausted), hhandles.queue]
    rfl

/-- Whatever a visit does, it does to one job and its place in the queue. -/
theorem frame_visitLog (t : Timer) (id : JobId) (tick : Tick) (now : Instant) (dispatching : Bool) :
    Frame t id (t.visitLog id tick now dispatching).2 ∧
      (∀ other ∈ (t.visitLog id tick now dispatching).1.map Prod.fst, other = id) ∧
      ((t.visitLog id tick now dispatching).2.queue = t.queue ∨
        ∃ p, (t.visitLog id tick now dispatching).2.queue =
          t.queue.push id (max p (tick + 1))) := by
  cases hclosed : t.roster.isClosed id with
  | true =>
    rw [visitLog_of_closed hclosed]
    exact ⟨.refl t id, fun _ h => absurd h List.not_mem_nil, Or.inl rfl⟩
  | false =>
    cases hj : t.roster.get? id with
    | none =>
      rw [Roster.isClosed, hj] at hclosed
      cases hclosed
    | some j =>
      rw [Roster.isClosed_of_get? hj] at hclosed
      obtain ⟨hvisited, hlog⟩ := visitLog_of_open hj hclosed tick now dispatching
      refine ⟨hvisited.toFrame, fun other hother => ?_, ?_⟩
      · rw [hlog] at hother
        split at hother
        · exact List.mem_singleton.mp hother
        · cases hother
      · rw [hvisited.queue]
        split
        · exact Or.inl rfl
        · exact Or.inr ⟨_, rfl⟩

end Timer

end Metronome
