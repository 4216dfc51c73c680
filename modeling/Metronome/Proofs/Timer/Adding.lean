import Metronome.Proofs.Schedule.Faults
import Metronome.Proofs.Timer.Sweeps

/-!
# Adding a job

A job is added in several steps, and some of them can fail: the timer may be closed, the description
of the schedule may make no sense, and the callback may be missing. All of them come before the
timer is changed. So a job that is refused leaves nothing behind, and a job that is not is queued
once, under the tick that its schedule asks for.

## Main definitions

* `Timer.adding` — the steps, of which those that were taken stay taken if one fails

## Main results

* `Timer.run_adding` — the steps either fail on the timer as it was or do all that adding means
* `Timer.all_or_nothing` — when a job is added, what is answered if not, and the timer afterwards
-/

namespace Metronome.Timer

variable {t : Timer} {o : JobOptions} {now : Instant}

/-- The steps in which a job is added. A failure leaves the timer as the steps before it did. -/
def adding (o : JobOptions) (now : Instant) : StateM Timer (Except SchedulerError JobId) := do
  let t ← get
  if t.status = .closed then
    return .error .closed
  match o.spec.build (t.anchor now) with
  | .error e => return .error e
  | .ok schedule =>
    match Job.ofOptions o schedule with
    | .error e => return .error e
    | .ok job =>
      let id ← modifyGet fun t =>
        let (id, roster) := t.roster.add job
        (id, t.withRoster roster)
      modify fun t => { t with queue := t.queue.push id job.schedule.nextTick }
      return .ok id

/-- Either all of the steps are taken, or none of them that changes the timer. -/
theorem run_adding (t : Timer) (o : JobOptions) (now : Instant) :
    ((adding o now).run t).run = match t.addJob o now with
      | .ok (id, t') => (.ok id, t')
      | .error e => (.error e, t) := by
  unfold adding addJob Job.create
  by_cases hclosed : t.status = .closed
  · simp [hclosed]
  · -- the timer is changed only after both of the answers on which this depends
    cases hbuild : o.spec.build (t.anchor now) with
    | error e => simp [hclosed, hbuild]
    | ok schedule =>
      cases hjob : Job.ofOptions o schedule with
      | error e => simp [hclosed, hbuild, hjob]
      | ok job => simp [hclosed, hbuild, hjob]

theorem refusal?_ofOptions (o : JobOptions) (s : Schedule) : refusal? (Job.ofOptions o s) =
    if o.callback.isNone then some (.missingCallback (o.name.getD "")) else none := by
  unfold Job.ofOptions
  cases o.callback <;> rfl

/-- What is wrong with a job is looked for in this order. -/
theorem refusal?_addJob (t : Timer) (o : JobOptions) (now : Instant) :
    refusal? (t.addJob o now) =
      if t.status = .closed then some .closed
      else (refusal? (o.spec.build (t.anchor now))).or
        (if o.callback.isNone then some (.missingCallback (o.name.getD "")) else none) := by
  unfold addJob Job.create
  split
  · rfl
  · cases o.spec.build (t.anchor now) with
    | error e => rfl
    | ok schedule =>
      dsimp only
      rw [← refusal?_ofOptions o schedule]
      cases Job.ofOptions o schedule <;> rfl

/-- A job is added to a timer that is not closed if its description is sensible and there is a
callback. -/
theorem exists_addJob_iff (t : Timer) (o : JobOptions) (now : Instant) :
    (∃ r, t.addJob o now = .ok r) ↔
      t.status ≠ .closed ∧ o.spec.Sensible (t.anchor now) ∧ o.callback ≠ none := by
  rw [← refusal?_eq_none_iff, refusal?_addJob]
  split
  · next hclosed => simp [hclosed]
  · next hopen =>
    rw [Option.or_eq_none_iff, refusal?_eq_none_iff, ScheduleSpec.exists_build_iff]
    simp [hopen]

theorem addJob_eq_error_iff (t : Timer) (o : JobOptions) (now : Instant) (e : SchedulerError) :
    t.addJob o now = .error e ↔
    (t.status = .closed ∧ e = .closed) ∨
      (t.status ≠ .closed ∧ o.spec.build (t.anchor now) = .error e) ∨
      (t.status ≠ .closed ∧ o.spec.Sensible (t.anchor now) ∧ o.callback = none ∧
        e = .missingCallback (o.name.getD "")) := by
  rw [← refusal?_eq_some_iff, refusal?_addJob]
  split
  · next hclosed => simp [hclosed, @eq_comm _ e]
  · next hopen =>
    rw [Option.or_eq_some_iff, refusal?_eq_some_iff, refusal?_eq_none_iff,
      ScheduleSpec.exists_build_iff]
    simp [hopen, @eq_comm _ e]

/-- A job that is added is queued once, under a tick that lies ahead. -/
theorem contents_addJob {id : JobId} {t' : Timer} (h : t.addJob o now = .ok (id, t')) :
    ∃ job, o.spec.build (t.anchor now) = .ok job.schedule ∧ id = t.roster.jobs.size ∧
      t'.roster.jobs = t.roster.jobs.push job ∧
      t'.queue.contents = ⟨id, job.schedule.nextTick⟩ ::ₘ t.queue.contents ∧ t'.ticks = t.ticks ∧
      (∃ n, 1 ≤ n ∧ job.schedule.nextTick = t.ticks + n) ∧
      (t.ticks < .last → t.ticks < job.schedule.nextTick) := by
  obtain ⟨job, hjob, hid, hjobs, hqueue, hticks⟩ := addJob_eq_ok h
  have hbuild := build_of_create hjob
  refine ⟨job, hbuild, hid, hjobs, ?_, hticks, ?_, ?_⟩
  · rw [hqueue, Queue.contents_push]
  · exact Schedule.exists_nextTick_of_build hbuild
  · exact Schedule.lt_nextTick_of_build hbuild

/-- A description is built just when each of its nodes makes sense, and is refused because of the
first one that does not; from the year zero on, a pattern is found to occur again just when it does.
A job is added just when the timer is not closed, its description is built and it has a callback;
what is answered otherwise is the first of these that fails, and the timer is what it was before.
When a job is added, there is one more entry in the queue, under a tick that lies ahead. -/
theorem all_or_nothing :
    (∀ (a : Anchor) (spec : ScheduleSpec),
      ((∃ s, spec.build a = .ok s) ↔ spec.Sensible a) ∧
      ∀ e, spec.build a = .error e ↔
        ∃ before node after, spec.nodes = before ++ node :: after ∧
          (∀ n ∈ before, n.fault? a = none) ∧ node.fault? a = some e) ∧
    (∀ text p now, Cron.Pattern.parse text = some p → Cron.Datable now →
      ((∃ u, p.next? now = some u) ↔ ∃ u, p.Occurs u ∧ now < u)) ∧
    ∀ (t : Timer) (o : JobOptions) (now : Instant),
      ∃ answer t', ((adding o now).run t).run = (answer, t') ∧
        t.addJob o now = answer.map (fun id => (id, t')) ∧
        ((∃ id, answer = .ok id) ↔
          t.status ≠ .closed ∧ o.spec.Sensible (t.anchor now) ∧ o.callback ≠ none) ∧
        (∀ e, answer = .error e ↔
          (t.status = .closed ∧ e = .closed) ∨
            (t.status ≠ .closed ∧ o.spec.build (t.anchor now) = .error e) ∨
            (t.status ≠ .closed ∧ o.spec.Sensible (t.anchor now) ∧ o.callback = none ∧
              e = .missingCallback (o.name.getD ""))) ∧
        (∀ e, answer = .error e → t' = t) ∧
        ∀ id, answer = .ok id →
          ∃ job, o.spec.build (t.anchor now) = .ok job.schedule ∧ id = t.roster.jobs.size ∧
            t'.roster.jobs = t.roster.jobs.push job ∧
            t'.queue.contents = ⟨id, job.schedule.nextTick⟩ ::ₘ t.queue.contents ∧
            t'.ticks = t.ticks ∧ (∃ n, 1 ≤ n ∧ job.schedule.nextTick = t.ticks + n) ∧
            (t.ticks < .last → t.ticks < job.schedule.nextTick) := by
  refine ⟨?_, ?_, ?_⟩
  · intro a spec
    exact ⟨ScheduleSpec.exists_build_iff, fun e => ScheduleSpec.build_eq_error_iff⟩
  · intro text p now hparse hnow
    exact Cron.Pattern.exists_next?_iff hparse hnow
  · intro t o now
    have hiff := exists_addJob_iff t o now
    have herror (e : SchedulerError) := addJob_eq_error_iff t o now e
    have hrun := run_adding t o now
    cases hadd : t.addJob o now with
    | ok r =>
      obtain ⟨id, t'⟩ := r
      rw [hadd] at hiff herror hrun
      refine ⟨.ok id, t', hrun, rfl, ?_, ?_, nofun, ?_⟩
      · rw [← hiff]
        simp
      · intro e
        rw [← herror]
        simp
      · rintro _ ⟨rfl⟩
        exact contents_addJob hadd
    | error e =>
      rw [hadd] at hiff herror hrun
      refine ⟨.error e, t, hrun, rfl, ?_, ?_, fun _ _ => rfl, nofun⟩
      · rw [← hiff]
        simp
      · intro e'
        rw [← herror]
        simp

/-- A job for every tick is queued under a later tick than that of the timer. With an empty union in
its description, it is refused, and the timer is what it was. -/
theorem all_or_nothing_idle :
    (∃ t' p, ((adding Works.everyTick default).run Works.idle.timer).run = (.ok 0, t') ∧
      t'.queue.contents = {⟨0, p⟩} ∧ Works.idle.timer.ticks < p) ∧
    ((adding { Works.everyTick with spec := .any [.every (.ofMillis 100), .any []] } default).run
      Works.idle.timer).run = (.error .emptyGroup, Works.idle.timer) := by
  obtain ⟨-, -, hadd⟩ := all_or_nothing
  constructor
  · obtain ⟨answer, t', hrun, -, hiff, -, -, hok⟩ :=
      hadd Works.idle.timer Works.everyTick default
    have hsensible : Works.everyTick.spec.Sensible (Works.idle.timer.anchor default) := by
      refine ScheduleSpec.sensible_iff.mpr fun node hnode => ?_
      cases List.mem_singleton.mp hnode
      rfl
    obtain ⟨id, rfl⟩ := hiff.mpr ⟨nofun, hsensible, nofun⟩
    obtain ⟨job, hbuild, hid, -, hcontents, -, -, hlater⟩ := hok id rfl
    have hzero : id = 0 := hid
    rw [hzero] at hrun hcontents
    exact ⟨t', _, hrun, hcontents, hlater (by decide)⟩
  · obtain ⟨answer, t', hrun, -, -, herror, hsame, -⟩ := hadd Works.idle.timer
      { Works.everyTick with spec := .any [.every (.ofMillis 100), .any []] } default
    have hrefused : answer = .error .emptyGroup := (herror _).mpr (.inr (.inl ⟨nofun, rfl⟩))
    rw [hrun, hsame _ hrefused, hrefused]

end Metronome.Timer
