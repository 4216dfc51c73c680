import Metronome.Proofs.Schedule.Forward
import Metronome.Proofs.Timer.Places

/-!
# The visits of a tick

The loop of a tick takes jobs out of the very queue into which it puts them back. It comes to its
end because a job that was looked at goes back under the tick that its schedule asks for, which is a
later one; so what is due when the loop begins is all that it visits, whatever happens meanwhile. A
job leaves the queue for good only when it is closed or when its schedule is exhausted.

Here a tick is taken apart into its visits, between which jobs may be added and treated, and the
crew goes on.

## Main definitions

* `Queue.ripe` — the entries whose tick has come
* `Timer.Listed` — each job is queued once at most, under the tick that its schedule asks for
* `Patrol`, `Patrol.Step`, `Patrol.Run` — a timer whose tick thread goes from job to job
* `Patrol.Kept` — the queue of a timer with regard to what has happened

## Main results

* `Patrol.Run.kept` — the queue is in order throughout a run
* `Patrol.Run.ripe` — what has been visited and what is due are what was due at the beginning
* `Patrol.run_alone` — the tick thread comes to the end of the loop
* `Patrol.Run.integrity` — the queue between two ticks, and the loop of a tick
-/

namespace Metronome

/-! ### Entries that are due -/

namespace Queue

variable {α : Type} {q rest : Queue α} {e : Entry α} {tick p : Tick}

/-- The entries whose tick has come. -/
def ripe (q : Queue α) (tick : Tick) : Multiset (Entry α) :=
  q.contents.filter fun e => e.priority ≤ tick

theorem card_ripe (q : Queue α) (tick : Tick) : (q.ripe tick).card = q.due tick :=
  (Multiset.countP_eq_card_filter _ _).symm

theorem ripe_push (h : tick < p) (v : α) : (q.push v p).ripe tick = q.ripe tick := by
  rw [ripe, contents_push, Multiset.filter_cons_of_neg]
  · rfl
  · exact Int.not_le.mpr h

theorem ripe_popDue (h : q.popDue tick = some (e, rest)) : q.ripe tick = e ::ₘ rest.ripe tick := by
  obtain ⟨-, -, -, hle⟩ := popDue_eq_some h
  rw [ripe, contents_popDue h,
    Multiset.filter_cons_of_pos (p := fun e : Entry α => e.priority ≤ tick) _ hle]
  rfl

theorem WF.ripe_of_none (h : q.WF) (hnone : q.popDue tick = none) : q.ripe tick = 0 := by
  refine Multiset.filter_eq_nil.mpr ?_
  intro e he
  exact Int.not_le.mpr (h.lt_of_popDue_eq_none hnone (mem_contents.mp he))

/-- What is due is due once for each value, if every value is in the queue once at most. -/
theorem nodup_ripe [DecidableEq α] (h : ∀ v, (q.places v).card ≤ 1) (tick : Tick) :
    ((q.ripe tick).map Entry.value).Nodup := by
  refine Multiset.nodup_iff_count_le_one.mpr ?_
  intro v
  refine le_trans ?_ (h v)
  rw [Multiset.count_map, places, Multiset.card_map, ripe]
  simp only [eq_comm (a := v)]
  exact Multiset.card_le_card (Multiset.filter_le_filter _ (Multiset.filter_le _ _))

theorem places_popDue_le [DecidableEq α] (h : q.popDue tick = some (e, rest)) (v : α) :
    rest.places v ≤ q.places v := by
  unfold places
  rw [contents_popDue h]
  exact Multiset.map_le_map (Multiset.filter_le_filter _ (Multiset.le_cons_self _ _))

end Queue

/-! ### Jobs in the queue -/

namespace Timer

variable {t t' : Timer} {id : JobId} {tick : Tick} {now : Instant} {dispatching : Bool}

/-- Each job is queued once at most, under the tick that its schedule asks for. -/
structure Listed (t : Timer) : Prop extends Orderly t where
  sound : ∀ id s, t.roster.schedule? id = some s → s.Sound
  once : ∀ id, (t.queue.places id).card ≤ 1
  priority : ∀ e ∈ t.queue.entries,
    (t.roster.schedule? e.value).map Schedule.nextTick = some e.priority

/-- Entries may leave the queue. -/
theorem Listed.of_places_le (h : t.Listed) (horderly : t'.Orderly)
    (hschedule : ∀ id, t'.roster.schedule? id = t.roster.schedule? id)
    (hplaces : ∀ id, t'.queue.places id ≤ t.queue.places id) : t'.Listed := by
  refine ⟨horderly, ?_, ?_, ?_⟩
  · intro id s hs
    exact h.sound id s ((hschedule id).symm.trans hs)
  · intro id
    exact (Multiset.card_le_card (hplaces id)).trans (h.once id)
  · intro e he
    rw [hschedule]
    exact h.priority e (Queue.mem_places.mp (Multiset.mem_of_le (hplaces e.value)
      (Queue.mem_places.mpr he)))

/-- A job that only grows older stays where it is. -/
theorem Listed.of_ages (h : t.Listed) (hages : t.roster.Ages t'.roster)
    (hqueue : t'.queue = t.queue) : t'.Listed :=
  h.of_places_le (h.toOrderly.of_ages hages hqueue) hages.schedule fun id => by rw [hqueue]

theorem listed_of_empty (hqueue : t.queue = .empty) (hjobs : t.roster.jobs = #[]) : t.Listed := by
  refine ⟨orderly_of_empty hqueue, ?_, ?_, ?_⟩
  · intro id s hs
    rw [Roster.schedule?, Roster.get?, hjobs] at hs
    simp at hs
  · intro id
    rw [hqueue]
    exact Nat.zero_le 1
  · intro e he
    rw [hqueue] at he
    exact absurd he (Array.not_mem_empty e)

/-- The schedule of a job that is not in the queue may move on. -/
theorem Listed.of_others {s : Schedule} (h : t.Listed) (hnone : t.queue.places id = 0)
    (hsize : t.roster.jobs.size ≤ t'.roster.jobs.size) (hqueue : t'.queue = t.queue)
    (hs : t'.roster.schedule? id = some s) (hsound : s.Sound)
    (hothers : ∀ other ≠ id, t'.roster.schedule? other = t.roster.schedule? other) :
    t'.Listed := by
  refine ⟨⟨by rw [hqueue]; exact h.wf, ?_⟩, ?_, ?_, ?_⟩
  · intro e he
    exact Nat.lt_of_lt_of_le (h.known e (hqueue ▸ he)) hsize
  · intro other s' hs'
    by_cases hid : other = id
    · subst hid
      rw [← Option.some.inj (hs.symm.trans hs')]
      exact hsound
    · exact h.sound other s' ((hothers other hid).symm.trans hs')
  · intro other
    rw [hqueue]
    exact h.once other
  · intro e he
    rw [hqueue] at he
    have hid : e.value ≠ id := by
      rintro rfl
      exact absurd (Queue.mem_places.mpr he) (by rw [hnone]; exact Multiset.notMem_zero _)
    rw [hothers e.value hid]
    exact h.priority e he

/-- A job that is not in the queue may go there, under the tick that its schedule asks for. -/
theorem Listed.push {s : Schedule} (h : t.Listed) (hnone : t.queue.places id = 0)
    (hid : id < t.roster.jobs.size) (hs : t.roster.schedule? id = some s) :
    { t with queue := t.queue.push id s.nextTick }.Listed := by
  refine ⟨⟨h.wf.push _ _, ?_⟩, h.sound, ?_, ?_⟩
  · intro e he
    rcases Queue.mem_push.mp he with he | rfl
    · exact h.known e he
    · exact hid
  · intro other
    rw [Queue.card_places_push]
    by_cases hother : id = other
    · subst hother
      simp [hnone]
    · simpa [hother] using h.once other
  · intro e he
    rcases Queue.mem_push.mp he with he | rfl
    · exact h.priority e he
    · exact congrArg (Option.map Schedule.nextTick) hs

/-- The schedule of a job that was created is the one of its description. -/
theorem build_of_create {o : JobOptions} {a : Anchor} {j : Job} (h : Job.create o a = .ok j) :
    o.spec.build a = .ok j.schedule := by
  unfold Job.create at h
  split at h
  · cases h
  · next schedule hbuild =>
    unfold Job.ofOptions at h
    split at h
    · cases h
    · cases h
      exact hbuild

/-- A job that is added asks for a later tick. -/
theorem Listed.addJob {o : JobOptions} (h : t.Listed) (hticks : t.ticks < .last)
    (hadd : t.addJob o now = .ok (id, t')) :
    t'.Listed ∧ ∃ p, t'.queue = t.queue.push id p ∧ t.ticks < p := by
  obtain ⟨job, hjob, rfl, hjobs, hqueue, -⟩ := addJob_eq_ok hadd
  have hbuild := build_of_create hjob
  have hget (id : JobId) : t'.roster.get? id =
      if id = t.roster.jobs.size then some job else t.roster.get? id := by
    rw [Roster.get?, hjobs, Array.getElem?_push]
    rfl
  have hschedule : t'.roster.schedule? t.roster.jobs.size = some job.schedule := by
    rw [Roster.schedule?, hget, if_pos rfl, Option.map_some]
  have hnone : t.queue.places t.roster.jobs.size = 0 := by
    refine Multiset.eq_zero_of_forall_notMem ?_
    intro p hp
    exact absurd (h.known _ (Queue.mem_places.mp hp)) (Nat.lt_irrefl _)
  have hsize : t'.roster.jobs.size = t.roster.jobs.size + 1 := by
    rw [hjobs, Array.size_push]
  have hothers : ∀ other ≠ t.roster.jobs.size,
      t'.roster.schedule? other = t.roster.schedule? other := by
    intro other hother
    rw [Roster.schedule?, hget, if_neg hother]
    rfl
  -- the job is there, but not in the queue yet
  have hcreated : { t' with queue := t.queue }.Listed :=
    h.of_others hnone (Nat.le_of_lt (hsize ▸ Nat.lt_succ_self _)) rfl hschedule
      (Schedule.sound_of_build _ _ _ hbuild) hothers
  refine ⟨?_, _, hqueue, Schedule.lt_nextTick_of_build hbuild hticks⟩
  have hadded := hcreated.push hnone (hsize ▸ Nat.lt_succ_self _) hschedule
  rwa [← hqueue] at hadded

/-- A visit of a job that has left the queue. -/
theorem Listed.visitLog (h : t.Listed) (hnone : t.queue.places id = 0)
    (hid : id < t.roster.jobs.size) (htick : tick < .last) :
    (t.visitLog id tick now dispatching).2.Listed := by
  cases hclosed : t.roster.isClosed id with
  | true =>
    rw [visitLog_of_closed hclosed]
    exact h
  | false =>
    have hj : t.roster.get? id = some t.roster.jobs[id] := Array.getElem?_eq_getElem hid
    rw [Roster.isClosed_of_get? hj] at hclosed
    obtain ⟨hvisited, -⟩ := visitLog_of_open hj hclosed tick now dispatching
    generalize (t.visitLog id tick now dispatching).2 = t' at hvisited
    have hsound := h.sound id _ (by rw [Roster.schedule?, hj, Option.map_some])
    have hlooked : { t' with queue := t.queue }.Listed := by
      refine h.of_others hnone hvisited.size.ge rfl hvisited.schedule (hsound.check tick now) ?_
      intro other hother
      exact congrArg (Option.map Job.schedule) (hvisited.others other hother)
    have hqueue := hvisited.queue
    split at hqueue
    · rwa [← hqueue] at hlooked
    · next hlive =>
      -- the schedule itself asks for a later tick
      have hlive := Bool.eq_false_iff.mpr hlive
      have hlater : tick < (t.roster.jobs[id].schedule.check tick now).1.nextTick :=
        hsound.lt_nextTick_check htick
      have hpushed := hlooked.push hnone (hvisited.size ▸ hid) hvisited.schedule
      rw [Tick.max_add_one htick hlater, ← Schedule.nextTick_check _ tick now hlive] at hqueue
      rwa [← hqueue] at hpushed

/-- A visit hands over the job that is visited, if any. -/
theorem handed_visitLog (t : Timer) (id : JobId) (tick : Tick) (now : Instant)
    (dispatching : Bool) : ((t.visitLog id tick now dispatching).1.map Prod.fst).Sublist [id] := by
  cases hclosed : t.roster.isClosed id with
  | true =>
    rw [visitLog_of_closed hclosed]
    exact List.nil_sublist _
  | false =>
    cases hj : t.roster.get? id with
    | none =>
      rw [Roster.isClosed, hj] at hclosed
      cases hclosed
    | some j =>
      rw [Roster.isClosed_of_get? hj] at hclosed
      rw [(visitLog_of_open hj hclosed tick now dispatching).2]
      split
      · exact List.Sublist.refl _
      · exact List.nil_sublist _

end Timer

/-! ### A timer whose tick thread goes from job to job -/

/-- What is seen of a step. -/
inductive Episode
  | added (id : JobId)
  /-- The timer was resumed or stopped. -/
  | switched
  /-- A thread of the crew, or someone who treats a job, has taken a step. -/
  | worked (e : Event)
  /-- A tick has begun. -/
  | ticked (tick : Tick) (now : Instant)
  /-- A job was taken out of the queue and visited. Unless it was closed, its schedule has given an
  answer, and the runner may have got it. -/
  | visited (entry : Entry JobId) (answer : Option Advance) (handed : List (JobId × Submission))
  /-- There was no further job whose tick has come. -/
  | rested

namespace Episode

/-- The entry that was visited. -/
def entry? : Episode → Option (Entry JobId)
  | .visited e _ _ => some e
  | _ => none

/-- What the tick thread has handed to the runner. -/
def handed : Episode → List (JobId × Submission)
  | .visited _ _ handed => handed
  | _ => []

/-- The schedule of a job has said that it is exhausted. -/
def Exhausts (id : JobId) : Episode → Prop
  | .visited e (some advance) _ => e.value = id ∧ advance.exhausted = true
  | _ => False

end Episode

/-- The entries that were visited, in order. -/
def visits (es : List Episode) : List (Entry JobId) := es.filterMap Episode.entry?

/-- The jobs that were handed over by the tick thread, in order. -/
def handovers (es : List Episode) : List JobId := es.flatMap fun o => o.handed.map Prod.fst

/-- A timer with the threads around its crew, and the tick on which its jobs are visited. -/
structure Patrol extends Works where
  sweep : Option Sweep := none

namespace Patrol

/-- The jobs of the timer. -/
abbrev roster (p : Patrol) : Roster := p.timer.roster

/-- The queue of the timer. -/
abbrev queue (p : Patrol) : Queue JobId := p.timer.queue

/-- What the schedule of a job answers that is not closed. -/
def answer? (p : Patrol) (sweep : Sweep) (id : JobId) : Option Advance :=
  if p.roster.isClosed id then none
  else (p.roster.schedule? id).map fun s => (s.check sweep.tick sweep.now).1

/-- The beginning of a tick: closed jobs are cleared out, and the loop begins unless the least tick
in the queue is yet to come. -/
def tickOver (p : Patrol) (tick : Tick) (now : Instant) : Patrol :=
  let t := p.timer.reaped tick
  { p with
    timer := t
    sweep :=
      if tick < t.queue.nextPriority then none else some ⟨tick, now, t.status == .running⟩ }

/-- A job has left the queue and is visited. -/
def visit (p : Patrol) (sweep : Sweep) (id : JobId) (queue : Queue JobId) :
    List (JobId × Submission) × Timer :=
  { p.timer with queue := queue }.visitLog id sweep.tick sweep.now sweep.dispatching

/-- What happens without being interrupted. -/
inductive Step : Patrol → Episode → Patrol → Prop
  | add (p : Patrol) (o : JobOptions) (now : Instant) (id : JobId) (t : Timer)
      (added : p.timer.addJob o now = .ok (id, t)) :
      Step p (.added id) { p with timer := t }
  | start (p : Patrol) : Step p .switched { p with timer := p.timer.start.2 }
  | stop (p : Patrol) : Step p .switched { p with timer := p.timer.stop.2 }
  | work (p : Patrol) (e : Event) (s : Shift) (step : Shift.Step p.shift e s) :
      Step p (.worked e) { p with toWorks := p.withShift s }
  /-- The numbers of the ticks go up, and do not reach the last one. -/
  | tick (p : Patrol) (tick : Tick) (now : Instant) (idle : p.sweep = none)
      (later : p.timer.ticks < tick) (more : tick < .last) :
      Step p (.ticked tick now) (p.tickOver tick now)
  | visit (p : Patrol) (sweep : Sweep) (e : Entry JobId) (queue : Queue JobId)
      (busy : p.sweep = some sweep) (due : p.queue.popDue sweep.tick = some (e, queue)) :
      Step p (.visited e (p.answer? sweep e.value) (p.visit sweep e.value queue).1)
        { p with timer := (p.visit sweep e.value queue).2 }
  | rest (p : Patrol) (sweep : Sweep) (busy : p.sweep = some sweep)
      (none : p.queue.popDue sweep.tick = none) :
      Step p .rested { p with sweep := Option.none }

/-- An interleaving of steps. -/
abbrev Run : Patrol → List Episode → Patrol → Prop := Course Step

/-- A timer that has just been created. -/
structure Opened (p : Patrol) : Prop where
  works : p.toWorks.Opened
  sweep : p.sweep = none

/-- The queue of a timer with regard to what has happened. -/
structure Kept (p : Patrol) (es : List Episode) : Prop where
  listed : p.timer.Listed
  more : p.timer.ticks < .last
  sweep : ∀ sweep, p.sweep = some sweep → sweep.tick = p.timer.ticks
  later : p.sweep = none → ∀ e ∈ p.queue.entries, p.timer.ticks < e.priority
  added : ∀ id, .added id ∈ es → id < p.roster.jobs.size
  queued : ∀ id < p.roster.jobs.size, p.roster.isClosed id = false →
    (∀ o ∈ es, ¬ o.Exhausts id) → p.queue.places id ≠ 0

variable {p q r : Patrol} {o : Episode} {es fs : List Episode} {sweep : Sweep} {id : JobId}

/-! ### One step -/

theorem added_of_mem (h : .added id ∈ es ++ [o]) (ho : o ≠ .added id) : .added id ∈ es :=
  (List.mem_append.mp h).resolve_right fun h => ho (List.mem_singleton.mp h).symm

/-- Jobs may grow older. -/
theorem Kept.of_ages (h : p.Kept es) (hages : p.roster.Ages q.roster) (hqueue : q.queue = p.queue)
    (hticks : q.timer.ticks = p.timer.ticks) (hsweep : q.sweep = p.sweep)
    (ho : ∀ id, o ≠ .added id) : q.Kept (es ++ [o]) := by
  refine ⟨h.listed.of_ages hages hqueue, ?_, ?_, ?_, ?_, ?_⟩
  · rw [hticks]
    exact h.more
  · rw [hsweep, hticks]
    exact h.sweep
  · rw [hsweep, hqueue, hticks]
    exact h.later
  · intro id hid
    rw [hages.size]
    exact h.added id (added_of_mem hid (ho id))
  · intro id hid hopen hlive
    rw [hqueue]
    refine h.queued id (hages.size ▸ hid) ?_ ?_
    · exact Bool.eq_false_iff.mpr fun hclosed =>
        Bool.eq_false_iff.mp hopen (hages.closed id hclosed)
    · intro o ho
      exact hlive o (List.mem_append_left _ ho)

theorem Kept.add {o : JobOptions} {now : Instant} {t : Timer} (h : p.Kept es)
    (hadd : p.timer.addJob o now = .ok (id, t)) :
    Kept { p with timer := t } (es ++ [.added id]) := by
  obtain ⟨hlisted, tick, hqueue, hlater⟩ := h.listed.addJob h.more hadd
  obtain ⟨job, -, rfl, hjobs, -, hticks⟩ := Timer.addJob_eq_ok hadd
  have hsize : t.roster.jobs.size = p.roster.jobs.size + 1 := by
    rw [hjobs, Array.size_push]
  refine ⟨hlisted, hticks ▸ h.more, hticks ▸ h.sweep, ?_, ?_, ?_⟩
  · intro hidle e he
    change e ∈ t.queue.entries at he
    rw [hqueue] at he
    rw [hticks]
    rcases Queue.mem_push.mp he with he | rfl
    · exact h.later hidle e he
    · exact hlater
  · intro id hid
    rw [hsize]
    rcases List.mem_append.mp hid with hid | hid
    · exact Nat.lt_succ_of_lt (h.added id hid)
    · cases List.mem_singleton.mp hid
      exact Nat.lt_succ_self _
  · intro id hid hopen hlive
    change id < t.roster.jobs.size at hid
    change t.queue.places id ≠ 0
    rw [hqueue]
    by_cases hnew : p.roster.jobs.size = id
    · subst hnew
      rw [Queue.places_push_self]
      exact Multiset.cons_ne_zero
    · have hold : id < p.roster.jobs.size := by omega
      have hget : t.roster.get? id = p.roster.get? id := by
        rw [Roster.get?, hjobs, Array.getElem?_push, if_neg (Nat.ne_of_lt hold)]
        rfl
      rw [Queue.places_push_of_ne hnew]
      refine h.queued id hold ?_ fun o ho => hlive o (List.mem_append_left _ ho)
      rwa [Roster.isClosed, ← hget]

theorem Kept.tickOver {tick : Tick} (h : p.Kept es) (more : tick < .last) (now : Instant) :
    (p.tickOver tick now).Kept (es ++ [.ticked tick now]) := by
  have hreaped := h.listed.toOrderly.reaped tick
  have hschedule (id : JobId) :
      (p.timer.reaped tick).roster.schedule? id = p.roster.schedule? id :=
    congrArg (Option.map Job.schedule) (hreaped.get id)
  refine ⟨h.listed.of_places_le hreaped.orderly hschedule (p.timer.places_reaped_le tick), ?_, ?_,
    ?_, ?_, ?_⟩
  · exact hreaped.ticks.symm ▸ more
  · intro sweep hsweep
    refine Eq.trans ?_ hreaped.ticks.symm
    unfold Patrol.tickOver at hsweep
    dsimp only at hsweep
    split at hsweep
    · cases hsweep
    · cases hsweep
      rfl
  · intro hidle
    unfold Patrol.tickOver at hidle
    dsimp only at hidle
    split at hidle
    · next hlater =>
      change ∀ e ∈ (p.timer.reaped tick).queue.entries, (p.timer.reaped tick).ticks < e.priority
      rw [hreaped.ticks]
      exact (hreaped.orderly.wf.lt_next_iff more).mp hlater
    · cases hidle
  · intro id hid
    exact hreaped.size.symm ▸ h.added id (added_of_mem hid nofun)
  · intro id hid hopen hlive
    have hopen' : p.roster.isClosed id = false := by
      rw [Roster.isClosed, ← hreaped.get]
      exact hopen
    change (p.timer.reaped tick).queue.places id ≠ 0
    rw [hreaped.places id hopen']
    exact h.queued id (hreaped.size ▸ hid) hopen' fun o ho => hlive o (List.mem_append_left _ ho)

/-- A visited job is in the queue again, unless it is closed or its schedule is exhausted. -/
theorem places_visit_self {queue : Queue JobId}
    (hid : id < (p.visit sweep id queue).2.roster.jobs.size)
    (hopen : (p.visit sweep id queue).2.roster.isClosed id = false)
    (hlive : ∀ advance, p.answer? sweep id = some advance → advance.exhausted = false) :
    (p.visit sweep id queue).2.queue.places id ≠ 0 := by
  let t : Timer := { p.timer with queue := queue }
  have hframe := (t.frame_visitLog id sweep.tick sweep.now sweep.dispatching).1
  have hj : p.roster.get? id = some _ := Array.getElem?_eq_getElem (hframe.size ▸ hid)
  cases hclosed : p.roster.isClosed id with
  | true =>
    -- a closed job is dropped, and is closed still
    rw [visit, Timer.visitLog_of_closed (t := t) hclosed] at hopen
    exact absurd (hclosed.symm.trans hopen) nofun
  | false =>
    have hanswer : p.answer? sweep id = some _ :=
      (if_neg (Bool.eq_false_iff.mp hclosed)).trans (by rw [Roster.schedule?, hj]; rfl)
    rw [Roster.isClosed_of_get? hj] at hclosed
    obtain ⟨hvisited, -⟩ :=
      Timer.visitLog_of_open (t := t) hj hclosed sweep.tick sweep.now sweep.dispatching
    rw [visit, hvisited.queue, if_neg (Bool.eq_false_iff.mp (hlive _ hanswer)),
      Queue.places_push_self]
    exact Multiset.cons_ne_zero

/-- What a visit leaves behind is in order. -/
theorem Kept.visit {e : Entry JobId} {queue : Queue JobId} (h : p.Kept es)
    (busy : p.sweep = some sweep) (due : p.queue.popDue sweep.tick = some (e, queue)) :
    Kept { p with timer := (p.visit sweep e.value queue).2 }
      (es ++ [.visited e (p.answer? sweep e.value) (p.visit sweep e.value queue).1]) := by
  have htick : sweep.tick < .last := h.sweep sweep busy ▸ h.more
  obtain ⟨horderly, hid⟩ := h.listed.popDue due
  -- the job that is visited is not in the queue any more
  let t : Timer := { p.timer with queue := queue }
  have hlisted : t.Listed :=
    h.listed.of_places_le horderly (fun _ => rfl) (Queue.places_popDue_le due)
  have hnone : t.queue.places e.value = 0 := by
    have honce := h.listed.once e.value
    have hcard : (p.timer.queue.places e.value).card = _ := Queue.card_places_popDue due e.value
    rw [if_pos rfl] at hcard
    exact Multiset.card_eq_zero.mp (show (queue.places e.value).card = 0 by omega)
  have hframe := (t.frame_visitLog e.value sweep.tick sweep.now sweep.dispatching).1
  refine ⟨hlisted.visitLog hnone hid htick, ?_, ?_, ?_, ?_, ?_⟩
  · exact hframe.ticks.symm ▸ h.more
  · exact hframe.ticks.symm ▸ h.sweep
  · intro hidle
    exact absurd (busy.symm.trans hidle) nofun
  · intro id hid
    exact hframe.size.symm ▸ h.added id (added_of_mem hid nofun)
  · intro id hid' hopen hlive
    by_cases hself : e.value = id
    · subst hself
      refine places_visit_self hid' hopen ?_
      intro advance hanswer
      refine Bool.eq_false_iff.mpr fun hexhausted => ?_
      refine hlive _ (List.mem_append_right es (List.mem_singleton_self _)) ?_
      rw [hanswer]
      exact ⟨rfl, hexhausted⟩
    · obtain ⟨-, hget, hplaces⟩ :=
        Timer.visitLog_of_ne hself t sweep.tick sweep.now sweep.dispatching
      have hopen' : p.roster.isClosed id = false := by
        rw [← hopen]
        exact congrArg (Option.all Job.isClosed) hget.symm
      have hqueued := h.queued id (hframe.size ▸ hid') hopen'
        fun o ho => hlive o (List.mem_append_left _ ho)
      rw [← Queue.places_popDue_of_ne due hself] at hqueued
      exact fun hzero => hqueued (hplaces.symm.trans hzero)

theorem Step.kept (h : Step p o q) (hp : p.Kept es) : q.Kept (es ++ [o]) := by
  cases h with
  | add o now id t added => exact hp.add added
  | start =>
    unfold Timer.start
    split <;> exact hp.of_ages (.refl _) rfl rfl rfl nofun
  | stop =>
    unfold Timer.stop
    split <;> exact hp.of_ages (.refl _) rfl rfl rfl nofun
  | work e s step => exact hp.of_ages (Works.ages_of_step step) rfl rfl rfl nofun
  | tick tick now idle later more => exact hp.tickOver more now
  | visit sweep e queue busy due => exact hp.visit busy due
  | rest sweep busy none =>
    refine ⟨hp.listed, hp.more, ?_, ?_, ?_, ?_⟩
    · intro sweep' hsweep
      cases hsweep
    · intro _ e he
      rw [← hp.sweep sweep busy]
      exact hp.listed.wf.lt_of_popDue_eq_none none he
    · intro id hid
      exact hp.added id (added_of_mem hid nofun)
    · intro id hid hopen hlive
      exact hp.queued id hid hopen fun o ho => hlive o (List.mem_append_left _ ho)

/-- What a visit is about was due, and it leaves nothing behind that is. -/
theorem ripe_visit {e : Entry JobId} {queue : Queue JobId} (hp : p.Kept es)
    (busy : p.sweep = some sweep) (due : p.queue.popDue sweep.tick = some (e, queue)) :
    e ::ₘ (p.visit sweep e.value queue).2.queue.ripe sweep.tick = p.queue.ripe sweep.tick := by
  have htick : sweep.tick < .last := hp.sweep sweep busy ▸ hp.more
  let t : Timer := { p.timer with queue := queue }
  rw [Queue.ripe_popDue due]
  congr 1
  obtain hsame | ⟨tick, hpush⟩ :=
    (t.frame_visitLog e.value sweep.tick sweep.now sweep.dispatching).2.2
  · rw [visit, hsame]
  · rw [visit, hpush, Queue.ripe_push (Tick.lt_max_add_one htick _)]

/-- As long as the loop goes on, a visit takes one of the entries that are due, and nothing else
changes them. -/
theorem Step.ripe (h : Step p o q) (hp : p.Kept es) (busy : p.sweep = some sweep)
    (hrest : o ≠ .rested) :
    q.sweep = some sweep ∧
      (visits [o] : Multiset (Entry JobId)) + q.queue.ripe sweep.tick =
        p.queue.ripe sweep.tick := by
  cases h with
  | add o now id t added =>
    obtain ⟨-, tick, hqueue, hlater⟩ := hp.listed.addJob hp.more added
    rw [← hp.sweep sweep busy] at hlater
    refine ⟨busy, ?_⟩
    change 0 + t.queue.ripe sweep.tick = _
    rw [hqueue, Queue.ripe_push hlater, zero_add]
  | start =>
    unfold Timer.start
    split <;> exact ⟨busy, zero_add _⟩
  | stop =>
    unfold Timer.stop
    split <;> exact ⟨busy, zero_add _⟩
  | work => exact ⟨busy, zero_add _⟩
  | tick tick now idle => exact absurd (busy.symm.trans idle) nofun
  | visit sweep' e queue busy' due =>
    cases busy.symm.trans busy'
    exact ⟨busy, ripe_visit hp busy due⟩
  | rest => exact absurd rfl hrest

theorem Step.handovers (h : Step p o q) :
    (handovers [o]).Sublist ((visits [o]).map Entry.value) := by
  cases h with
  | visit sweep e queue busy due =>
    rw [Metronome.handovers, List.flatMap_singleton]
    exact Timer.handed_visitLog _ e.value sweep.tick sweep.now sweep.dispatching
  | _ => exact List.Sublist.refl _

/-! ### Runs -/

theorem Run.kept (h : Run p es q) (hp : p.Kept fs) : q.Kept (fs ++ es) := by
  induction h with
  | refl => simpa using hp
  | snoc _ hstep ih =>
    rw [← List.append_assoc]
    exact hstep.kept ih

/-- What has been visited and what is due are together what was due when the loop began. -/
theorem Run.ripe (h : Run p es q) (hp : p.Kept fs) (busy : p.sweep = some sweep)
    (hrest : .rested ∉ es) :
    q.sweep = some sweep ∧
      (visits es : Multiset (Entry JobId)) + q.queue.ripe sweep.tick =
        p.queue.ripe sweep.tick := by
  induction h with
  | refl => exact ⟨busy, zero_add _⟩
  | @snoc q r es o hrun hstep ih =>
    rw [List.mem_append, not_or, List.mem_singleton] at hrest
    obtain ⟨hbusy, haccount⟩ := ih hrest.1
    obtain ⟨hbusy', hstep'⟩ := hstep.ripe (Run.kept hrun hp) hbusy (Ne.symm hrest.2)
    refine ⟨hbusy', ?_⟩
    rw [← haccount, ← hstep', ← add_assoc, visits, visits, List.filterMap_append]
    rfl

theorem Run.handovers (h : Run p es q) : (handovers es).Sublist ((visits es).map Entry.value) := by
  induction h with
  | refl => exact List.Sublist.refl _
  | snoc _ hstep ih =>
    rw [Metronome.handovers, List.flatMap_append, visits, List.filterMap_append, List.map_append]
    exact ih.append hstep.handovers

/-- On its own, the tick thread comes to the end of the loop, with as many visits as there are
entries that are due. -/
theorem run_alone {n fuel : Nat} (hp : p.Kept fs) (busy : p.sweep = some sweep)
    (hdue : p.queue.due sweep.tick = n) (hfuel : n ≤ fuel) :
    ∃ es, es.length = n ∧ (∀ o ∈ es, o.entry?.isSome = true) ∧
      Run p es { p with timer := p.timer.proceedFuel sweep.tick sweep.now sweep.dispatching fuel } ∧
      (p.timer.proceedFuel sweep.tick sweep.now sweep.dispatching fuel).queue.popDue sweep.tick =
        none := by
  induction n generalizing p fs fuel with
  | zero =>
    cases hpop : p.queue.popDue sweep.tick with
    | some popped => exact absurd ((Queue.due_popDue hpop).symm.trans hdue) nofun
    | none =>
      rw [← Timer.snd_proceedLog, Timer.proceedLog_of_none hpop]
      exact ⟨[], rfl, fun o ho => absurd ho List.not_mem_nil, .refl p, hpop⟩
  | succ n ih =>
    cases hpop : p.queue.popDue sweep.tick with
    | none =>
      rw [← Queue.card_ripe, hp.listed.wf.ripe_of_none hpop] at hdue
      exact absurd hdue nofun
    | some popped =>
      obtain ⟨e, queue⟩ := popped
      obtain ⟨fuel, rfl⟩ : ∃ k, fuel = k + 1 := ⟨fuel - 1, by omega⟩
      have hstep := Step.visit p sweep e queue busy hpop
      have hleft := congrArg Multiset.card (ripe_visit hp busy hpop)
      rw [Multiset.card_cons, Queue.card_ripe, Queue.card_ripe, hdue] at hleft
      obtain ⟨es, hlength, hvisits, hrun, hnone⟩ :=
        ih (hstep.kept hp) busy (Nat.succ_inj.mp hleft) (Nat.le_of_succ_le_succ hfuel)
      have hproceed : p.timer.proceedFuel sweep.tick sweep.now sweep.dispatching (fuel + 1) =
          (p.visit sweep e.value queue).2.proceedFuel sweep.tick sweep.now sweep.dispatching
            fuel := by
        rw [Timer.proceedFuel, hpop, visit, Timer.snd_visitLog]
      rw [hproceed]
      refine ⟨_ :: es, congrArg Nat.succ hlength, ?_, (Course.single hstep).append hrun, hnone⟩
      intro o ho
      rcases List.mem_cons.mp ho with rfl | ho
      · rfl
      · exact hvisits o ho

/-! ### The queue and the loop -/

theorem Opened.kept (h : Opened p) : p.Kept [] := by
  obtain ⟨⟨-, config, parallelism, now, hnew⟩, hsweep⟩ := h
  obtain ⟨hqueue, hjobs, hticks⟩ : p.queue = .empty ∧ p.roster.jobs = #[] ∧ p.timer.ticks = 0 := by
    unfold Timer.new at hnew
    split at hnew
    · cases hnew
    · rw [queue, roster, ← Except.ok.inj hnew]
      exact ⟨rfl, rfl, rfl⟩
  refine ⟨Timer.listed_of_empty hqueue hjobs, ?_, ?_, ?_, ?_, ?_⟩
  · rw [hticks]
    decide
  · intro sweep h
    exact absurd (hsweep.symm.trans h) nofun
  · intro _ e he
    rw [hqueue] at he
    exact absurd he (Array.not_mem_empty e)
  · intro id hid
    exact absurd hid List.not_mem_nil
  · intro id hid
    rw [hjobs] at hid
    exact absurd hid (Nat.not_lt_zero id)

/-- The loop of a tick, from its beginning up to some moment. -/
structure Looping (p : Patrol) (sweep : Sweep) (es : List Episode) (q : Patrol) : Prop where
  /-- What has been visited and what is still due are together what was due at the beginning. -/
  visited : (visits es : Multiset (Entry JobId)) + q.queue.ripe sweep.tick =
    p.queue.ripe sweep.tick
  /-- No job is visited twice. -/
  once : ((visits es).map Entry.value).Nodup
  /-- A job is handed over by its visit, if at all. -/
  handed : (handovers es).Sublist ((visits es).map Entry.value)
  /-- The tick thread comes to the end on its own, with as many visits as entries are still due. -/
  ends : ∃ fs r, fs.length = q.queue.due sweep.tick ∧ (∀ o ∈ fs, o.entry?.isSome = true) ∧
    Run q fs r ∧ Step r .rested { r with sweep := none }

theorem Run.looping (h : Run p es q) (hp : p.Kept fs) (busy : p.sweep = some sweep)
    (hrest : .rested ∉ es) : Looping p sweep es q := by
  obtain ⟨hbusy, hvisited⟩ := h.ripe hp busy hrest
  refine ⟨hvisited, ?_, h.handovers, ?_⟩
  · have hle : (visits es : Multiset (Entry JobId)) ≤ p.queue.ripe sweep.tick :=
      hvisited ▸ Multiset.le_add_right _ _
    exact Multiset.coe_nodup.mp
      (Multiset.nodup_of_le (Multiset.map_le_map hle) (Queue.nodup_ripe hp.listed.once sweep.tick))
  · obtain ⟨fs, hlength, hvisits, hrun, hnone⟩ :=
      run_alone (h.kept hp) hbusy rfl (Nat.le_refl _)
    exact ⟨fs, _, hlength, hvisits, hrun, .rest _ sweep hbusy hnone⟩

/-- Between two ticks, every job that was added is in the queue exactly once, as long as it is open
and its schedule has not said that it is exhausted; no job is in it twice, and each is queued under
the tick that its schedule asks for, which is later than the last one. The loop of a tick visits the
entries that were due when it began, each of them once, whatever is done meanwhile; and if nothing
is, it comes out where `Timer.proceed` does. -/
theorem Run.integrity {p₀ : Patrol} (hopened : Opened p₀) (hrun : Run p₀ es p)
    (hidle : p.sweep = none) :
    (∀ id, .added id ∈ es → p.roster.isClosed id = false → (∀ o ∈ es, ¬ o.Exhausts id) →
      (p.queue.places id).card = 1) ∧
    (∀ id, (p.queue.places id).card ≤ 1) ∧
    (∀ e ∈ p.queue.entries, ∃ j, p.roster.get? e.value = some j ∧
      e.priority = j.schedule.nextTick ∧ p.timer.ticks < e.priority) ∧
    ∀ {tick : Tick} {now : Instant} {q : Patrol} {sweep : Sweep}, Step p (.ticked tick now) q →
      q.sweep = some sweep →
        (∃ fs, fs.length = q.queue.due tick ∧ (∀ o ∈ fs, o.entry?.isSome = true) ∧
          Run q fs { q with timer := q.timer.proceed tick now } ∧
          (q.timer.proceed tick now).queue.popDue tick = none) ∧
        ∀ {fs : List Episode} {r : Patrol}, Run q fs r → .rested ∉ fs → Looping q sweep fs r := by
  have hkept : p.Kept es := hrun.kept hopened.kept
  refine ⟨?_, hkept.listed.once, ?_, ?_⟩
  · intro id hid hopen hlive
    have hpos := Multiset.card_pos.mpr (hkept.queued id (hkept.added id hid) hopen hlive)
    exact Nat.le_antisymm (hkept.listed.once id) hpos
  · intro e he
    have hpriority := hkept.listed.priority e he
    obtain ⟨s, hs, hnext⟩ := Option.map_eq_some_iff.mp hpriority
    obtain ⟨j, hj, rfl⟩ := Option.map_eq_some_iff.mp hs
    exact ⟨j, hj, hnext.symm, hkept.later hidle e he⟩
  · intro tick now q sweep hstep busy
    have hkept' := hstep.kept hkept
    refine ⟨?_, fun hloop hrest => Run.looping hloop hkept' busy hrest⟩
    -- what the loop has been told when the tick began
    obtain rfl : sweep = ⟨tick, now, q.timer.status == .running⟩ := by
      cases hstep with
      | tick =>
        unfold tickOver at busy
        dsimp only at busy
        split at busy
        · cases busy
        · exact (Option.some.inj busy).symm
    exact run_alone hkept' busy rfl (Queue.due_le_size _ _)

/-- A timer that has just been created. -/
def idle : Patrol := { toWorks := .idle }

/-- A job that asks for every tick is in the queue once, and the first tick makes one visit. -/
theorem integrity_everyTick : Opened idle ∧
    ∃ p, Run idle [.added 0] p ∧ (p.queue.places 0).card = 1 ∧
      ∃ q fs r, Step p (.ticked 1 default) q ∧ Run q fs r ∧ fs.length = 1 := by
  have hopened : Opened idle := ⟨⟨rfl, {}, 1, default, rfl⟩, rfl⟩
  obtain ⟨t, hadd⟩ : ∃ t, idle.timer.addJob Works.everyTick default = .ok (0, t) := ⟨_, rfl⟩
  have hrun : Run idle [.added 0] { idle with timer := t } := .single (.add idle _ _ 0 t hadd)
  obtain ⟨hqueued, -, -, hloop⟩ := hrun.integrity hopened rfl
  have hcard : (t.queue.places 0).card = 1 := by
    refine hqueued 0 (List.mem_singleton_self _) ?_ ?_
    · cases hadd
      decide +kernel
    · intro o ho
      rw [List.mem_singleton.mp ho]
      exact id
  have hstep : Step { idle with timer := t } (.ticked 1 default)
      (tickOver { idle with timer := t } 1 default) := by
    refine .tick _ 1 default rfl ?_ (by decide)
    cases hadd
    decide +kernel
  obtain ⟨⟨fs, hlength, -, hfs, -⟩, -⟩ := hloop hstep (by
    cases hadd
    rfl)
  refine ⟨hopened, _, hrun, hcard, _, fs, _, hstep, hfs, ?_⟩
  rw [hlength]
  cases hadd
  decide +kernel

end Patrol

end Metronome
