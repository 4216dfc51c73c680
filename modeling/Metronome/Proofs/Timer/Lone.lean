import Metronome.Proofs.Schedule.Lone
import Metronome.Proofs.Timer.Loop

/-!
# The schedules of a timer

A timer drives the schedules of all its jobs at once, over one queue with ties, with jobs that are
closed behind its back and with entries that come and go in the middle of a tick. For each job that
is open, this makes no difference: its schedule is where it would be on its own.

## Main definitions

* `Timer.Tracks` — a job of a timer is where its schedule would be on its own

## Main results

* `Timer.Tracks.turnLog` — a tick keeps this
* `Timer.Tracks.count_turnLog` — what is handed over at a tick
-/

namespace Metronome

/-! ### Jobs of a timer -/

namespace Timer

variable {t : Timer} {id : JobId} {tick : Tick} {now : Instant} {l : Lone}

/-- If a job is open, then its schedule is where it would be on its own; the job is queued once, and
looked at when the schedule asks for it, unless the schedule is exhausted. -/
structure Tracks (t : Timer) (id : JobId) (l : Lone) : Prop where
  schedule : ∀ j, t.roster.get? id = some j → j.isClosed = false → j.schedule = l.schedule
  none : t.roster.isClosed id = false → l.exhausted = true → t.queue.places id = 0
  /-- A job is not queued under ticks that have gone by, so the tick in the queue and the one that
  the schedule asks for need only agree on those to come. -/
  once : t.roster.isClosed id = false → l.exhausted = false → ∃ p, t.queue.places id = {p} ∧
    ∀ tick, t.ticks < tick → (p ≤ tick ↔ l.schedule.nextTick ≤ tick)

/-- Nothing is claimed of a job that is closed. -/
theorem tracks_of_closed (h : t.roster.isClosed id = true) : Tracks t id l := by
  constructor
  · intro j hj hopen
    rw [Roster.isClosed_of_get? hj, hopen] at h
    cases h
  · intro hopen
    rw [h] at hopen
    cases hopen
  · intro hopen
    rw [h] at hopen
    cases hopen

/-- A tick leaves a job alone whose schedule does not ask for it. -/
theorem Tracks.turnLog_of_quiet (h : Tracks t id l) (horderly : t.Orderly) (hlt : t.ticks < tick)
    (hasks : l.asks tick = false) {j : Job} (hj : t.roster.get? id = some j)
    (hopen : j.isClosed = false) :
    Tracks (t.turnLog tick now).2 id l ∧ id ∉ (t.turnLog tick now).1.map Prod.fst := by
  have hreaped := horderly.reaped tick
  have hclosed : t.roster.isClosed id = false := (Roster.isClosed_of_get? hj).trans hopen
  have hsame := hreaped.places id hclosed
  -- so the job is queued under a later tick, if it is queued at all
  have hlater : ∀ p ∈ (t.reaped tick).queue.places id, tick < p := by
    intro p hp
    rw [hsame] at hp
    cases hexhausted : l.exhausted with
    | true =>
      rw [h.none hclosed hexhausted] at hp
      exact absurd hp (Multiset.notMem_zero p)
    | false =>
      obtain ⟨p', hp', hiff⟩ := h.once hclosed hexhausted
      rw [hp', Multiset.mem_singleton] at hp
      rw [Lone.asks, hexhausted, Bool.not_false, Bool.true_and, decide_eq_false_iff_not,
        ← hiff tick hlt, ← hp, Tick.le_def] at hasks
      exact Tick.lt_def.mpr (Int.not_le.mp hasks)
  obtain ⟨hnot, hget, hplaces⟩ := turnLog_of_later hlater now
  have hticks := (horderly.frame_turnLog tick now).2.1
  refine ⟨⟨fun j' hj' hopen' => ?_, fun _ hexhausted => ?_, fun _ hlive => ?_⟩, hnot⟩
  · rw [hget, hreaped.get] at hj'
    exact h.schedule j' hj' hopen'
  · rw [hplaces, hsame]
    exact h.none hclosed hexhausted
  · obtain ⟨p, hp, hiff⟩ := h.once hclosed hlive
    refine ⟨p, by rw [hplaces, hsame, hp], fun tick' htick' => hiff tick' ?_⟩
    rw [hticks, Tick.lt_def] at htick'
    rw [Tick.lt_def] at hlt ⊢
    omega

/-- A tick looks at the schedule of a job that asks for it, and hands the job over once if the
schedule is due and neither the job nor the timer is stopped. -/
theorem Tracks.turnLog_of_asks (h : Tracks t id l) (horderly : t.Orderly) (hlt : t.ticks < tick)
    (htick : tick < Tick.last) (hasks : l.asks tick = true) {j : Job}
    (hj : t.roster.get? id = some j) (hopen : j.isClosed = false) :
    Tracks (t.turnLog tick now).2 id (l.tick tick now) ∧
      ((t.turnLog tick now).1.map Prod.fst).count id =
        if (l.schedule.check tick now).1.due && (t.status == .running) &&
          !(j.state.status == .stopped) then 1 else 0 := by
  have hreaped := horderly.reaped tick
  have hclosed : t.roster.isClosed id = false := (Roster.isClosed_of_get? hj).trans hopen
  have hafter : l.tick tick now =
      ⟨(l.schedule.check tick now).2, (l.schedule.check tick now).1.exhausted⟩ := by
    rw [Lone.tick, if_pos hasks]
  rw [Lone.asks, Bool.and_eq_true, Bool.not_eq_true', decide_eq_true_eq] at hasks
  obtain ⟨p, hp, hiff⟩ := h.once hclosed hasks.1
  have hvisit := turnLog_of_due hreaped.orderly ((hreaped.places id hclosed).trans hp)
    ((hiff tick hlt).mpr hasks.2) htick ((hreaped.get id).trans hj) hopen now
  rw [h.schedule j hj hopen, hreaped.status] at hvisit
  have hticks := (horderly.frame_turnLog tick now).2.1
  rw [hafter]
  refine ⟨⟨fun j' hj' _ => ?_, fun _ hexhausted => ?_, fun _ hlive => ?_⟩, hvisit.count⟩
  · have hschedule := hvisit.schedule
    rw [Roster.schedule?, hj', Option.map_some] at hschedule
    exact Option.some.inj hschedule
  · exact hvisit.places.trans (if_pos hexhausted)
  · refine ⟨_, hvisit.places.trans (if_neg (Bool.eq_false_iff.mp hlive)), fun tick' htick' => ?_⟩
    rw [l.schedule.nextTick_check tick now hlive]
    rw [hticks, Tick.lt_def] at htick'
    rw [Tick.lt_def] at htick
    rw [Tick.le_def, Tick.le_def, Tick.val_max, Tick.val_add]
    omega

/-- A tick keeps an open job where its schedule would be on its own. -/
theorem Tracks.turnLog (h : Tracks t id l) (horderly : t.Orderly) (hlt : t.ticks < tick)
    (htick : tick < Tick.last) : Tracks (t.turnLog tick now).2 id (l.tick tick now) := by
  cases hclosed : t.roster.isClosed id with
  | true =>
    refine tracks_of_closed ?_
    have hreaped := horderly.reaped tick
    have hstill : (t.reaped tick).roster.isClosed id = true := by
      rw [Roster.isClosed, hreaped.get]
      exact hclosed
    rw [Roster.isClosed, (turnLog_of_closed hstill).2, hreaped.get]
    exact hclosed
  | false =>
    cases hj : t.roster.get? id with
    | none =>
      rw [Roster.isClosed, hj] at hclosed
      cases hclosed
    | some j =>
      rw [Roster.isClosed_of_get? hj] at hclosed
      cases hasks : l.asks tick with
      | false =>
        rw [Lone.tick, if_neg (Bool.eq_false_iff.mp hasks)]
        exact (h.turnLog_of_quiet horderly hlt hasks hj hclosed).1
      | true => exact (h.turnLog_of_asks horderly hlt htick hasks hj hclosed).1

/-- A tick hands a job over exactly once if its schedule is due, the timer is running, and the job
is neither stopped nor closed, and not at all otherwise. -/
theorem Tracks.count_turnLog (h : Tracks t id l) (horderly : t.Orderly) (hlt : t.ticks < tick)
    (htick : tick < Tick.last) {j : Job} (hj : t.roster.get? id = some j) :
    ((t.turnLog tick now).1.map Prod.fst).count id =
      if l.due tick now = true ∧ t.status = .running ∧ j.state.status ≠ .stopped ∧
        j.state.status ≠ .closed then 1 else 0 := by
  cases hclosed : j.isClosed with
  | true =>
    have hreaped := horderly.reaped tick
    have hstill : (t.reaped tick).roster.isClosed id = true := by
      rw [Roster.isClosed_of_get? ((hreaped.get id).trans hj)]
      exact hclosed
    rw [List.count_eq_zero.mpr (turnLog_of_closed hstill).1, if_neg]
    exact fun hall => hall.2.2.2 (j.state.isClosed_iff.mp hclosed)
  | false =>
    have hopen : j.state.status ≠ .closed := fun hstatus => by
      rw [Job.isClosed, j.state.isClosed_iff.mpr hstatus] at hclosed
      cases hclosed
    cases hasks : l.asks tick with
    | false =>
      rw [List.count_eq_zero.mpr (h.turnLog_of_quiet horderly hlt hasks hj hclosed).2, if_neg]
      rw [Lone.due, hasks, Bool.false_and]
      exact fun hall => absurd hall.1 (by decide)
    | true =>
      rw [(h.turnLog_of_asks horderly hlt htick hasks hj hclosed).2, Lone.due, hasks,
        Bool.true_and]
      refine if_congr ?_ rfl rfl
      simp [hopen, and_assoc]

end Timer

end Metronome
