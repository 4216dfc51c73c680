import Metronome.Proofs.Timer.Visit

/-!
# The loop of a tick

A tick clears closed jobs out of the queue if it is asked to, and then visits jobs for as long as
one of them is due. A visited job comes back under a later tick, so that the number of entries that
are due goes down with every visit, and an open job whose tick has come is visited exactly once. All
other open jobs stay where they are.

## Main definitions

* `Queue.due` — the number of entries whose tick has come
* `Timer.Orderly` — the queue is in order and holds jobs of the timer
* `Timer.Proceeded` — what a tick does to an open job whose tick has come
* `Timer.reaped` — the timer when closed jobs have been cleared out

## Main results

* `Timer.turnLog_of_later`, `Timer.turnLog_of_closed`, `Timer.turnLog_of_due` — what a tick does to
  each job
* `Timer.Orderly.turnLog`, `Timer.Orderly.frame_turnLog` — what it does to the timer
-/

namespace Metronome

/-! ### Entries that are due -/

namespace Queue

variable {α : Type} {q rest : Queue α} {e : Entry α} {tick p : Tick} {v : α}

/-- The number of entries whose tick has come. -/
def due (q : Queue α) (tick : Tick) : Nat := q.contents.countP fun e => e.priority ≤ tick

theorem due_le_size (q : Queue α) (tick : Tick) : q.due tick ≤ q.size := by
  rw [due, ← card_contents]
  exact Multiset.countP_le_card _ _

theorem due_push (h : tick < p) (v : α) : (q.push v p).due tick = q.due tick := by
  rw [due, contents_push, Multiset.countP_cons_of_neg]
  · rfl
  · rw [Tick.lt_def] at h
    rw [Tick.le_def]
    exact Int.not_le.mpr h

theorem due_popDue (h : q.popDue tick = some (e, rest)) : q.due tick = rest.due tick + 1 := by
  obtain ⟨-, -, -, hle⟩ := popDue_eq_some h
  rw [due, contents_popDue h,
    Multiset.countP_cons_of_pos (p := fun e : Entry α => e.priority ≤ tick) _ hle]
  rfl

theorem due_pos (he : e ∈ q.entries) (hle : e.priority ≤ tick) : 0 < q.due tick :=
  Multiset.countP_pos.mpr ⟨e, mem_contents.mpr he, hle⟩

end Queue

/-- The tick after one that is not the last is a later one. -/
theorem Tick.lt_max_add_one {tick : Tick} (h : tick < Tick.last) (p : Tick) :
    tick < max p (tick + 1) := by
  rw [lt_def] at h ⊢
  rw [val_max, val_add]
  omega

namespace Timer

variable {t : Timer} {id : JobId} {tick : Tick} {now : Instant} {dispatching : Bool} {fuel : Nat}

/-! ### The loop of a tick -/

/-- The heap of a timer is in order and holds jobs of its roster. -/
structure Orderly (t : Timer) : Prop where
  wf : t.queue.WF
  known : ∀ e ∈ t.queue.entries, e.value < t.roster.jobs.size

theorem Orderly.visitLog (h : t.Orderly) (hid : id < t.roster.jobs.size) :
    (t.visitLog id tick now dispatching).2.Orderly := by
  obtain ⟨hframe, -, hqueue⟩ := t.frame_visitLog id tick now dispatching
  constructor
  · obtain hsame | ⟨p, hpush⟩ := hqueue
    · rw [hsame]
      exact h.wf
    · rw [hpush]
      exact h.wf.push _ _
  · intro e he
    rw [hframe.size]
    obtain hsame | ⟨p, hpush⟩ := hqueue
    · rw [hsame] at he
      exact h.known e he
    · rw [hpush] at he
      obtain hmem | rfl := Queue.mem_push.mp he
      · exact h.known e hmem
      · exact hid

/-- The queue without an entry that has left it. -/
theorem Orderly.popDue (h : t.Orderly) {e : Entry JobId} {queue : Queue JobId}
    (hpop : t.queue.popDue tick = some (e, queue)) :
    { t with queue := queue }.Orderly ∧ e.value < t.roster.jobs.size := by
  have hmem (x : Entry JobId) : x ∈ t.queue.entries ↔ x = e ∨ x ∈ queue.entries := by
    rw [← Queue.mem_contents, Queue.contents_popDue hpop, Multiset.mem_cons, Queue.mem_contents]
  exact ⟨⟨h.wf.popDue hpop, fun x hx => h.known x ((hmem x).mpr (Or.inr hx))⟩,
    h.known e ((hmem e).mpr (Or.inl rfl))⟩

theorem Orderly.proceedLog (h : t.Orderly) (tick : Tick) (now : Instant) (dispatching : Bool)
    (fuel : Nat) : (t.proceedLog tick now dispatching fuel).2.Orderly := by
  induction fuel generalizing t with
  | zero => exact h
  | succ fuel ih =>
    cases hpop : t.queue.popDue tick with
    | none =>
      rw [proceedLog_of_none hpop]
      exact h
    | some popped =>
      obtain ⟨e, queue⟩ := popped
      obtain ⟨hrest, he⟩ := h.popDue hpop
      rw [proceedLog_of_some hpop]
      exact ih (hrest.visitLog he)

/-- The loop changes neither the number of jobs nor what the timer says of itself. -/
theorem frame_proceedLog (t : Timer) (tick : Tick) (now : Instant) (dispatching : Bool)
    (fuel : Nat) :
    (t.proceedLog tick now dispatching fuel).2.roster.jobs.size = t.roster.jobs.size ∧
      (t.proceedLog tick now dispatching fuel).2.ticks = t.ticks ∧
      (t.proceedLog tick now dispatching fuel).2.status = t.status := by
  induction fuel generalizing t with
  | zero => exact ⟨rfl, rfl, rfl⟩
  | succ fuel ih =>
    cases hpop : t.queue.popDue tick with
    | none =>
      rw [proceedLog_of_none hpop]
      exact ⟨rfl, rfl, rfl⟩
    | some popped =>
      obtain ⟨e, queue⟩ := popped
      rw [proceedLog_of_some hpop]
      obtain ⟨hsize, hticks, hstatus⟩ :=
        ih ({ t with queue := queue }.visitLog e.value tick now dispatching).2
      have hframe := ({ t with queue := queue }.frame_visitLog e.value tick now dispatching).1
      exact ⟨hsize.trans hframe.size, hticks.trans hframe.ticks, hstatus.trans hframe.status⟩

/-- A visit of one job is none of another one. -/
theorem visitLog_of_ne {other : JobId} (h : other ≠ id) (t : Timer) (tick : Tick) (now : Instant)
    (dispatching : Bool) :
    id ∉ (t.visitLog other tick now dispatching).1.map Prod.fst ∧
      (t.visitLog other tick now dispatching).2.roster.get? id = t.roster.get? id ∧
      (t.visitLog other tick now dispatching).2.queue.places id = t.queue.places id := by
  obtain ⟨hframe, hlog, hqueue⟩ := t.frame_visitLog other tick now dispatching
  refine ⟨fun hmem => h (hlog id hmem).symm, hframe.others id h.symm, ?_⟩
  obtain hsame | ⟨p, hpush⟩ := hqueue
  · rw [hsame]
  · rw [hpush, Queue.places_push_of_ne h]

/-- A job that is queued under later ticks only is not visited. -/
theorem proceedLog_of_later (h : ∀ p ∈ t.queue.places id, tick < p) (fuel : Nat) :
    id ∉ (t.proceedLog tick now dispatching fuel).1.map Prod.fst ∧
      (t.proceedLog tick now dispatching fuel).2.roster.get? id = t.roster.get? id ∧
      (t.proceedLog tick now dispatching fuel).2.queue.places id = t.queue.places id := by
  induction fuel generalizing t with
  | zero => exact ⟨List.not_mem_nil, rfl, rfl⟩
  | succ fuel ih =>
    cases hpop : t.queue.popDue tick with
    | none =>
      rw [proceedLog_of_none hpop]
      exact ⟨List.not_mem_nil, rfl, rfl⟩
    | some popped =>
      obtain ⟨e, queue⟩ := popped
      -- the entry that is due is that of another job
      have hne : e.value ≠ id := by
        rintro rfl
        obtain ⟨-, -, -, hle⟩ := Queue.popDue_eq_some hpop
        have hlater := h e.priority (by rw [Queue.places_popDue_self hpop]; simp)
        rw [Tick.lt_def] at hlater
        rw [Tick.le_def] at hle
        omega
      have hplaces : queue.places id = t.queue.places id := Queue.places_popDue_of_ne hpop hne
      obtain ⟨hfirst, hget, hqueue⟩ :=
        visitLog_of_ne hne { t with queue := queue } tick now dispatching
      rw [proceedLog_of_some hpop]
      obtain ⟨hrest, hget', hqueue'⟩ :=
        ih (t := ({ t with queue := queue }.visitLog e.value tick now dispatching).2) (by
          rw [hqueue, hplaces]
          exact h)
      refine ⟨?_, hget'.trans hget, hqueue'.trans (hqueue.trans hplaces)⟩
      rw [List.map_append, List.mem_append]
      exact fun hmem => hmem.elim hfirst hrest

/-- A closed job may be visited, and is dropped. -/
theorem proceedLog_of_closed (h : t.roster.isClosed id = true) (fuel : Nat) :
    id ∉ (t.proceedLog tick now dispatching fuel).1.map Prod.fst ∧
      (t.proceedLog tick now dispatching fuel).2.roster.get? id = t.roster.get? id := by
  induction fuel generalizing t with
  | zero => exact ⟨List.not_mem_nil, rfl⟩
  | succ fuel ih =>
    cases hpop : t.queue.popDue tick with
    | none =>
      rw [proceedLog_of_none hpop]
      exact ⟨List.not_mem_nil, rfl⟩
    | some popped =>
      obtain ⟨e, queue⟩ := popped
      rw [proceedLog_of_some hpop]
      dsimp only
      by_cases hid : e.value = id
      · subst hid
        rw [visitLog_of_closed (t := { t with queue := queue }) h]
        exact ih (t := { t with queue := queue }) h
      · obtain ⟨hfirst, hget, -⟩ :=
          visitLog_of_ne hid { t with queue := queue } tick now dispatching
        have hclosed : ({ t with queue := queue }.visitLog e.value tick now
            dispatching).2.roster.isClosed id = true := by
          rw [Roster.isClosed, hget]
          exact h
        obtain ⟨hrest, hget'⟩ := ih hclosed
        refine ⟨?_, hget'.trans hget⟩
        rw [List.map_append, List.mem_append]
        exact fun hmem => hmem.elim hfirst hrest

/-- What the loop of a tick does to an open job whose tick has come. -/
structure Proceeded (id : JobId) (tick : Tick) (checked : Advance × Schedule) (fires : Bool)
    (log : List (JobId × Submission)) (t : Timer) : Prop where
  count : (log.map Prod.fst).count id = if fires then 1 else 0
  schedule : t.roster.schedule? id = some checked.2
  places : t.queue.places id =
    if checked.1.exhausted then 0 else {max checked.1.nextTick (tick + 1)}

/-- A visited job comes back under a later tick, if at all. -/
theorem due_visitLog_le (htick : tick < Tick.last) (t : Timer) (id : JobId) (now : Instant)
    (dispatching : Bool) :
    (t.visitLog id tick now dispatching).2.queue.due tick ≤ t.queue.due tick := by
  obtain hsame | ⟨p, hpush⟩ := (t.frame_visitLog id tick now dispatching).2.2
  · rw [hsame]
  · rw [hpush, Queue.due_push (Tick.lt_max_add_one htick _)]

/-- The visit of an open job that has left the queue, with whatever is visited after it. -/
theorem proceeded_visitLog {j : Job} (hnone : t.queue.places id = 0) (htick : tick < Tick.last)
    (hj : t.roster.get? id = some j) (hopen : j.isClosed = false) (now : Instant)
    (dispatching : Bool) (fuel : Nat) :
    let visited := t.visitLog id tick now dispatching
    let rest := visited.2.proceedLog tick now dispatching fuel
    Proceeded id tick (j.schedule.check tick now)
      ((j.schedule.check tick now).1.due && dispatching && !(j.state.status == .stopped))
      (visited.1 ++ rest.1) rest.2 := by
  intro visited rest
  obtain ⟨hvisited, hlog⟩ := visitLog_of_open hj hopen tick now dispatching
  have hplaces : visited.2.queue.places id =
      if (j.schedule.check tick now).1.exhausted then 0
      else {max (j.schedule.check tick now).1.nextTick (tick + 1)} := by
    rw [hvisited.queue]
    split
    · exact hnone
    · rw [Queue.places_push_self, hnone]
      rfl
  -- whatever comes after the visit finds the job under a later tick
  have hlater : ∀ p ∈ visited.2.queue.places id, tick < p := by
    intro p hmem
    rw [hplaces] at hmem
    split at hmem
    · exact absurd hmem (Multiset.notMem_zero p)
    · rw [Multiset.mem_singleton.mp hmem]
      exact Tick.lt_max_add_one htick _
  obtain ⟨hnot, hget, hqueue⟩ := proceedLog_of_later hlater fuel
  constructor
  · rw [List.map_append, List.count_append, List.count_eq_zero.mpr hnot, hlog]
    split <;> simp
  · rw [Roster.schedule?, hget]
    exact hvisited.schedule
  · rw [hqueue, hplaces]

/-- An open job whose tick has come is visited exactly once. -/
theorem proceedLog_of_due {j : Job} {p : Tick} (h : t.Orderly) (hp : t.queue.places id = {p})
    (hle : p ≤ tick) (htick : tick < Tick.last) (hfuel : t.queue.due tick ≤ fuel)
    (hj : t.roster.get? id = some j) (hopen : j.isClosed = false) :
    Proceeded id tick (j.schedule.check tick now)
      ((j.schedule.check tick now).1.due && dispatching && !(j.state.status == .stopped))
      (t.proceedLog tick now dispatching fuel).1 (t.proceedLog tick now dispatching fuel).2 := by
  have hmem : ⟨id, p⟩ ∈ t.queue.entries := Queue.mem_places.mp (by rw [hp]; simp)
  induction fuel generalizing t with
  | zero =>
    have hpos := Queue.due_pos hmem hle
    omega
  | succ fuel ih =>
    cases hpop : t.queue.popDue tick with
    | none =>
      have hlt := h.wf.lt_of_popDue_eq_none hpop hmem
      rw [Tick.lt_def] at hlt
      rw [Tick.le_def] at hle
      exact absurd hlt (Int.not_lt.mpr hle)
    | some popped =>
      obtain ⟨e, queue⟩ := popped
      obtain ⟨hrest, he⟩ := h.popDue hpop
      rw [proceedLog_of_some hpop]
      by_cases hid : e.value = id
      · subst hid
        have hnone : queue.places e.value = 0 := by
          have hcard := congrArg Multiset.card (hp.symm.trans (Queue.places_popDue_self hpop))
          rw [Multiset.card_singleton, Multiset.card_cons] at hcard
          exact Multiset.card_eq_zero.mp (by omega)
        exact proceeded_visitLog (t := { t with queue := queue }) hnone htick hj hopen now
          dispatching fuel
      · -- another job that is due comes first
        obtain ⟨hfirst, hget, hqueue⟩ :=
          visitLog_of_ne hid { t with queue := queue } tick now dispatching
        have hplaces := hqueue.trans (Queue.places_popDue_of_ne hpop hid)
        have hleft : ({ t with queue := queue }.visitLog e.value tick now
            dispatching).2.queue.due tick ≤ fuel := by
          have hvisit := due_visitLog_le htick { t with queue := queue } e.value now dispatching
          have hdue := Queue.due_popDue hpop
          dsimp only at hvisit
          omega
        have hthen := ih (hrest.visitLog he) (hplaces.trans hp) hleft (hget.trans hj)
          (by rw [← Queue.mem_places, hplaces, hp]; simp)
        refine ⟨?_, hthen.schedule, hthen.places⟩
        rw [List.map_append, List.count_append, List.count_eq_zero.mpr hfirst, Nat.zero_add]
        exact hthen.count

/-! ### A tick -/

/-- The timer when the tick counter has gone up and closed jobs have been cleared out. -/
def reaped (t : Timer) (tick : Tick) : Timer := { t with ticks := tick }.reapIfAsked.2

/-- Clearing out closed jobs does not touch the open ones. -/
structure Reaped (t : Timer) (tick : Tick) (t' : Timer) : Prop where
  orderly : t'.Orderly
  get : ∀ id, t'.roster.get? id = t.roster.get? id
  size : t'.roster.jobs.size = t.roster.jobs.size
  places : ∀ id, t.roster.isClosed id = false → t'.queue.places id = t.queue.places id
  ticks : t'.ticks = tick
  status : t'.status = t.status

theorem reapIfAsked_of_asked (h : t.roster.reap = true) :
    t.reapIfAsked.2 =
      { t.withRoster { t.roster with reap := false } with
        queue := (t.queue.retain fun id => !t.roster.isClosed id).2 } := by
  unfold reapIfAsked
  rw [if_pos h]
  rfl

theorem reapIfAsked_of_not_asked (h : ¬ t.roster.reap = true) : t.reapIfAsked.2 = t := by
  unfold reapIfAsked
  rw [if_neg h]

theorem wf_reaped (h : t.queue.WF) (tick : Tick) : (t.reaped tick).queue.WF := by
  by_cases hasked : t.roster.reap = true
  · rw [reaped, reapIfAsked_of_asked (t := { t with ticks := tick }) hasked]
    exact h.retain _
  · rw [reaped, reapIfAsked_of_not_asked (t := { t with ticks := tick }) hasked]
    exact h

theorem ticks_reaped (t : Timer) (tick : Tick) : (t.reaped tick).ticks = tick := by
  by_cases hasked : t.roster.reap = true
  · rw [reaped, reapIfAsked_of_asked (t := { t with ticks := tick }) hasked]
    rfl
  · rw [reaped, reapIfAsked_of_not_asked (t := { t with ticks := tick }) hasked]

theorem Orderly.reaped (h : t.Orderly) (tick : Tick) : Reaped t tick (t.reaped tick) := by
  by_cases hasked : t.roster.reap = true
  · rw [Timer.reaped, reapIfAsked_of_asked (t := { t with ticks := tick }) hasked]
    refine ⟨⟨h.wf.retain _, fun e he => ?_⟩, fun _ => rfl, rfl, fun id hid => ?_, rfl, rfl⟩
    · rw [← Queue.mem_contents, Queue.contents_retain] at he
      exact h.known e (Queue.mem_contents.mp (Multiset.mem_of_mem_filter he))
    · exact Queue.places_retain (show (!t.roster.isClosed id) = true by rw [hid]; rfl)
  · rw [Timer.reaped, reapIfAsked_of_not_asked (t := { t with ticks := tick }) hasked]
    exact ⟨⟨h.wf, h.known⟩, fun _ => rfl, rfl, fun _ _ => rfl, rfl, rfl⟩

theorem turnLog_eq (t : Timer) (tick : Tick) (now : Instant) :
    t.turnLog tick now =
      if tick < (t.reaped tick).queue.nextPriority then ([], t.reaped tick)
      else (t.reaped tick).proceedLog tick now ((t.reaped tick).status == .running)
        (t.reaped tick).queue.size := rfl

/-- A tick does not visit a job that is queued under later ticks only. -/
theorem turnLog_of_later (h : ∀ p ∈ (t.reaped tick).queue.places id, tick < p) (now : Instant) :
    id ∉ (t.turnLog tick now).1.map Prod.fst ∧
      (t.turnLog tick now).2.roster.get? id = (t.reaped tick).roster.get? id ∧
      (t.turnLog tick now).2.queue.places id = (t.reaped tick).queue.places id := by
  rw [turnLog_eq]
  split
  · exact ⟨List.not_mem_nil, rfl, rfl⟩
  · exact proceedLog_of_later h _

theorem turnLog_of_closed (h : (t.reaped tick).roster.isClosed id = true) :
    id ∉ (t.turnLog tick now).1.map Prod.fst ∧
      (t.turnLog tick now).2.roster.get? id = (t.reaped tick).roster.get? id := by
  rw [turnLog_eq]
  split
  · exact ⟨List.not_mem_nil, rfl⟩
  · exact proceedLog_of_closed h _

theorem turnLog_of_due {j : Job} {p : Tick} (h : (t.reaped tick).Orderly)
    (hp : (t.reaped tick).queue.places id = {p}) (hle : p ≤ tick) (htick : tick < Tick.last)
    (hj : (t.reaped tick).roster.get? id = some j) (hopen : j.isClosed = false) (now : Instant) :
    Proceeded id tick (j.schedule.check tick now)
      ((j.schedule.check tick now).1.due && ((t.reaped tick).status == .running) &&
        !(j.state.status == .stopped))
      (t.turnLog tick now).1 (t.turnLog tick now).2 := by
  have hmem : ⟨id, p⟩ ∈ (t.reaped tick).queue.entries := Queue.mem_places.mp (by rw [hp]; simp)
  have hnext : ¬ tick < (t.reaped tick).queue.nextPriority := by
    have hleast := h.wf.le_next_iff.mp (Tick.le_def.mpr (Int.le_refl _)) _ hmem
    rw [Tick.le_def] at hleast hle
    rw [Tick.lt_def]
    dsimp only at hleast
    omega
  rw [turnLog_eq, if_neg hnext]
  exact proceedLog_of_due h hp hle htick (Queue.due_le_size _ _) hj hopen

theorem Orderly.turnLog (h : t.Orderly) (tick : Tick) (now : Instant) :
    (t.turnLog tick now).2.Orderly := by
  rw [turnLog_eq]
  split
  · exact (h.reaped tick).orderly
  · exact (h.reaped tick).orderly.proceedLog _ _ _ _

theorem Orderly.frame_turnLog (h : t.Orderly) (tick : Tick) (now : Instant) :
    (t.turnLog tick now).2.roster.jobs.size = t.roster.jobs.size ∧
      (t.turnLog tick now).2.ticks = tick ∧ (t.turnLog tick now).2.status = t.status := by
  have hreaped := h.reaped tick
  rw [turnLog_eq]
  split
  · exact ⟨hreaped.size, hreaped.ticks, hreaped.status⟩
  · obtain ⟨hsize, hticks, hstatus⟩ := (t.reaped tick).frame_proceedLog tick now
      ((t.reaped tick).status == .running) (t.reaped tick).queue.size
    exact ⟨hsize.trans hreaped.size, hticks.trans hreaped.ticks, hstatus.trans hreaped.status⟩

end Timer

end Metronome
