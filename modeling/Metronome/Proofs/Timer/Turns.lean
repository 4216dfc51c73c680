import Metronome.Proofs.Timer.Closing

/-!
# The operations of a timer

A timer adds a job, hands in a trigger, visits a job or goes through a whole tick at one stroke.
Each of these operations is one of the interleavings of its threads, namely the one in which nobody
comes in between, whatever the other threads are in the middle of. So what holds of all states that
a timer with its threads can come to holds before and after every operation.

## Main definitions

* `Plant.Leads` — some interleaving leads from one state to another

## Main results

* `Plant.leads_addJob`, `Plant.leads_trigger` — a new job, and a trigger
* `Plant.leads_visit`, `Plant.leads_proceed`, `Plant.leads_turn` — a visit, all visits, and a tick
* `Plant.leads_close` — the end of a timer
* `Plant.Reachable.turn` — a timer comes from tick to tick
-/

namespace Metronome

namespace Plant

variable {p q r : Plant} {id : JobId} {sweep : Sweep} {advance : Advance}

/-- Some interleaving leads from one state to another. -/
def Leads (p q : Plant) : Prop := ∃ os, Run p os q

theorem Leads.refl (p : Plant) : Leads p p := ⟨[], .refl p⟩

theorem Leads.trans (h : Leads p q) (h' : Leads q r) : Leads p r := by
  obtain ⟨os, hpq⟩ := h
  obtain ⟨es, hqr⟩ := h'
  exact ⟨os ++ es, hpq.append hqr⟩

theorem Step.leads {o : Occasion} (h : Step p o q) : Leads p q := ⟨[o], .single h⟩

theorem Reachable.leads (h : Reachable p) (h' : Leads p q) : Reachable q := by
  obtain ⟨os, hrun⟩ := h'
  exact h.run hrun

/-! ### Jobs and triggers -/

theorem leads_addJob {o : JobOptions} {now : Instant} {t : Timer}
    (h : p.timer.addJob o now = .ok (id, t)) : Leads p { p with timer := t } := by
  unfold Timer.addJob at h
  split at h
  · cases h
  · next hopen =>
    split at h
    · cases h
    · next job hjob =>
      cases h
      have hcreate := Step.create p o now job hopen hjob
      exact hcreate.leads.trans (Step.enlist _ [] _ _ p.adding rfl).leads

theorem leads_trigger (p : Plant) (id : JobId) :
    Leads p { p with timer := (p.timer.trigger id).2 } := by
  by_cases hshut : p.timer.crew.runner.turnsAway id = true
  · rw [Timer.trigger, Runner.submit, if_pos hshut]
    exact .refl p
  · exact ⟨_, run_trigger p id (Bool.eq_false_iff.mpr hshut)⟩

/-! ### Visits -/

/-- The trigger of the tick thread. -/
theorem leads_offering (ticker : p.ticker = .busy sweep (.offering id advance)) :
    Leads p { p with
      timer := (p.timer.trigger id).2
      ticker := .busy sweep (.settling id advance ((p.timer.trigger id).1 != .refused)) } := by
  unfold Timer.trigger Runner.submit
  by_cases hshut : p.timer.crew.runner.turnsAway id = true
  · rw [if_pos hshut]
    exact (Step.turnAway p sweep id advance ticker hshut).leads
  · rw [if_neg hshut]
    rw [Bool.not_eq_true] at hshut
    have hcheck := Step.check p sweep id advance ticker hshut
    have hcount := Step.count { p with
      checked := id :: p.checked
      ticker := .busy sweep (.counting id advance) } sweep id advance rfl List.mem_cons_self
    rw [List.erase_cons_head] at hcount
    exact hcheck.leads.trans hcount.leads

/-- The end of a visit. -/
theorem leads_settling {submitted : Bool}
    (ticker : p.ticker = .busy sweep (.settling id advance submitted)) :
    Leads p { p with
      timer :=
        if advance.exhausted then
          if submitted then p.timer else p.timer.withRoster (p.roster.update id Job.close)
        else { p.timer with
          queue := p.timer.queue.push id (max advance.nextTick (sweep.tick + 1)) }
      ticker := .busy sweep .taking } := by
  cases hexhausted : advance.exhausted with
  | false => exact (Step.requeue p sweep id advance submitted ticker hexhausted).leads
  | true =>
    cases submitted with
    | true => exact (Step.dismiss p sweep id advance ticker hexhausted).leads
    | false => exact (Step.retire p sweep id advance ticker hexhausted).leads

/-- The end of a visit at which the job is handed over. -/
theorem leads_handed (ticker : p.ticker = .busy sweep (.offering id advance)) :
    Leads p { p with
      timer :=
        if advance.exhausted then
          if (p.timer.offer id true).1.any fun entry => entry.2 != .refused then
            (p.timer.offer id true).2
          else (p.timer.offer id true).2.withRoster
            ((p.timer.offer id true).2.roster.update id Job.close)
        else { (p.timer.offer id true).2 with
          queue := (p.timer.offer id true).2.queue.push id
            (max advance.nextTick (sweep.tick + 1)) }
      ticker := .busy sweep .taking } := by
  have hany : ((p.timer.offer id true).1.any fun entry => entry.2 != .refused) =
      ((p.timer.trigger id).1 != .refused) := Bool.or_false _
  rw [hany]
  exact (leads_offering ticker).trans (leads_settling rfl)

/-- What follows the look at the schedule. -/
theorem leads_deciding (ticker : p.ticker = .busy sweep (.deciding id advance)) :
    Leads p { p with
      timer := (p.timer.resume id sweep.tick advance (p.fires sweep id advance)).2
      ticker := .busy sweep .taking } := by
  have hdecide := (Step.decide p sweep id advance ticker).leads
  unfold Timer.resume
  rw [decided] at hdecide
  cases hfires : p.fires sweep id advance with
  | false =>
    rw [if_neg (Bool.eq_false_iff.mp hfires)] at hdecide
    exact hdecide.trans (leads_settling rfl)
  | true =>
    rw [if_pos hfires] at hdecide
    cases hexhausted : advance.exhausted with
    | false =>
      rw [if_neg (Bool.eq_false_iff.mp hexhausted)] at hdecide
      have hrest := hdecide.trans (leads_handed rfl)
      rw [hexhausted] at hrest
      exact hrest
    | true =>
      -- the budget is lowered first
      rw [if_pos hexhausted] at hdecide
      have hcap := Step.cap { p with ticker := .busy sweep (.capping id advance) } sweep id advance
        rfl
      have hrest := (hdecide.trans hcap.leads).trans (leads_handed rfl)
      rw [hexhausted] at hrest
      exact hrest

/-- The visit of a job that has left the queue. -/
theorem leads_visit (ticker : p.ticker = .busy sweep (.looking id))
    (hid : id < p.roster.jobs.size) :
    Leads p { p with
      timer := p.timer.visit id sweep.tick sweep.now sweep.dispatching
      ticker := .busy sweep .taking } := by
  rw [← Timer.snd_visitLog]
  have hj : p.timer.roster.get? id = some _ := Array.getElem?_eq_getElem hid
  cases hclosed : p.timer.roster.isClosed id with
  | true =>
    rw [Timer.visitLog_of_closed hclosed]
    exact (Step.skip p sweep id ticker hclosed).leads
  | false =>
    have hlook := (Step.look p sweep id _ ticker hj).leads
    have hrest := hlook.trans (leads_deciding rfl)
    rw [Timer.visitLog, if_neg (Bool.eq_false_iff.mp hclosed), Roster.updateWith_of_get? hj]
    exact hrest

/-- All visits of a tick, as many as there are jobs to be visited. -/
theorem leads_proceed (hp : p.timer.Orderly) (ticker : p.ticker = .busy sweep .taking)
    (last : sweep.tick < Tick.last) (fuel : Nat) (hfuel : p.timer.queue.due sweep.tick ≤ fuel) :
    Leads p { p with
      timer := p.timer.proceedFuel sweep.tick sweep.now sweep.dispatching fuel
      ticker := .idle } := by
  induction fuel generalizing p with
  | zero =>
    have hnone : p.timer.queue.popDue sweep.tick = none := by
      refine Option.eq_none_iff_forall_not_mem.mpr fun ⟨e, queue⟩ hpop => ?_
      rw [Queue.due_popDue hpop] at hfuel
      exact absurd hfuel (Nat.not_succ_le_zero _)
    exact (Step.rest p sweep ticker hnone).leads
  | succ fuel ih =>
    rw [Timer.proceedFuel]
    cases hpop : p.timer.queue.popDue sweep.tick with
    | none => exact (Step.rest p sweep ticker hpop).leads
    | some popped =>
      obtain ⟨e, queue⟩ := popped
      obtain ⟨hrest, he⟩ := hp.popDue hpop
      have htake := Step.take p sweep e queue ticker hpop
      have hvisit := htake.leads.trans (leads_visit rfl he)
      have hdue := Timer.due_visitLog_le last { p.timer with queue := queue } e.value sweep.now
        sweep.dispatching
      have horderly : ({ p.timer with queue := queue }.visitLog e.value sweep.tick sweep.now
          sweep.dispatching).2.Orderly := hrest.visitLog he
      rw [Timer.snd_visitLog] at hdue horderly
      rw [Queue.due_popDue hpop] at hfuel
      exact hvisit.trans (ih horderly rfl (hdue.trans (Nat.le_of_succ_le_succ hfuel)))

/-- A tick. -/
theorem leads_turn {tick : Tick} {now : Instant} (hp : p.timer.Orderly) (ticker : p.ticker = .idle)
    (absent : p.closer = .absent) (next : tick.val = p.timer.ticks.val + 1)
    (last : tick < Tick.last) : Leads p { p with timer := (p.timer.turn tick now).2 } := by
  have htick := (Step.tick p tick now ticker (Or.inl absent) next).leads
  rw [← Timer.snd_turnLog, Timer.turnLog_eq]
  unfold tickOver at htick
  dsimp only at htick
  split
  · next hlater =>
    rw [if_pos hlater, ← ticker] at htick
    exact htick
  · next hdue =>
    rw [if_neg hdue] at htick
    rw [Timer.snd_proceedLog, ticker]
    let sweep : Sweep := ⟨tick, now, (p.timer.reaped tick).status == .running⟩
    have hvisits := leads_proceed (p := { p with
      timer := p.timer.reaped tick
      ticker := .busy sweep .taking }) (hp.reaped tick).orderly rfl last
      (p.timer.reaped tick).queue.size (Queue.due_le_size _ _)
    exact htick.trans hvisits

/-- The end of a timer, as long as no other thread is in the middle of anything. -/
theorem leads_close (absent : p.closer = .absent) (opened : p.timer.status ≠ .closed)
    (ticker : p.ticker = .idle) (dispatcher : p.dispatcher = .idle) (closing : p.closing = false)
    (runner : p.timer.crew.runner.closed = false) :
    Leads p { p with timer := p.timer.close, closer := .done } := by
  obtain ⟨s, t, hbefore, hclear, -, hafter⟩ :=
    run_close absent opened ticker dispatcher closing runner
  exact ⟨_, (hbefore.snoc hclear).append hafter⟩

/-- A tick leads from a state that a timer can come to, with its tick thread at rest, to another. -/
theorem Reachable.turn {tick : Tick} {now : Instant} (h : Reachable p) (ticker : p.ticker = .idle)
    (absent : p.closer = .absent) (next : tick.val = p.timer.ticks.val + 1)
    (last : tick < Tick.last) : Reachable { p with timer := (p.timer.turn tick now).2 } :=
  h.leads (leads_turn h.orderly.queue ticker absent next last)

end Plant

end Metronome
