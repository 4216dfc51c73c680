import Metronome.Proofs.Runner.Shift

/-!
# Rounds of a crew

A crew that is left to itself works off its runs and dispatches what stands in line, in rounds,
until nothing can move. Each of these operations is one of the interleavings of its threads, with
no thread in the middle of anything before or after it. So whatever holds in all states that a
runner can come to holds before and after every operation of a crew.

## Main definitions

* `Shift.Leads` — some interleaving leads from one state to another

## Main results

* `Shift.leads_submit`, `Shift.leads_close` — a trigger, and the end of a runner
* `Shift.leads_dispatch`, `Shift.leads_work`, `Shift.leads_release` — what a crew does
* `Shift.leads_settle` — all rounds of a crew
-/

namespace Metronome

/-- A run of one task does not look at the others. -/
theorem Crew.runTask_withActive (c : Crew) (task : Task) (go : Execution → Job → Job × Execution)
    (active : List Task) :
    { c with active := active }.runTask task go =
      ((c.runTask task go).1, { (c.runTask task go).2 with active := active }) := rfl

theorem Crew.active_runTask (c : Crew) (task : Task) (go : Execution → Job → Job × Execution) :
    (c.runTask task go).2.active = c.active := rfl

namespace Shift

variable {s t u : Shift} {c c' : Crew} {e : Event}

/-- Some interleaving leads from one state to another. -/
def Leads (s t : Shift) : Prop := ∃ es, Run s es t

theorem Leads.refl (s : Shift) : Leads s s := ⟨[], .refl s⟩

theorem Leads.trans (h : Leads s t) (h' : Leads t u) : Leads s u := by
  obtain ⟨es, hst⟩ := h
  obtain ⟨fs, htu⟩ := h'
  exact ⟨es ++ fs, hst.append htu⟩

theorem Step.leads (h : Step s e t) : Leads s t := ⟨[e], .single h⟩

theorem Reachable.leads (h : Reachable s) (h' : Leads s t) : Reachable t := by
  obtain ⟨start, es, hfresh, hrun⟩ := h
  obtain ⟨fs, hrun'⟩ := h'
  exact ⟨start, es ++ fs, hfresh, hrun.append hrun'⟩

/-! ### The runner -/

/-- A trigger that no one interrupts and that is not turned away. -/
theorem run_submit (c : Crew) (id : JobId) (opened : c.runner.turnsAway id = false) :
    Run { crew := c } [.quiet, .answered id (c.runner.submit id).1]
      { crew := { c with runner := (c.runner.submit id).2 } } := by
  have henqueue := Step.enqueue { crew := c, checked := [id] } id List.mem_cons_self
  rw [List.erase_cons_head] at henqueue
  rw [Runner.submit, if_neg (Bool.eq_false_iff.mp opened)]
  exact (Course.single (Step.check { crew := c } id opened)).snoc henqueue

/-- A trigger that no one interrupts. -/
theorem leads_submit (c : Crew) (id : JobId) :
    Leads { crew := c } { crew := { c with runner := (c.runner.submit id).2 } } := by
  cases hshut : c.runner.turnsAway id with
  | true =>
    rw [Runner.submit, if_pos hshut]
    exact .refl _
  | false => exact ⟨_, run_submit c id hshut⟩

theorem leads_close (c : Crew) :
    Leads { crew := c } { crew := { c with runner := c.runner.close } } := by
  rw [Runner.close_eq]
  by_cases hclosed : c.runner.closed = true
  · rw [if_pos hclosed]
    exact .refl _
  · rw [if_neg hclosed]
    rw [Bool.not_eq_true] at hclosed
    exact (Step.shut { crew := c } hclosed).leads.trans (Step.clear _ rfl rfl).leads

/-- The dispatch thread offers a job to the pool and takes it back if it is refused. -/
theorem leads_handOver (c : Crew) (id : JobId) :
    Leads { crew := c, dispatcher := .holding id }
      { crew := { c with
          runner := (c.runner.handOver id c.clock).2
          waiting := c.waiting ++ if (c.runner.handOver id c.clock).1 then [id] else [] } } := by
  rw [Runner.handOver_eq]
  cases hpool : c.runner.pool.submit with
  | ok pool => exact (Step.grant { crew := c, dispatcher := .holding id } id pool rfl hpool).leads
  | error cause =>
    have hrefuse := (Step.refuse { crew := c, dispatcher := .holding id } id cause rfl hpool).leads
    have hback := (Step.takeBack { crew := c, dispatcher := .refused id cause } id cause rfl).leads
    dsimp only
    rw [if_neg Bool.false_ne_true, List.append_nil]
    exact hrefuse.trans hback

/-- The dispatch thread goes through the line until it is empty or the pool is full. -/
theorem leads_dispatchFuel (c : Crew) (fuel : Nat) :
    Leads { crew := c }
      { crew := { c with
          runner := (c.runner.dispatchFuel c.clock fuel).2
          waiting := c.waiting ++ (c.runner.dispatchFuel c.clock fuel).1 } } := by
  induction fuel generalizing c with
  | zero =>
    rw [Runner.dispatchFuel, List.append_nil]
    exact .refl _
  | succ fuel ih =>
    rw [Runner.dispatchFuel]
    by_cases hfull : (decide (c.runner.pool.freeSlots = 0) || c.runner.closed) = true
    · rw [if_pos hfull, List.append_nil]
      exact .refl _
    · rw [if_neg hfull]
      rw [Bool.not_eq_true, Bool.or_eq_false_iff, decide_eq_false_iff_not] at hfull
      have hlook := (Step.look { crew := c } rfl hfull.1 hfull.2).leads
      have hpop := (Step.pop { crew := c, dispatcher := .ready } rfl).leads
      have hpopped := hlook.trans hpop
      cases hresult : c.runner.pop with
      | mk popped r =>
        dsimp only [runner] at hpopped
        rw [hresult] at hpopped
        cases popped with
        | nothing =>
          dsimp only
          rw [List.append_nil]
          exact hpopped
        | dropped id => exact hpopped.trans (ih { c with runner := r })
        | taken id =>
          have hoffer := hpopped.trans (leads_handOver { c with runner := r } id)
          dsimp only at hoffer ⊢
          cases hadmitted : r.handOver id c.clock with
          | mk granted r' =>
            rw [hadmitted] at hoffer
            cases granted with
            | true =>
              have hrest := hoffer.trans (ih { c with runner := r', waiting := c.waiting ++ [id] })
              dsimp only at hrest ⊢
              rw [List.append_assoc] at hrest
              exact hrest
            | false => exact hoffer

theorem leads_dispatch (c : Crew) : Leads { crew := c } { crew := c.dispatch } := by
  -- the clock goes on at the end, by a step of its own
  have hline := leads_dispatchFuel c (c.runner.workload + 1)
  have hpass (d : Crew) (h : d.clock = c.clock) :
      Leads { crew := d } { crew := { d with clock := c.clock.next } } := by
    have hlater : max c.clock c.clock.next = c.clock.next :=
      if_pos (Int.le_of_lt (Instant.lt_next c.clock))
    have hstep := (Step.pass { crew := d } c.clock.next).leads
    rw [Crew.catchUp, h, hlater] at hstep
    exact hstep
  exact hline.trans (hpass _ rfl)

/-! ### The pool -/

/-- The first waiting run gets a thread. -/
theorem leads_beginTask (h : c.beginTask? = some c') : Leads { crew := c } { crew := c' } := by
  rw [Crew.beginTask?_eq] at h
  cases hwaiting : c.waiting with
  | nil =>
    rw [hwaiting] at h
    cases h
  | cons id waiting =>
    rw [hwaiting] at h
    dsimp only at h
    split at h
    · next hfree =>
      cases h
      exact (Step.begin { crew := c } [] id waiting hwaiting hfree).leads
    · cases h

theorem leads_beginTasks (c : Crew) (fuel : Nat) :
    Leads { crew := c } { crew := (c.beginTasks fuel).2 } := by
  induction fuel generalizing c with
  | zero => exact .refl _
  | succ fuel ih =>
    rw [Crew.beginTasks]
    cases hbegin : c.beginTask? with
    | none => exact .refl _
    | some c' => exact (leads_beginTask hbegin).trans (ih c')

/-- Each of the given runs goes on as far as it can, and is completed if it comes to its end. -/
theorem leads_advanceTasks (c : Crew) (tasks : List Task) :
    Leads { crew := { c with active := c.active ++ tasks } } { crew := c.advanceTasks tasks } := by
  -- the crew holds those that have gone on already, and the list is what is left of the others
  induction tasks generalizing c with
  | nil =>
    rw [List.append_nil]
    exact .refl _
  | cons task tasks ih =>
    have hadvance := (Step.advance { crew := { c with active := c.active ++ task :: tasks } }
      c.active task tasks Execution.stepLimit rfl).leads
    have hactive := c.active_runTask task fun x j => x.proceed j Execution.stepLimit
    rw [Crew.moveTask, Crew.runTask_withActive] at hadvance
    rw [Crew.advanceTasks]
    generalize c.runTask task (fun x j => x.proceed j Execution.stepLimit) = result at *
    obtain ⟨task', d⟩ := result
    dsimp only at hactive hadvance ⊢
    rw [← hactive] at hadvance ⊢
    refine hadvance.trans ?_
    split
    · next hover =>
      have hcomplete := (Step.complete { crew := { d with active := d.active ++ task' :: tasks } }
        d.active task' tasks rfl hover).leads
      have hleave := (Step.leave { crew := { d with
        runner := d.runner.complete task'.id
        active := d.active ++ tasks }, leaving := [task'.execution.escaped.isSome] }
        [] task'.execution.escaped.isSome [] rfl).leads
      exact (hcomplete.trans hleave).trans (ih (d.endTask task'))
    · have hrest := ih { d with active := d.active ++ [task'] }
      rw [List.append_assoc] at hrest
      exact hrest

/-- All threads go on. -/
theorem leads_advance (c : Crew) : Leads { crew := c } { crew := c.advance } :=
  leads_advanceTasks { c with active := [] } c.active

theorem leads_workFuel (c : Crew) (fuel : Nat) :
    Leads { crew := c } { crew := c.workFuel fuel } := by
  induction fuel generalizing c with
  | zero => exact .refl _
  | succ fuel ih =>
    have hround := (leads_advance c).trans (leads_beginTasks c.advance c.advance.waiting.length)
    rw [Crew.workFuel]
    cases hbegun : c.advance.beginTasks c.advance.waiting.length with
    | mk n d =>
      rw [hbegun] at hround
      cases n with
      | zero => exact hround
      | succ n => exact hround.trans (ih d)

theorem leads_work (c : Crew) : Leads { crew := c } { crew := c.work } :=
  leads_workFuel c _

/-- Calls that wait at their gates are let through, one after the other. -/
theorem leads_releaseTasks (c : Crew) (before tasks : List Task) (p : Task → Prop)
    [DecidablePred p] :
    Leads { crew := { c with active := before ++ tasks } }
      { crew := { c with
          active := before ++ tasks.map fun t =>
            if p t then { t with execution := t.execution.release } else t } } := by
  induction tasks generalizing before with
  | nil => exact .refl _
  | cons task tasks ih =>
    have hrest := ih (before ++
      [if p task then { task with execution := task.execution.release } else task])
    rw [List.append_assoc, List.append_assoc] at hrest
    refine Leads.trans ?_ hrest
    split
    · exact (Step.release { crew := { c with active := before ++ task :: tasks } } before task tasks
        rfl).leads
    · exact .refl _

theorem leads_release (c : Crew) (id : JobId) :
    Leads { crew := c } { crew := (c.release id).2 } := by
  unfold Crew.release
  split
  · exact .refl _
  · next n _ =>
    exact leads_releaseTasks c [] c.active fun t => t.id = id ∧ t.execution.waitingCall? = some n

/-! ### Rounds -/

theorem leads_settleFuel (c : Crew) (fuel : Nat) :
    Leads { crew := c } { crew := c.settleFuel fuel } := by
  induction fuel generalizing c with
  | zero => exact .refl _
  | succ fuel ih =>
    have hround := (leads_work c).trans (leads_dispatch c.work)
    rw [Crew.settleFuel]
    split
    · exact hround
    · exact hround.trans (ih _)

/-- All rounds of a crew are one interleaving of its threads. -/
theorem leads_settle (c : Crew) : Leads { crew := c } { crew := c.settle } :=
  leads_settleFuel c _

/-- A crew that is left to itself after a trigger comes to a state that it can come to. -/
theorem Reachable.settle_submit (h : Reachable { crew := c }) (id : JobId) :
    Reachable { crew := { c with runner := (c.runner.submit id).2 }.settle } :=
  (h.leads (leads_submit c id)).leads (leads_settle _)

end Shift

end Metronome
