import Metronome.Proofs.Runner.Deeds

/-!
# Changes of the jobs

Whatever a runner and its threads do, they change the jobs of a roster one at a time, and every
change goes through the roster. So the flag of the roster is up after any step in which a job was
closed, whoever has closed it, and nobody but the timer lowers it.

## Main definitions

* `Roster.Updates` — any number of changes, one after the other

## Main results

* `Roster.Updates.reap`, `Roster.Updates.reap_of_closed` — the flag
* `Shift.Step.updates` — what a shift does to the jobs
-/

namespace Metronome

namespace Roster

variable {r r' r'' : Roster} {id : JobId}

/-- Jobs have been changed, one after the other. -/
inductive Updates (r : Roster) : Roster → Prop
  | refl : Updates r r
  | update {r' : Roster} (h : Updates r r') (id : JobId) (f : Job → Job) :
      Updates r (r'.update id f)

theorem updates_update (r : Roster) (id : JobId) (f : Job → Job) : Updates r (r.update id f) :=
  .update .refl id f

theorem Updates.trans (h : Updates r r') (h' : Updates r' r'') : Updates r r'' := by
  induction h' with
  | refl => exact h
  | update _ id f ih => exact .update ih id f

/-- Nobody lowers the flag. -/
theorem Updates.reap (h : Updates r r') (hr : r.reap = true) : r'.reap = true := by
  induction h with
  | refl => exact hr
  | update _ id f ih => rw [reap_update, ih, Bool.true_or]

/-- The flag is up if a job was closed. -/
theorem Updates.reap_of_closed (h : Updates r r') (hopen : r.isClosed id = false)
    (hclosed : r'.isClosed id = true) : r'.reap = true := by
  induction h with
  | refl => exact absurd (hclosed.symm.trans hopen) nofun
  | @update r' hupdates other f ih =>
    cases hbefore : r'.isClosed id with
    | true => rw [reap_update, ih hbefore, Bool.true_or]
    | false =>
      -- the last change is the one that has closed the job
      obtain rfl : other = id := by
        by_contra hne
        rw [isClosed, get?_update, if_neg hne, ← isClosed, hbefore] at hclosed
        cases hclosed
      cases hj : r'.get? other with
      | none =>
        rw [isClosed, hj] at hbefore
        cases hbefore
      | some j =>
        rw [isClosed, hj, Option.all_some] at hbefore
        rw [isClosed, get?_update, if_pos rfl, hj, Option.map_some, Option.all_some] at hclosed
        rw [reap_update, hj, Option.any_some, hbefore, hclosed]
        exact Bool.or_true _

end Roster

namespace Runner

variable {r : Runner} {id : JobId}

theorem updates_updateState (r : Runner) (id : JobId) (f : JobState → JobState) :
    r.roster.Updates (r.updateState id f).roster := r.roster.updates_update id _

theorem updates_enqueue (r : Runner) (id : JobId) : r.roster.Updates (r.enqueue id).2.roster := by
  cases hst : r.roster.state? id with
  | none =>
    rw [enqueue_none hst]
    exact .refl
  | some st =>
    obtain ⟨-, -, heq⟩ | ⟨-, -, -, heq⟩ | ⟨-, heq⟩ := enqueue_cases hst
    · rw [heq]
      exact .refl
    · rw [heq]
      exact r.updates_updateState id _
    · rw [heq]
      exact r.updates_updateState id _

theorem updates_pop (r : Runner) : r.roster.Updates r.pop.2.roster := by
  obtain heq | ⟨id, line, -, ⟨-, heq⟩ | ⟨st, -, -, heq⟩⟩ := r.pop_cases
  · rw [heq]
    exact .refl
  · rw [heq]
    exact updates_updateState { r with line := line } id _
  · rw [heq]
    dsimp only
    split
    · exact updates_updateState { r with line := line } id _
    · exact updates_updateState { r with line := line } id _

theorem updates_requeue (r : Runner) (id : JobId) : r.roster.Updates (r.requeue id).roster := by
  have hcount := r.updates_updateState id (·.addRunning (-1))
  cases hclosed : r.roster.isClosed id with
  | true =>
    rw [requeue_of_closed hclosed]
    exact hcount.trans (updates_updateState _ id _)
  | false =>
    rw [requeue_of_open hclosed]
    exact hcount.trans (updates_updateState _ id _)

theorem updates_takeBack (r : Runner) (id : JobId) (cause : PoolError) (now : Instant) :
    r.roster.Updates (r.takeBack id cause now).roster :=
  (r.updates_requeue id).trans (updates_updateState _ id _)

theorem updates_complete (r : Runner) (id : JobId) : r.roster.Updates (r.complete id).roster := by
  have hcount := r.updates_updateState id (·.addRunning (-1))
  unfold complete
  dsimp only
  split
  · exact hcount.trans (updates_updateState _ id _)
  · split
    · exact hcount
    · exact hcount

theorem updates_dropLine (r : Runner) : r.roster.Updates r.dropLine.roster := by
  suffices h : ∀ (order : List JobId) (r : Runner),
      r.roster.Updates (order.foldl (fun r id => r.updateState id (·.clearPending)) r).roster from
    h r.line.order r
  intro order
  induction order with
  | nil => exact fun _ => .refl
  | cons head order ih => exact fun r => (r.updates_updateState head _).trans (ih _)

end Runner

namespace Shift

variable {s t : Shift} {e : Event}

/-- What the steps of a shift do to the jobs. -/
theorem Step.updates (h : Step s e t) : s.runner.roster.Updates t.runner.roster := by
  cases h with
  | enqueue id => exact s.runner.updates_enqueue id
  | pop => exact s.runner.updates_pop
  | takeBack id cause => exact s.runner.updates_takeBack id cause _
  | begin before id after =>
    have hroster := Crew.roster_startTask s.crew before id after
    exact hroster ▸ Roster.updates_update _ id _
  | advance before task after n =>
    have hroster := Crew.roster_moveTask s.crew before task after n
    exact hroster ▸ Roster.updates_update _ task.id _
  | complete before task => exact s.runner.updates_complete task.id
  | act id action => exact Roster.updates_update _ id _
  | clear => exact s.runner.updates_dropLine
  | _ => exact .refl

end Shift

end Metronome
