import Metronome.Job.Basic

/-!
# Rosters

The jobs of one timer are numbered in the order in which they were added. Whenever one of them is
closed, by whomever, a flag goes up that asks the timer to clear closed jobs out of its queue.

## Main definitions

* `Roster` — the jobs and the flag
* `Roster.update` — changes a job, and raises the flag when that closes it

## Main results

* `Roster.get?_update` — what a change does to each job
-/

namespace Metronome

/-- The number of a job. -/
abbrev JobId := Nat

/-- The jobs of one timer, and whether one of them was closed since the flag was last lowered. -/
structure Roster where
  jobs : Array Job := #[]
  reap : Bool := false

namespace Roster

/-- The job of a number. -/
def get? (r : Roster) (id : JobId) : Option Job := r.jobs[id]?

/-- Adds a job, whose number is the first component. -/
def add (r : Roster) (j : Job) : JobId × Roster :=
  (r.jobs.size, { r with jobs := r.jobs.push j })

/-- Changes a job, and says what the change yields. The flag goes up when the change closes the
job. -/
def updateWith {α : Type} (r : Roster) (id : JobId) (f : Job → α × Job) : Option α × Roster :=
  if h : id < r.jobs.size then
    let (a, j) := f r.jobs[id]
    let closes := !r.jobs[id].isClosed && j.isClosed
    (some a, { jobs := r.jobs.set id j, reap := r.reap || closes })
  else (none, r)

/-- Changes a job. The flag goes up when the change closes the job. -/
def update (r : Roster) (id : JobId) (f : Job → Job) : Roster :=
  (r.updateWith id fun j => ((), f j)).2

/-- Changes the run state of a job. -/
def updateState (r : Roster) (id : JobId) (f : JobState → JobState) : Roster :=
  r.update id fun j => j.withState f

/-- Whether a job is over for good. A number without a job counts as closed. -/
def isClosed (r : Roster) (id : JobId) : Bool := (r.get? id).all Job.isClosed

/-- The run state of a job. -/
def state? (r : Roster) (id : JobId) : Option JobState := (r.get? id).map Job.state

theorem get?_update (r : Roster) (id other : JobId) (f : Job → Job) :
    (r.update id f).get? other = if id = other then (r.get? other).map f else r.get? other := by
  unfold update updateWith get?
  by_cases h : id < r.jobs.size
  · simp only [h, dite_true, Array.getElem?_set]
    split
    · subst_vars
      simp [h]
    · rfl
  · simp only [h, dite_false]
    split
    · subst_vars
      simp [Array.getElem?_eq_none (Nat.le_of_not_lt h)]
    · rfl

end Roster

end Metronome
