import Metronome.Proofs.Runner.Bookkeeping
import Metronome.Proofs.Runner.Rounds

/-!
# Refused dispatches

The pool may refuse a job that has just left the line. The trigger that had become a run is then a
trigger again, so that all counters are what they were before, and the job goes back into line. It
is meant to stand at the head again, and it does, unless it has left a further trigger behind: such
a job has gone to the end of the line at once, and a job that stands in line is not put into it a
second time. It stays at the end, behind all those that it was in front of.

## Main results

* `Runner.requeue_pop` — what becomes of a runner when a dispatch is undone
* `Shift.Bookkeeping.undone` — where the job stands afterwards, for every job in line
* `Shift.not_undone_backlogged` — a job with two triggers loses its place
-/

namespace Metronome

/-! ### Counters -/

namespace Roster

variable {r : Roster} {id : JobId} {st : JobState}

/-- Two changes of a run state, the first of which neither opens nor closes the job, are one. -/
theorem updateState_updateState (r : Roster) (id : JobId) {f : JobState → JobState}
    (hf : ∀ s, (f s).isClosed = s.isClosed) (g : JobState → JobState) :
    (r.updateState id f).updateState id g = r.updateState id fun s => g (f s) := by
  unfold updateState update updateWith
  by_cases h : id < r.jobs.size
  · simp [h, Job.isClosed, Job.withState, hf]
  · simp [h]

theorem updateState_of_eq {f : JobState → JobState} (h : r.state? id = some st) (hf : f st = st) :
    r.updateState id f = r := by
  obtain ⟨j, hj, rfl⟩ := Option.map_eq_some_iff.mp h
  refine update_self hj ?_
  rw [Job.withState, hf]

end Roster

/-- A run that is taken back is the trigger that it was. A singleton has no other one. -/
theorem JobState.restore_launched {s : JobState} (h : s.singleton = true → s.pending = 1) :
    (((s.addPending (-1)).addRunning 1).addRunning (-1)).restore = s := by
  have hpending : (if s.singleton = true ∧ s.pending - 1 ≠ 0 then s.pending - 1
      else s.pending - 1 + 1) = s.pending := by
    split
    · next hother =>
      rw [h hother.1] at hother
      exact absurd rfl hother.2
    · exact Int32.sub_add_cancel _ _
  rw [launch_eq, addRunning_neg_one, restore_eq]
  simp only [Int32.add_sub_cancel, hpending]

/-! ### The line -/

/-- The job at the head is the one that leaves the line. -/
theorem Line.exists_popFront {l : Line} {id : JobId} {order : List JobId}
    (h : l.order = id :: order) : ∃ rest, l.popFront = some (id, rest) ∧ rest.order = order := by
  rw [popFront, h]
  exact ⟨_, rfl, rfl⟩

/-- A job that goes from the head to the end has only kept its place if nobody stood behind it. -/
theorem Line.append_eq_cons_iff {id : JobId} {order : List JobId} (h : id ∉ order) :
    order ++ [id] = id :: order ↔ order = [] := by
  cases order with
  | nil => exact iff_of_true rfl rfl
  | cons other order =>
    refine iff_of_false (fun heq => h ?_) (List.cons_ne_nil other order)
    rw [(List.cons.inj heq).1]
    exact List.mem_cons_self

namespace Runner

variable {r : Runner} {id : JobId} {st : JobState} {line : Line}

/-- The trigger of a job that was taken is given back, and nothing has happened. -/
theorem restore_launch (hst : r.roster.state? id = some st)
    (hsingle : st.singleton = true → st.pending = 1) (line : Line) :
    ((r.launch id line).updateState id (·.addRunning (-1))).updateState id (·.restore) =
      { r with line := line } := by
  have hkeep (s : JobState) :
      (((s.addPending (-1)).addRunning 1).addRunning (-1)).isClosed = s.isClosed :=
    (JobState.isClosed_addRunning _ _).trans s.isClosed_launch
  unfold launch updateState
  dsimp only
  rw [Roster.updateState_updateState _ _ JobState.isClosed_launch,
    Roster.updateState_updateState _ _ hkeep]
  exact congrArg (fun roster => { r with line := line, roster := roster })
    (Roster.updateState_of_eq
      (f := fun s => (((s.addPending (-1)).addRunning 1).addRunning (-1)).restore) hst
      (JobState.restore_launched hsingle))

/-- When a dispatch is undone, the runner is as before, save for the line. -/
theorem requeue_pop (hsound : r.line.Sound) (hline : r.line.popFront = some (id, line))
    (hst : r.roster.state? id = some st) (opened : st.isClosed = false)
    (hasked : 1 ≤ st.pending) (hsingle : st.singleton = true → st.pending = 1) :
    r.pop.2.requeue id =
      { r with
        line := if st.singleton = false ∧ 1 < st.pending then line.pushBack id
          else line.pushFront id } := by
  have hrest : line.Sound := hsound.popFront hline
  have hopen : (r.launch id line).roster.isClosed id = false :=
    (Roster.isClosed_of_state? (state?_launch hst line)).trans (st.isClosed_launch.trans opened)
  rw [pop_of_open hline hst opened]
  simp only [JobState.goesOn_iff hasked]
  split
  · -- the job is in line already, and `pushFront` leaves it where it is
    have hmem : id ∈ (line.pushBack id).order := hrest.mem_pushBack.mpr (Or.inl rfl)
    have hback := congrArg (fun r => (r.pushBack id).pushFront id) (restore_launch hst hsingle line)
    rw [requeue_of_open (r := (r.launch id line).pushBack id) hopen]
    refine hback.trans ?_
    dsimp only [pushBack, pushFront]
    rw [Line.pushFront_of_mem (hrest.pushBack id) hmem]
  · rw [requeue_of_open hopen, restore_launch hst hsingle]
    rfl

end Runner

namespace Shift

variable {s : Shift} {id : JobId} {st : JobState} {rest : List JobId}

/-- The dispatch of an open job is undone when the pool refuses it. All counters are what they were,
and the same jobs are in line. The job is at the head again if it has no further trigger or nobody
stands behind it, and so is every singleton; otherwise it is now the last one. -/
theorem Bookkeeping.undone (h : s.Bookkeeping) (hline : s.runner.line.order = id :: rest)
    (hst : s.runner.roster.state? id = some st) (opened : st.isClosed = false) :
    s.runner.pop.1 = .taken id ∧
    s.runner.pop.2.roster.state? id =
      some { st with pending := st.pending - 1, running := st.running + 1 } ∧
    ∃ line, s.runner.pop.2.requeue id = { s.runner with line := line } ∧
      (∀ other, other ∈ line.queued ↔ other ∈ s.runner.line.queued) ∧
      line.order =
        (if st.singleton = false ∧ 1 < st.pending then rest ++ [id] else id :: rest) ∧
      (line.order = s.runner.line.order ↔
        st.singleton = true ∨ st.pending = 1 ∨ rest = []) := by
  have hsound : s.runner.line.Sound := ⟨h.nodup, h.mem_queued⟩
  have hmem : id ∈ s.runner.line.order := by
    rw [hline]
    exact List.mem_cons_self
  have hbooked := h.jobs id st hst
  have hpending := hbooked.asked hmem opened
  have hsingle (single : st.singleton = true) : st.pending = 1 :=
    Int32.le_antisymm (hbooked.singleton single).1 hpending
  obtain ⟨line, hpop, rfl⟩ := Line.exists_popFront hline
  have hrest := hsound.popFront hpop
  have hout : id ∉ line.order := fun hin => ((hsound.mem_popFront hpop).mp hin).1 rfl
  refine ⟨?_, ?_, _, Runner.requeue_pop hsound hpop hst opened hpending hsingle,
    ?_, ?_, ?_⟩
  · rw [Runner.pop_of_open hpop hst opened]
  · rw [Runner.pop_of_open hpop hst opened]
    have hlaunch := Runner.state?_launch hst line
    rw [JobState.launch_eq] at hlaunch
    dsimp only
    split <;> exact hlaunch
  · intro other
    rw [hsound.mem_queued, hline, List.mem_cons]
    split
    · rw [(hrest.pushBack id).mem_queued, hrest.mem_pushBack]
    · rw [(hrest.pushFront id).mem_queued, hrest.mem_pushFront]
  · split
    · exact Line.order_pushBack hrest hout
    · exact Line.order_pushFront hrest hout
  · rw [hline]
    split
    · next hmore =>
      have hregular : st.singleton ≠ true := by
        rw [hmore.1]
        exact Bool.false_ne_true
      rw [Line.order_pushBack hrest hout, or_iff_right hregular,
        or_iff_right (Int32.ne_of_lt hmore.2).symm]
      exact Line.append_eq_cons_iff hout
    · next hnone =>
      rw [Line.order_pushFront hrest hout]
      refine iff_of_true rfl ?_
      by_cases single : st.singleton = true
      · exact Or.inl single
      · exact Or.inr (Or.inl (Int32.le_antisymm (Int32.not_lt.mp fun hlt =>
          hnone ⟨Bool.not_eq_true _ ▸ single, hlt⟩) hpending))

/-- Two regular jobs in line, the first of which has two triggers. -/
def backlogged : Shift :=
  let s := ofJobs #[default, default] 1
  s.withRunner (((s.runner.submit 0).2.submit 0).2.submit 1).2

theorem fresh_backlogged : Fresh (ofJobs #[default, default] 1) := by
  refine fresh_ofJobs fun j hj => ?_
  obtain rfl : j = default := by simpa using hj
  exact ⟨rfl, rfl⟩

theorem run_backlogged : Run (ofJobs #[default, default] 1)
    [.quiet, .answered 0 .queued, .quiet, .answered 0 .queued, .quiet, .answered 1 .queued]
    backlogged := by
  let s := ofJobs #[default, default] 1
  have hfirst := (run_submit s.crew 0 rfl).append (run_submit _ 0 (by decide +kernel))
  exact hfirst.append (run_submit _ 1 (by decide +kernel))

theorem bookkeeping_backlogged : backlogged.Bookkeeping :=
  Run.bookkept run_backlogged fresh_backlogged (by decide)

theorem state?_backlogged : backlogged.runner.roster.state? 0 =
    some { JobState.new false none .ready with pending := 2 } := by
  decide +kernel

theorem order_backlogged : backlogged.runner.line.order = [0, 1] := by
  have hline : backlogged.runner.line = ((({} : Line).pushBack 0).pushBack 0).pushBack 1 := rfl
  have hempty := Line.sound_empty
  have hfirst : (({} : Line).pushBack 0).order = [0] := Line.order_pushBack hempty List.not_mem_nil
  have hagain : (({} : Line).pushBack 0).pushBack 0 = ({} : Line).pushBack 0 :=
    Line.pushBack_of_mem (hempty.pushBack 0) (by rw [hfirst]; exact List.mem_cons_self)
  rw [hline, hagain, Line.order_pushBack (hempty.pushBack 0) (by rw [hfirst]; decide), hfirst]
  rfl

/-- The first of the two jobs is refused, and stands behind the other one. -/
theorem undone_backlogged : backlogged.Bookkeeping ∧ backlogged.runner.line.order = [0, 1] ∧
    backlogged.runner.roster.isClosed 0 = false ∧
    (backlogged.runner.pop.2.requeue 0).line.order = [1, 0] := by
  have hbook := bookkeeping_backlogged
  have hst := state?_backlogged
  obtain ⟨-, -, line, hback, -, horder, -⟩ := hbook.undone order_backlogged hst rfl
  exact ⟨hbook, order_backlogged, Roster.isClosed_of_state? hst, by rw [hback, horder]; rfl⟩

/-- A refused job is not always at the head of the line again. -/
theorem not_undone_backlogged :
    ¬ ∀ (s : Shift) (id : JobId) (rest : List JobId) (st : JobState), s.Bookkeeping →
      s.runner.line.order = id :: rest → s.runner.roster.state? id = some st →
      st.isClosed = false → (s.runner.pop.2.requeue id).line.order = id :: rest := by
  intro h
  have hbook := bookkeeping_backlogged
  have hsound : backlogged.runner.line.Sound := ⟨hbook.nodup, hbook.mem_queued⟩
  obtain ⟨line, hpop, hrest⟩ := Line.exists_popFront order_backlogged
  have hback := h backlogged 0 [1] _ hbook order_backlogged state?_backlogged rfl
  rw [Runner.requeue_pop hsound hpop state?_backlogged rfl (by decide) nofun,
    if_pos ⟨rfl, by decide⟩,
    Line.order_pushBack (hsound.popFront hpop) (by rw [hrest]; decide), hrest] at hback
  exact absurd hback (by decide)

end Shift

end Metronome
