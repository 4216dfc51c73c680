import Metronome.Proofs.Job.Keeps
import Metronome.Proofs.Pool.Admission
import Metronome.Proofs.Runner.Line
import Metronome.Proofs.Runner.Shift

/-!
# What the operations of a runner do

Each operation of a runner treats one job. Its cases say all that it does to this job and to the
line, and whatever concerns another job is as before.

## Main definitions

* `Runner.launch` — the counters move from a trigger to a run
* `Runner.Alike` — nothing has changed for a job

## Main results

* `Runner.enqueue_cases`, `Runner.pop_cases`, `Runner.requeue_of_closed`, `Runner.requeue_of_open`,
  `Runner.complete_of_closed`, `Runner.complete_of_open`, `Runner.state?_dropLine` — the cases
* `Runner.alike_enqueue`, `Runner.alike_launch`, `Runner.alike_takeBack`, `Runner.alike_complete` —
  the other jobs
* `Shift.Step.line_sound` — every step keeps order and set of the line in agreement
-/

namespace Metronome

/-! ### Jobs -/

/-- The runner sees of a change of a job what it sees of the change of the run state. -/
theorem Job.Keeps.state {j k : Job} (h : j.Keeps k) : j.state.Keeps k.state :=
  ⟨h.singleton, h.pending, h.running, h.closed⟩

namespace Roster

variable {r : Roster} {id other : JobId} {st : JobState}

theorem state?_update (r : Roster) (id other : JobId) (f : Job → Job) :
    (r.update id f).state? other =
      if id = other then (r.get? other).map fun j => (f j).state else r.state? other := by
  rw [state?, get?_update]
  split
  · rw [Option.map_map]
    rfl
  · rfl

theorem state?_updateState (r : Roster) (id other : JobId) (f : JobState → JobState) :
    (r.updateState id f).state? other =
      if id = other then (r.state? other).map f else r.state? other := by
  rw [updateState, state?_update, state?, Option.map_map]
  rfl

theorem isClosed_eq (r : Roster) (id : JobId) :
    r.isClosed id = (r.state? id).all JobState.isClosed := by
  rw [isClosed, state?, Option.all_map]
  rfl

theorem isClosed_of_state? (h : r.state? id = some st) : r.isClosed id = st.isClosed := by
  rw [isClosed_eq, h, Option.all_some]

theorem updateWith_snd {α : Type} (r : Roster) (id : JobId) (f : Job → α × Job) :
    (r.updateWith id f).2 = r.update id fun j => (f j).2 := by
  unfold update updateWith
  split <;> rfl

theorem updateWith_of_get? {α : Type} {j : Job} (h : r.get? id = some j) (f : Job → α × Job) :
    r.updateWith id f = (some (f j).1, r.update id fun j => (f j).2) := by
  rw [← updateWith_snd]
  obtain ⟨hid, rfl⟩ := Array.getElem?_eq_some_iff.mp h
  unfold updateWith
  rw [dif_pos hid]

/-- What raises the flag: a change that closes the job. -/
theorem reap_update (r : Roster) (id : JobId) (f : Job → Job) :
    (r.update id f).reap = (r.reap || (r.get? id).any fun j => !j.isClosed && (f j).isClosed) := by
  unfold update updateWith get?
  by_cases h : id < r.jobs.size
  · simp [h]
  · simp [h]

/-- Changes that do the same to the job do the same to the roster. -/
theorem update_congr {j : Job} {f g : Job → Job} (h : r.get? id = some j) (hfg : f j = g j) :
    r.update id f = r.update id g := by
  obtain ⟨hid, rfl⟩ := Array.getElem?_eq_some_iff.mp h
  unfold update updateWith
  simp only [hid, dite_true, hfg]

/-- A job that is replaced by itself has not changed, and neither has the flag. -/
theorem update_self {j : Job} {f : Job → Job} (h : r.get? id = some j) (hf : f j = j) :
    r.update id f = r := by
  obtain ⟨hid, rfl⟩ := Array.getElem?_eq_some_iff.mp h
  unfold update updateWith
  simp [hid, hf]

/-- If the runner does not see the change of one job, then it sees none in any job. -/
theorem keeps_update {f : Job → Job} (hf : ∀ j : Job, j.Keeps (f j))
    (h : r.state? other = some st) :
    ∃ st', (r.update id f).state? other = some st' ∧ st.Keeps st' := by
  rw [state?_update]
  split
  · obtain ⟨j, hj, rfl⟩ := Option.map_eq_some_iff.mp h
    exact ⟨(f j).state, by rw [hj, Option.map_some], (hf j).state⟩
  · exact ⟨st, h, .refl st⟩

end Roster

/-- A refused run turns into a trigger again, unless a singleton has got another one. -/
def JobState.restore (s : JobState) : JobState :=
  if !s.singleton || s.pending == 0 then s.addPending 1 else s

theorem JobState.restore_eq (s : JobState) :
    s.restore = { s with
      pending := if s.singleton = true ∧ s.pending ≠ 0 then s.pending else s.pending + 1 } := by
  by_cases h : s.singleton = true ∧ s.pending ≠ 0
  · rw [if_pos h, restore, if_neg (by simp [h])]
  · rw [if_neg h, restore, if_pos]
    · rfl
    · by_cases hsingle : s.singleton = true
      · simp only [Decidable.not_not.mp fun hp => h ⟨hsingle, hp⟩, beq_self_eq_true, Bool.or_true]
      · simp only [hsingle, Bool.not_false, Bool.true_or]

theorem JobState.isClosed_addRunning (s : JobState) (d : Int32) :
    (s.addRunning d).isClosed = s.isClosed := rfl

theorem JobState.isClosed_addPending (s : JobState) (d : Int32) :
    (s.addPending d).isClosed = s.isClosed := rfl

theorem JobState.isClosed_launch (s : JobState) :
    ((s.addPending (-1)).addRunning 1).isClosed = s.isClosed :=
  ((s.addPending (-1)).isClosed_addRunning 1).trans (s.isClosed_addPending (-1))

theorem JobState.isClosed_restore (s : JobState) : s.restore.isClosed = s.isClosed := by
  rw [restore_eq]
  rfl

/-- A trigger turns into a run. -/
theorem JobState.launch_eq (s : JobState) :
    (s.addPending (-1)).addRunning 1 =
      { s with pending := s.pending - 1, running := s.running + 1 } := by
  rw [addRunning, addPending, Int32.add_neg_eq_sub]

theorem JobState.addRunning_neg_one (s : JobState) :
    s.addRunning (-1) = { s with running := s.running - 1 } := by
  rw [addRunning, Int32.add_neg_eq_sub]

/-- Whether a job that was taken from the line has a further trigger to stand in line for. -/
theorem JobState.goesOn_iff {s : JobState} (h : 1 ≤ s.pending) :
    (!s.singleton && decide (0 < s.pending - 1)) = true ↔ s.singleton = false ∧ 1 < s.pending := by
  rw [Bool.and_eq_true, Bool.not_eq_true', decide_eq_true_eq]
  exact and_congr_right fun _ => by grind

/-! ### Runners -/

namespace Runner

variable {r : Runner} {id other : JobId} {st : JobState}

theorem state?_updateState_self (h : r.roster.state? id = some st) (f : JobState → JobState) :
    (r.updateState id f).roster.state? id = some (f st) := by
  rw [updateState, Roster.state?_updateState, if_pos rfl, h, Option.map_some]

theorem state?_updateState_ne (h : id ≠ other) (f : JobState → JobState) :
    (r.updateState id f).roster.state? other = r.roster.state? other := by
  rw [updateState, Roster.state?_updateState, if_neg h]

/-- What becomes of a trigger that was not turned away. -/
theorem enqueue_cases (h : r.roster.state? id = some st) :
    st.singleton = true ∧ 0 < st.pending ∧
        r.enqueue id = (.coalesced, { r with coalesced := r.coalesced + 1 }) ∨
      st.singleton = true ∧ ¬ 0 < st.pending ∧ st.running ≠ 0 ∧
        r.enqueue id = (.queued, r.updateState id (·.addPending 1)) ∨
      (st.singleton = true → ¬ 0 < st.pending ∧ st.running = 0) ∧
        r.enqueue id = (.queued, (r.updateState id (·.addPending 1)).pushBack id) := by
  unfold enqueue
  rw [h]
  dsimp only
  by_cases hsingle : st.singleton = true
  · by_cases hpending : 0 < st.pending
    · left
      rw [if_pos hsingle, if_pos hpending]
      exact ⟨hsingle, hpending, rfl⟩
    · by_cases hrunning : st.running = 0
      · right; right
        rw [if_pos hsingle, if_neg hpending, if_pos hrunning]
        exact ⟨fun _ => ⟨hpending, hrunning⟩, rfl⟩
      · right; left
        rw [if_pos hsingle, if_neg hpending, if_neg hrunning]
        exact ⟨hsingle, hpending, hrunning, rfl⟩
  · right; right
    rw [if_neg hsingle]
    exact ⟨fun h => absurd h hsingle, rfl⟩

theorem enqueue_none (h : r.roster.state? id = none) : r.enqueue id = (.refused, r) := by
  rw [enqueue, h]

/-- The counters move from a trigger to a run. -/
def launch (r : Runner) (id : JobId) (line : Line) : Runner :=
  { r with line := line }.updateState id fun s => (s.addPending (-1)).addRunning 1

theorem state?_launch (hst : r.roster.state? id = some st) (line : Line) :
    (r.launch id line).roster.state? id = some ((st.addPending (-1)).addRunning 1) :=
  state?_updateState_self (r := { r with line := line }) hst _

/-- The first job in line is taken if it is open, and goes to the end of the line if it is regular
and has a further trigger. -/
theorem pop_of_open {line : Line} (hline : r.line.popFront = some (id, line))
    (hst : r.roster.state? id = some st) (opened : st.isClosed = false) :
    r.pop = (.taken id,
      if !st.singleton && decide (0 < st.pending - 1) then (r.launch id line).pushBack id
      else r.launch id line) := by
  have hopen : ¬ r.roster.isClosed id = true := by
    rw [Roster.isClosed_of_state? hst, opened]
    exact Bool.false_ne_true
  have hafter := state?_launch hst line
  unfold launch at hafter ⊢
  unfold pop
  rw [hline]
  dsimp only
  rw [if_neg hopen, hafter, Option.any_some, JobState.launch_eq]

/-- What becomes of the line when it is popped. -/
theorem pop_cases (r : Runner) :
    r.pop = (.nothing, r) ∨
      ∃ id line, r.line.popFront = some (id, line) ∧
        (r.roster.isClosed id = true ∧
            r.pop = (.dropped id, { r with line := line }.updateState id (·.clearPending)) ∨
          ∃ st, r.roster.state? id = some st ∧ st.isClosed = false ∧
            r.pop = (.taken id,
              if !st.singleton && decide (0 < st.pending - 1) then
                (r.launch id line).pushBack id
              else r.launch id line)) := by
  cases hline : r.line.popFront with
  | none =>
    left
    rw [pop, hline]
  | some first =>
    obtain ⟨id, line⟩ := first
    refine Or.inr ⟨id, line, rfl, ?_⟩
    by_cases hclosed : r.roster.isClosed id = true
    · refine Or.inl ⟨hclosed, ?_⟩
      rw [pop, hline]
      dsimp only
      rw [if_pos hclosed]
    · cases hst : r.roster.state? id with
      | none =>
        rw [Roster.isClosed_eq, hst] at hclosed
        exact absurd rfl hclosed
      | some st =>
        rw [Roster.isClosed_of_state? hst, Bool.not_eq_true] at hclosed
        exact Or.inr ⟨st, rfl, hclosed, pop_of_open hline hst hclosed⟩

/-- Only an empty line yields nothing. -/
theorem pop_eq_nothing_iff : r.pop.1 = .nothing ↔ r.line.order = [] := by
  unfold pop Line.popFront
  cases r.line.order with
  | nil => exact iff_of_true rfl rfl
  | cons id order =>
    refine iff_of_false ?_ (List.cons_ne_nil id order)
    dsimp only
    split <;> nofun

theorem pop_of_nothing (h : r.pop.1 = .nothing) : r.pop = (.nothing, r) := by
  obtain heq | ⟨id, line, -, ⟨-, heq⟩ | ⟨st, -, -, heq⟩⟩ := r.pop_cases
  · exact heq
  · rw [heq] at h
    cases h
  · rw [heq] at h
    cases h

theorem pool_pop (r : Runner) : r.pop.2.pool = r.pool := by
  obtain heq | ⟨id, line, -, ⟨-, heq⟩ | ⟨st, -, -, heq⟩⟩ := r.pop_cases
  · rw [heq]
  · rw [heq]
    rfl
  · rw [heq]
    dsimp only
    split <;> rfl

/-- The first job in line is taken unless it is closed. -/
theorem pop_of_order {rest : List JobId} (hline : r.line.order = id :: rest)
    (opened : r.roster.isClosed id = false) :
    ∃ r', r.pop = (.taken id, r') ∧ r'.pool = r.pool := by
  unfold pop Line.popFront
  rw [hline]
  dsimp only
  rw [if_neg (Bool.eq_false_iff.mp opened)]
  refine ⟨_, rfl, ?_⟩
  split <;> rfl

/-- The counters do not tell whether a job is closed. -/
theorem isClosed_updateState {f : JobState → JobState} (hf : ∀ s, (f s).isClosed = s.isClosed)
    (r : Runner) (id other : JobId) :
    (r.updateState id f).roster.isClosed other = r.roster.isClosed other := by
  rw [Roster.isClosed_eq, Roster.isClosed_eq, updateState, Roster.state?_updateState]
  split
  · rw [Option.all_map]
    exact congrArg (Option.all · _) (funext hf)
  · rfl

theorem isClosed_addRunning (r : Runner) (id other : JobId) (d : Int32) :
    (r.updateState id (·.addRunning d)).roster.isClosed other = r.roster.isClosed other :=
  isClosed_updateState (f := (·.addRunning d)) (fun s => s.isClosed_addRunning d) r id other

theorem requeue_of_closed (h : r.roster.isClosed id = true) :
    r.requeue id = (r.updateState id (·.addRunning (-1))).updateState id (·.clearPending) := by
  unfold requeue
  dsimp only
  rw [isClosed_addRunning, if_pos h]

theorem requeue_of_open (h : r.roster.isClosed id = false) :
    r.requeue id =
      ((r.updateState id (·.addRunning (-1))).updateState id (·.restore)).pushFront id := by
  unfold requeue
  dsimp only
  rw [isClosed_addRunning, if_neg (Bool.not_eq_true _ ▸ h)]
  rfl

theorem complete_of_closed (h : r.roster.isClosed id = true) :
    r.complete id = (r.updateState id (·.addRunning (-1))).updateState id (·.clearPending) := by
  unfold complete
  dsimp only
  rw [isClosed_addRunning, if_pos h]

theorem complete_of_open (h : r.roster.state? id = some st) (opened : st.isClosed = false) :
    r.complete id =
      if st.singleton && decide (0 < st.pending) then
        (r.updateState id (·.addRunning (-1))).pushBack id
      else r.updateState id (·.addRunning (-1)) := by
  have hopen : ¬ r.roster.isClosed id = true := by rw [Roster.isClosed_of_state? h, opened]; decide
  unfold complete
  dsimp only
  rw [isClosed_addRunning, if_neg hopen, state?_updateState_self h, Option.any_some,
    JobState.addRunning_neg_one]

/-- The pending triggers of the jobs in line are dropped. -/
theorem state?_dropLine (r : Runner) (id : JobId) :
    r.dropLine.roster.state? id =
      if id ∈ r.line.order then (r.roster.state? id).map (·.clearPending)
      else r.roster.state? id := by
  suffices h : ∀ (order : List JobId) (r : Runner),
      (order.foldl (fun r id => r.updateState id (·.clearPending)) r).roster.state? id =
        if id ∈ order then (r.roster.state? id).map (·.clearPending)
        else r.roster.state? id from h r.line.order r
  intro order
  induction order with
  | nil => exact fun _ => rfl
  | cons head order ih =>
    intro r
    rw [List.foldl_cons, ih, updateState, Roster.state?_updateState]
    by_cases hhead : head = id
    · -- clearing twice is clearing once
      subst hhead
      rw [if_pos rfl, if_pos List.mem_cons_self, Option.map_map]
      split <;> rfl
    · rw [if_neg hhead]
      exact if_congr (List.mem_cons.trans (or_iff_right (Ne.symm hhead))).symm rfl rfl

/-! ### Lines -/

theorem sound_enqueue (h : r.line.Sound) : (r.enqueue id).2.line.Sound := by
  cases hst : r.roster.state? id with
  | none =>
    rw [enqueue_none hst]
    exact h
  | some st =>
    obtain ⟨-, -, heq⟩ | ⟨-, -, -, heq⟩ | ⟨-, heq⟩ := enqueue_cases hst
    · rw [heq]
      exact h
    · rw [heq]
      exact h
    · rw [heq]
      exact h.pushBack id

theorem sound_pop (h : r.line.Sound) : r.pop.2.line.Sound := by
  obtain heq | ⟨id, line, hline, ⟨-, heq⟩ | ⟨st, -, -, heq⟩⟩ := r.pop_cases
  · rw [heq]
    exact h
  · rw [heq]
    exact h.popFront hline
  · rw [heq]
    dsimp only
    split
    · exact (h.popFront hline).pushBack id
    · exact h.popFront hline

theorem sound_requeue (h : r.line.Sound) : (r.requeue id).line.Sound := by
  cases hclosed : r.roster.isClosed id with
  | true =>
    rw [requeue_of_closed hclosed]
    exact h
  | false =>
    rw [requeue_of_open hclosed]
    exact h.pushFront id

theorem sound_complete (h : r.line.Sound) : (r.complete id).line.Sound := by
  unfold complete
  dsimp only
  split
  · exact h
  · split
    · exact h.pushBack id
    · exact h

/-! ### The other jobs -/

/-- Nothing has changed for a job. -/
structure Alike (id : JobId) (r r' : Runner) : Prop where
  state : r'.roster.state? id = r.roster.state? id
  line : id ∈ r'.line.order ↔ id ∈ r.line.order

theorem alike_updateState (h : id ≠ other) (f : JobState → JobState) :
    Alike other r (r.updateState id f) := ⟨state?_updateState_ne h f, Iff.rfl⟩

theorem Alike.trans {r' r'' : Runner} (h : Alike id r r') (h' : Alike id r' r'') :
    Alike id r r'' := ⟨h'.state.trans h.state, h'.line.trans h.line⟩

theorem alike_pushBack (hr : r.line.Sound) (h : id ≠ other) : Alike other r (r.pushBack id) :=
  ⟨rfl, hr.mem_pushBack.trans (or_iff_right h.symm)⟩

theorem alike_pushFront (hr : r.line.Sound) (h : id ≠ other) : Alike other r (r.pushFront id) :=
  ⟨rfl, hr.mem_pushFront.trans (or_iff_right h.symm)⟩

theorem alike_enqueue (hr : r.line.Sound) (h : id ≠ other) : Alike other r (r.enqueue id).2 := by
  have hcount := alike_updateState (r := r) h (·.addPending 1)
  cases hst : r.roster.state? id with
  | none =>
    rw [enqueue_none hst]
    exact ⟨rfl, Iff.rfl⟩
  | some st =>
    obtain ⟨-, -, heq⟩ | ⟨-, -, -, heq⟩ | ⟨-, heq⟩ := enqueue_cases hst
    · rw [heq]
      exact ⟨rfl, Iff.rfl⟩
    · rw [heq]
      exact hcount
    · rw [heq]
      exact hcount.trans (alike_pushBack hr h)

theorem alike_popFront {line : Line} (hr : r.line.Sound) (hline : r.line.popFront = some (id, line))
    (h : id ≠ other) : Alike other r { r with line := line } :=
  ⟨rfl, (hr.mem_popFront hline).trans (and_iff_right h.symm)⟩

theorem alike_launch {line : Line} (hr : r.line.Sound) (hline : r.line.popFront = some (id, line))
    (h : id ≠ other) : Alike other r (r.launch id line) :=
  (alike_popFront hr hline h).trans (alike_updateState h _)

theorem alike_requeue (hr : r.line.Sound) (h : id ≠ other) : Alike other r (r.requeue id) := by
  have hcount := alike_updateState (r := r) h (·.addRunning (-1))
  cases hclosed : r.roster.isClosed id with
  | true =>
    rw [requeue_of_closed hclosed]
    exact hcount.trans (alike_updateState h _)
  | false =>
    rw [requeue_of_open hclosed]
    exact (hcount.trans (alike_updateState h _)).trans (alike_pushFront hr h)

theorem alike_takeBack (hr : r.line.Sound) (h : id ≠ other) (cause : PoolError) (now : Instant) :
    Alike other r (r.takeBack id cause now) := by
  have hback : Alike other r { r.requeue id with rejected := (r.requeue id).rejected + 1 } :=
    (alike_requeue hr h).trans ⟨rfl, Iff.rfl⟩
  exact hback.trans (alike_updateState h _)

theorem alike_complete (hr : r.line.Sound) (h : id ≠ other) : Alike other r (r.complete id) := by
  have hcount := alike_updateState (r := r) h (·.addRunning (-1))
  unfold complete
  dsimp only
  split
  · exact hcount.trans (alike_updateState h _)
  · split
    · exact hcount.trans (alike_pushBack hr h)
    · exact hcount

end Runner

namespace Shift

/-- Every step keeps order and set of the line in agreement. -/
theorem Step.line_sound {s t : Shift} {e : Event} (h : Step s e t) (hs : s.runner.line.Sound) :
    t.runner.line.Sound := by
  cases h with
  | enqueue => exact Runner.sound_enqueue hs
  | pop => exact Runner.sound_pop hs
  | takeBack => exact Runner.sound_requeue hs
  | complete => exact Runner.sound_complete hs
  | clear => exact Line.sound_empty
  | _ => exact hs

end Shift

end Metronome
