import Metronome.Proofs.Runner.Account
import Metronome.Proofs.Runner.Cases

/-!
# From shifts to accounts

Every step of a shift is a move of the account of each job, so that a run of the shift, seen from
one job, is a course of moves. What holds throughout the courses of a single account therefore
holds for each of the jobs that share a runner.

## Main definitions

* `Crew.flying` — the runs of a job in the pool that are not completed
* `Shift.account` — what a shift keeps about a job

## Main results

* `Shift.Step.move` — every step is a move of the account of each job
-/

namespace Metronome

/-! ### Runs in the pool -/

namespace Crew

variable {c : Crew} {id other : JobId} {st : JobState}

/-- The number of runs of a job in the pool that are not completed. -/
def flying (c : Crew) (id : JobId) : Nat :=
  c.waiting.count id + (c.active.map Task.id).count id

theorem roster_runTask (c : Crew) (task : Task) (go : Execution → Job → Job × Execution) :
    (c.runTask task go).2.runner.roster =
      c.runner.roster.update task.id fun j =>
        (go { task.execution with clock := c.clock, log := [] } j).1 := by
  unfold runTask
  exact (Roster.updateWith_snd _ _ _).trans rfl

theorem flying_startTask {before after : List JobId} (h : c.waiting = before ++ id :: after)
    (other : JobId) : (c.startTask before id after).flying other = c.flying other := by
  have hactive : (c.startTask before id after).active.map Task.id = c.active.map Task.id ++ [id] :=
    List.map_append
  have hwaiting : (c.startTask before id after).waiting = before ++ after := rfl
  rw [flying, flying, hactive, hwaiting, h]
  simp only [List.count_append, List.count_cons, List.count_nil]
  omega

theorem flying_moveTask {before after : List Task} {task : Task}
    (h : c.active = before ++ task :: after) (n : Nat) (other : JobId) :
    (c.moveTask before task after n).flying other = c.flying other := by
  have hactive : (c.moveTask before task after n).active.map Task.id =
      before.map Task.id ++ task.id :: after.map Task.id := by
    rw [moveTask, List.map_append]
    rfl
  rw [flying, flying, hactive, h, List.map_append]
  rfl

/-- A run leaves the pool. -/
theorem flying_remove {c' : Crew} {before after : List Task} {task : Task}
    (h : c.active = before ++ task :: after) (hactive : c'.active = before ++ after)
    (hwaiting : c'.waiting = c.waiting) (other : JobId) :
    c.flying other = c'.flying other + if task.id = other then 1 else 0 := by
  rw [flying, flying, h, hactive, hwaiting]
  simp only [List.map_append, List.map_cons, List.count_append, List.count_cons, beq_iff_eq]
  omega

/-- The beginning of a run does not even close the job. -/
theorem state?_startTask (before : List JobId) (id : JobId) (after : List JobId)
    (h : c.runner.roster.state? other = some st) :
    ∃ st', (c.startTask before id after).runner.roster.state? other = some st' ∧
      st.Keeps st' ∧ st'.isClosed = st.isClosed := by
  unfold startTask
  rw [roster_runTask, Roster.state?_update]
  split
  · obtain ⟨j, hj, rfl⟩ := Option.map_eq_some_iff.mp h
    have hbegin := Execution.keeps_begin { clock := c.clock, log := [] } j
    exact ⟨_, congrArg (Option.map _) hj, hbegin.1.state, hbegin.2⟩
  · exact ⟨st, h, .refl st, rfl⟩

theorem state?_moveTask {before after : List Task} {task : Task} {n : Nat}
    (h : c.runner.roster.state? other = some st) :
    ∃ st', (c.moveTask before task after n).runner.roster.state? other = some st' ∧
      st.Keeps st' := by
  unfold moveTask
  rw [roster_runTask]
  exact Roster.keeps_update (fun j => Execution.keeps_proceed _ j n) h

end Crew

namespace Shift

variable {s t : Shift} {id : JobId} {st st' : JobState} {e : Event} {es : List Event}

/-- What a shift keeps about a job. -/
def account (s : Shift) (id : JobId) (st : JobState) : Account where
  singleton := st.singleton
  closed := st.isClosed
  pending := st.pending
  running := st.running
  queued := decide (id ∈ s.runner.line.order)
  held := decide (s.dispatcher.hand? = some id)
  flying := s.crew.flying id

/-- The line and the threads are as before, as far as a job is concerned. -/
structure Around (id : JobId) (s t : Shift) : Prop where
  line : id ∈ t.runner.line.order ↔ id ∈ s.runner.line.order
  hand : t.dispatcher.hand? = some id ↔ s.dispatcher.hand? = some id
  flying : t.crew.flying id = s.crew.flying id

theorem Around.account (h : Around id s t) : t.account id st = s.account id st := by
  rw [Shift.account, Shift.account, h.flying, decide_eq_decide.mpr h.line,
    decide_eq_decide.mpr h.hand]

/-- A change that the runner does not see is no move, save that the job may be closed. -/
theorem Around.move_of_keeps (h : Around id s t) (hst : st.Keeps st') :
    Account.Move id (s.account id st) .quiet (t.account id st') := by
  have ht : t.account id st' = { s.account id st with closed := st'.isClosed } := by
    rw [h.account, Shift.account, Shift.account, hst.singleton, hst.pending, hst.running]
  rw [ht]
  -- an action may close the job, and no action opens it
  cases hclosed : st'.isClosed with
  | true => exact .close
  | false =>
    have hopen : (s.account id st).closed = false :=
      Bool.eq_false_iff.mpr fun h => absurd (hst.closed h) (by rw [hclosed]; decide)
    rw [← hopen]
    exact .other nofun

/-- What is about another job is no move. -/
theorem move_of_alike (h : Runner.Alike id s.runner t.runner)
    (hhand : t.dispatcher.hand? = some id ↔ s.dispatcher.hand? = some id)
    (hflying : t.crew.flying id = s.crew.flying id) (he : e.job? ≠ some id)
    (hst : s.runner.roster.state? id = some st) :
    ∃ st', t.runner.roster.state? id = some st' ∧
      Account.Move id (s.account id st) e (t.account id st') := by
  have haround : Around id s t := ⟨h.line, hhand, hflying⟩
  refine ⟨st, h.state.trans hst, ?_⟩
  rw [haround.account]
  exact .other he

/-! ### The steps that move the counters -/

theorem move_enqueue (hs : s.runner.line.Sound) (hst : s.runner.roster.state? id = some st)
    (ht : t.runner = (s.runner.enqueue id).2) (hhand : t.dispatcher = s.dispatcher)
    (hflying : t.crew.flying id = s.crew.flying id) :
    ∃ st', t.runner.roster.state? id = some st' ∧
      Account.Move id (s.account id st) (.answered id (s.runner.enqueue id).1)
        (t.account id st') := by
  obtain ⟨hsingle, hpending, heq⟩ | ⟨hsingle, hpending, hrunning, heq⟩ | ⟨hfree, heq⟩ :=
    Runner.enqueue_cases hst
  · rw [heq] at ht ⊢
    have haround : Around id s t := ⟨by rw [ht], by rw [hhand], hflying⟩
    refine ⟨st, by rw [ht]; exact hst, ?_⟩
    rw [haround.account]
    exact .coalesce hsingle hpending
  · rw [heq] at ht ⊢
    have haround : Around id s t := ⟨by rw [ht]; exact Iff.rfl, by rw [hhand], hflying⟩
    refine ⟨st.addPending 1, by rw [ht]; exact Runner.state?_updateState_self hst _, ?_⟩
    rw [haround.account]
    exact .hold hsingle hpending hrunning
  · rw [heq] at ht ⊢
    refine ⟨st.addPending 1, by rw [ht]; exact Runner.state?_updateState_self hst _, ?_⟩
    have hline : id ∈ t.runner.line.order := by
      rw [ht]
      exact hs.mem_pushBack.mpr (Or.inl rfl)
    have hb : t.account id (st.addPending 1) =
        { s.account id st with pending := st.pending + 1, queued := true } := by
      rw [account, account, hhand, hflying, decide_eq_true hline]
      rfl
    rw [hb]
    exact .join hfree

theorem move_drop {head : JobId} {line : Line} (hs : s.runner.line.Sound)
    (hst : s.runner.roster.state? id = some st) (hline : s.runner.line.popFront = some (head, line))
    (hclosed : s.runner.roster.isClosed head = true)
    (ht : t.runner = { s.runner with line := line }.updateState head (·.clearPending))
    (hready : s.dispatcher = .ready) (hidle : t.dispatcher = .idle)
    (hflying : t.crew.flying id = s.crew.flying id) :
    ∃ st', t.runner.roster.state? id = some st' ∧
      Account.Move id (s.account id st) (.dropped head) (t.account id st') := by
  have hhand : t.dispatcher.hand? = s.dispatcher.hand? := by
    rw [hidle, hready]
    rfl
  by_cases hid : head = id
  · subst hid
    refine ⟨st.clearPending, by rw [ht]; exact Runner.state?_updateState_self hst _, ?_⟩
    have hleft : head ∉ t.runner.line.order := by
      rw [ht]
      exact fun h => ((hs.mem_popFront hline).mp h).1 rfl
    have hb : t.account head st.clearPending =
        { s.account head st with pending := 0, queued := false } := by
      rw [account, account, hflying, hhand, decide_eq_false hleft]
      rfl
    rw [hb]
    refine .drop (decide_eq_true ?_) ?_
    · rw [Line.order_of_popFront hline]
      exact List.mem_cons_self
    · rwa [Roster.isClosed_of_state? hst] at hclosed
  · refine move_of_alike (ht ▸ ?_) (by rw [hhand]) hflying (fun h => hid (Option.some.inj h)) hst
    exact (Runner.alike_popFront hs hline hid).trans (Runner.alike_updateState hid _)

theorem move_take {head : JobId} {line : Line} {st₀ : JobState} (hs : s.runner.line.Sound)
    (hst : s.runner.roster.state? id = some st) (hline : s.runner.line.popFront = some (head, line))
    (hst₀ : s.runner.roster.state? head = some st₀) (hopen : st₀.isClosed = false)
    (ht : t.runner =
      if !st₀.singleton && decide (0 < st₀.pending - 1) then
        (s.runner.launch head line).pushBack head
      else s.runner.launch head line)
    (hready : s.dispatcher = .ready) (hholding : t.dispatcher = .holding head)
    (hflying : t.crew.flying id = s.crew.flying id) :
    ∃ st', t.runner.roster.state? id = some st' ∧
      Account.Move id (s.account id st) (.taken head) (t.account id st') := by
  have hsound : (s.runner.launch head line).line.Sound := hs.popFront hline
  by_cases hid : head = id
  · subst hid
    obtain rfl : st₀ = st := Option.some.inj (hst₀.symm.trans hst)
    have hafter : (s.runner.launch head line).roster.state? head =
        some ((st₀.addPending (-1)).addRunning 1) :=
      Runner.state?_updateState_self (r := { s.runner with line := line }) hst _
    have hleft : head ∉ (s.runner.launch head line).line.order :=
      fun h => ((hs.mem_popFront hline).mp h).1 rfl
    refine ⟨_, by rw [ht]; split <;> exact hafter, ?_⟩
    -- the job has left the line, and is back in it exactly if it has more to do
    have hqueued : decide (head ∈ t.runner.line.order) =
        (!st₀.singleton && decide (0 < st₀.pending - 1)) := by
      rw [ht]
      split
      · next hmore =>
        rw [hmore]
        exact decide_eq_true (hsound.mem_pushBack.mpr (Or.inl rfl))
      · next hmore =>
        rw [Bool.not_eq_true] at hmore
        rw [hmore]
        exact decide_eq_false hleft
    have hheld : decide (t.dispatcher.hand? = some head) = true := by
      rw [hholding]
      exact decide_eq_true rfl
    have hb : t.account head ((st₀.addPending (-1)).addRunning 1) =
        { s.account head st₀ with
          pending := st₀.pending - 1
          running := st₀.running + 1
          queued := !st₀.singleton && decide (0 < st₀.pending - 1)
          held := true } := by
      rw [JobState.launch_eq, account, account, hflying, hqueued, hheld]
      rfl
    rw [hb]
    refine .take (decide_eq_true ?_) hopen ?_
    · rw [Line.order_of_popFront hline]
      exact List.mem_cons_self
    · rw [account, hready]
      rfl
  · refine move_of_alike (ht ▸ ?_) ?_ hflying (fun h => hid (Option.some.inj h)) hst
    · have hlaunch := Runner.alike_launch hs hline hid
      split
      · exact hlaunch.trans (Runner.alike_pushBack hsound hid)
      · exact hlaunch
    · rw [hready, hholding]
      exact iff_of_false (fun h => hid (Option.some.inj h)) nofun

theorem move_pop (hs : s.runner.line.Sound) (hst : s.runner.roster.state? id = some st)
    (ht : t.runner = s.runner.pop.2) (hready : s.dispatcher = .ready)
    (hnext : t.dispatcher = s.runner.pop.1.next) (hflying : t.crew.flying id = s.crew.flying id) :
    ∃ st', t.runner.roster.state? id = some st' ∧
      Account.Move id (s.account id st) s.runner.pop.1.event (t.account id st') := by
  obtain heq | ⟨head, line, hline, ⟨hclosed, heq⟩ | ⟨st₀, hst₀, hopen, heq⟩⟩ := s.runner.pop_cases
  · rw [heq] at ht hnext ⊢
    exact move_of_alike ⟨by rw [ht], by rw [ht]⟩ (by rw [hnext, hready]; rfl) hflying nofun hst
  · rw [heq] at ht hnext ⊢
    exact move_drop hs hst hline hclosed ht hready hnext hflying
  · rw [heq] at ht hnext ⊢
    exact move_take hs hst hline hst₀ hopen ht hready hnext hflying

theorem move_grant {id' : JobId} (hst : s.runner.roster.state? id = some st)
    (hroster : t.runner.roster = s.runner.roster) (hline : t.runner.line = s.runner.line)
    (hheld : s.dispatcher = .holding id') (hidle : t.dispatcher = .idle)
    (hwaiting : t.crew.waiting = s.crew.waiting ++ [id'])
    (hactive : t.crew.active = s.crew.active) :
    ∃ st', t.runner.roster.state? id = some st' ∧
      Account.Move id (s.account id st) (.admitted id') (t.account id st') := by
  have hflying : t.crew.flying id = s.crew.flying id + if id' = id then 1 else 0 := by
    rw [Crew.flying, Crew.flying, hwaiting, hactive, List.count_append, List.count_singleton]
    simp only [beq_iff_eq]
    omega
  have hstate : t.runner.roster.state? id = some st := by rw [hroster, hst]
  have hfree : decide (t.dispatcher.hand? = some id) = false := by
    rw [hidle]
    rfl
  by_cases hid : id' = id
  · subst hid
    rw [if_pos rfl] at hflying
    refine ⟨st, hstate, ?_⟩
    have hb : t.account id' st =
        { s.account id' st with held := false, flying := s.crew.flying id' + 1 } := by
      rw [account, account, hline, hfree, hflying]
    rw [hb]
    refine .grant ?_
    rw [account, hheld]
    exact decide_eq_true rfl
  · rw [if_neg hid] at hflying
    refine move_of_alike ⟨by rw [hroster], by rw [hline]⟩ ?_ hflying
      (fun h => hid (Option.some.inj h)) hst
    rw [hidle, hheld]
    exact iff_of_false nofun fun h => hid (Option.some.inj h)

theorem move_begin {id' : JobId} {before after : List JobId}
    (hst : s.runner.roster.state? id = some st) (hcrew : t.crew = s.crew.startTask before id' after)
    (hhand : t.dispatcher = s.dispatcher) (hwaiting : s.crew.waiting = before ++ id' :: after) :
    ∃ st', t.runner.roster.state? id = some st' ∧
      Account.Move id (s.account id st) (.begun id') (t.account id st') := by
  -- whoever begins, every job has its counters and is as open as before
  obtain ⟨st', hst', hkeeps, hclosed⟩ := Crew.state?_startTask before id' after hst
  have hline : t.runner.line = s.runner.line := by
    rw [runner, hcrew]
    rfl
  refine ⟨st', by rw [runner, hcrew, hst'], ?_⟩
  have hb : t.account id st' = s.account id st := by
    rw [account, account, hkeeps.singleton, hkeeps.pending, hkeeps.running, hclosed, hline, hhand,
      hcrew, Crew.flying_startTask hwaiting]
  rw [hb]
  by_cases hid : id' = id
  · subst hid
    exact .begin
  · exact .other fun h => hid (Option.some.inj h)

theorem move_takeBack {cause : PoolError} {now : Instant} (hs : s.runner.line.Sound)
    (hst : s.runner.roster.state? id = some st) (ht : t.runner = s.runner.takeBack id cause now)
    (hheld : s.dispatcher = .refused id cause) (hidle : t.dispatcher = .idle)
    (hflying : t.crew.flying id = s.crew.flying id) :
    ∃ st', t.runner.roster.state? id = some st' ∧
      Account.Move id (s.account id st) (.refused id) (t.account id st') := by
  have hhand : (s.account id st).held = true := by
    rw [account, hheld]
    exact decide_eq_true rfl
  have hfree : decide (t.dispatcher.hand? = some id) = false := by
    rw [hidle]
    rfl
  have hstate (st₁ : JobState) (h : (s.runner.requeue id).roster.state? id = some st₁) :
      t.runner.roster.state? id =
        some (st₁.recordError (.wrap .dispatch (.pool cause)) now) := by
    rw [ht]
    exact Runner.state?_updateState_self
      (r := { s.runner.requeue id with rejected := (s.runner.requeue id).rejected + 1 }) h _
  have hline : t.runner.line = (s.runner.requeue id).line := by
    rw [ht]
    rfl
  cases hclosed : st.isClosed with
  | true =>
    have heq := Runner.requeue_of_closed ((Roster.isClosed_of_state? hst).trans hclosed)
    have hafter : (s.runner.requeue id).roster.state? id =
        some (st.addRunning (-1)).clearPending := by
      rw [heq]
      exact Runner.state?_updateState_self (Runner.state?_updateState_self hst _) _
    refine ⟨_, hstate _ hafter, ?_⟩
    have hb : t.account id
          ((st.addRunning (-1)).clearPending.recordError (.wrap .dispatch (.pool cause)) now) =
        { s.account id st with pending := 0, running := st.running - 1, held := false } := by
      rw [JobState.addRunning_neg_one, account, account, hflying, hfree, hline, heq]
      rfl
    rw [hb]
    exact .giveUp hhand hclosed
  | false =>
    have heq := Runner.requeue_of_open ((Roster.isClosed_of_state? hst).trans hclosed)
    have hafter : (s.runner.requeue id).roster.state? id =
        some (st.addRunning (-1)).restore := by
      rw [heq]
      exact Runner.state?_updateState_self (Runner.state?_updateState_self hst _) _
    refine ⟨_, hstate _ hafter, ?_⟩
    have hqueued : id ∈ t.runner.line.order := by
      rw [hline, heq]
      exact hs.mem_pushFront.mpr (Or.inl rfl)
    have hb : t.account id
          ((st.addRunning (-1)).restore.recordError (.wrap .dispatch (.pool cause)) now) =
        { s.account id st with
          pending := if st.singleton = true ∧ st.pending ≠ 0 then st.pending else st.pending + 1
          running := st.running - 1
          queued := true
          held := false } := by
      rw [JobState.addRunning_neg_one, account, account, hflying, hfree, decide_eq_true hqueued,
        JobState.restore_eq]
      rfl
    rw [hb]
    exact .giveBack hhand hclosed

theorem move_complete_self (hs : s.runner.line.Sound) (hst : s.runner.roster.state? id = some st)
    (ht : t.runner = s.runner.complete id) (hhand : t.dispatcher = s.dispatcher)
    (hflying : s.crew.flying id = t.crew.flying id + 1) :
    ∃ st', t.runner.roster.state? id = some st' ∧
      Account.Move id (s.account id st) (.completed id) (t.account id st') := by
  have hpool : 0 < (s.account id st).flying := by
    rw [account, hflying]
    exact Nat.succ_pos _
  have hleft : t.crew.flying id = s.crew.flying id - 1 := by omega
  cases hclosed : st.isClosed with
  | true =>
    have heq := Runner.complete_of_closed ((Roster.isClosed_of_state? hst).trans hclosed)
    rw [heq] at ht
    refine ⟨(st.addRunning (-1)).clearPending, ?_, ?_⟩
    · rw [ht]
      exact Runner.state?_updateState_self (Runner.state?_updateState_self hst _) _
    · have hb : t.account id (st.addRunning (-1)).clearPending =
          { s.account id st with
            pending := 0, running := st.running - 1, flying := s.crew.flying id - 1 } := by
        rw [JobState.addRunning_neg_one, account, account, hleft, hhand, ht]
        rfl
      rw [hb]
      exact .finishClosed hpool hclosed
  | false =>
    rw [Runner.complete_of_open hst hclosed] at ht
    have hafter : (s.runner.updateState id (·.addRunning (-1))).roster.state? id =
        some (st.addRunning (-1)) := Runner.state?_updateState_self hst _
    refine ⟨st.addRunning (-1), by rw [ht]; split <;> exact hafter, ?_⟩
    -- a trigger that was held back puts the job into line, where it may stand already
    have hqueued : decide (id ∈ t.runner.line.order) =
        (decide (id ∈ s.runner.line.order) || st.singleton && decide (0 < st.pending)) := by
      rw [ht]
      split
      · next hmore =>
        rw [hmore, Bool.or_true]
        exact decide_eq_true (Line.Sound.mem_pushBack hs |>.mpr (Or.inl rfl))
      · next hmore =>
        rw [Bool.not_eq_true] at hmore
        rw [hmore, Bool.or_false]
        rfl
    have hb : t.account id (st.addRunning (-1)) =
        { s.account id st with
          running := st.running - 1
          queued := decide (id ∈ s.runner.line.order) || st.singleton && decide (0 < st.pending)
          flying := s.crew.flying id - 1 } := by
      rw [JobState.addRunning_neg_one, account, account, hleft, hhand, hqueued]
      rfl
    rw [hb]
    exact .finish hpool hclosed

theorem move_complete {before after : List Task} {task : Task} (hs : s.runner.line.Sound)
    (hst : s.runner.roster.state? id = some st) (ht : t.runner = s.runner.complete task.id)
    (hhand : t.dispatcher = s.dispatcher) (hactive : s.crew.active = before ++ task :: after)
    (hleft : t.crew.active = before ++ after) (hwaiting : t.crew.waiting = s.crew.waiting) :
    ∃ st', t.runner.roster.state? id = some st' ∧
      Account.Move id (s.account id st) (.completed task.id) (t.account id st') := by
  have hflying := Crew.flying_remove hactive hleft hwaiting id
  by_cases hid : task.id = id
  · subst hid
    rw [if_pos rfl] at hflying
    exact move_complete_self hs hst ht hhand hflying
  · rw [if_neg hid] at hflying
    exact move_of_alike (ht ▸ Runner.alike_complete hs hid) (by rw [hhand]) hflying.symm
      (fun h => hid (Option.some.inj h)) hst

theorem move_clear (hst : s.runner.roster.state? id = some st) (ht : t.runner = s.runner.clear)
    (hhand : t.dispatcher = s.dispatcher) (hflying : t.crew.flying id = s.crew.flying id) :
    ∃ st', t.runner.roster.state? id = some st' ∧
      Account.Move id (s.account id st) .cleared (t.account id st') := by
  -- only the jobs in line lose their triggers, a held back one stays where it is
  have hstate : t.runner.roster.state? id =
      if id ∈ s.runner.line.order then (s.runner.roster.state? id).map (·.clearPending)
      else s.runner.roster.state? id := by
    rw [ht]
    exact s.runner.state?_dropLine id
  have hline : id ∉ t.runner.line.order := by
    rw [ht]
    exact List.not_mem_nil
  by_cases hid : id ∈ s.runner.line.order
  · rw [if_pos hid, hst, Option.map_some] at hstate
    refine ⟨st.clearPending, hstate, ?_⟩
    have hb : t.account id st.clearPending =
        { s.account id st with pending := 0, queued := false } := by
      rw [account, account, hflying, hhand, decide_eq_false hline]
      rfl
    rw [hb]
    exact .clear (decide_eq_true hid)
  · rw [if_neg hid] at hstate
    have haround : Around id s t := ⟨iff_of_false hline hid, by rw [hhand], hflying⟩
    refine ⟨st, hstate.trans hst, ?_⟩
    rw [haround.account]
    exact .other nofun

/-! ### Every step -/

/-- Every step is a move of the account of each job. -/
theorem Step.move (h : Step s e t) (hs : s.runner.line.Sound)
    (hst : s.runner.roster.state? id = some st) :
    ∃ st', t.runner.roster.state? id = some st' ∧
      Account.Move id (s.account id st) e (t.account id st') := by
  cases h with
  | turnAway id' shut =>
    by_cases hid : id' = id
    · subst hid
      exact ⟨st, hst, .turnAway⟩
    · exact move_of_alike ⟨rfl, Iff.rfl⟩ Iff.rfl rfl (fun h => hid (Option.some.inj h)) hst
  | check | leave | tune | pass | shut =>
    exact move_of_alike ⟨rfl, Iff.rfl⟩ Iff.rfl rfl nofun hst
  | enqueue id' =>
    by_cases hid : id' = id
    · subst hid
      exact move_enqueue hs hst rfl rfl rfl
    · exact move_of_alike (Runner.alike_enqueue hs hid) Iff.rfl rfl
        (fun h => hid (Option.some.inj h)) hst
  | look idle => exact move_of_alike ⟨rfl, Iff.rfl⟩ (by rw [idle]; rfl) rfl nofun hst
  | pop ready => exact move_pop hs hst rfl ready rfl rfl
  | grant id' pool holding => exact move_grant hst rfl rfl holding rfl rfl rfl
  | refuse id' cause holding =>
    exact move_of_alike ⟨rfl, Iff.rfl⟩ (by rw [holding]; rfl) rfl nofun hst
  | takeBack id' cause refused =>
    by_cases hid : id' = id
    · subst hid
      exact move_takeBack hs hst rfl refused rfl rfl
    · refine move_of_alike (Runner.alike_takeBack hs hid _ _) (iff_of_false nofun ?_) rfl
        (fun h => hid (Option.some.inj h)) hst
      rw [refused]
      exact fun h => hid (Option.some.inj h)
  | begin before id' after waiting => exact move_begin hst rfl rfl waiting
  | advance before task after n active =>
    obtain ⟨st', hst', hkeeps⟩ := Crew.state?_moveTask hst
    exact ⟨st', hst', Around.move_of_keeps
      ⟨Iff.rfl, Iff.rfl, Crew.flying_moveTask active n id⟩ hkeeps⟩
  | release before task after active =>
    refine move_of_alike ⟨rfl, Iff.rfl⟩ Iff.rfl ?_ nofun hst
    simp only [Crew.flying, active, List.map_append, List.map_cons]
  | complete before task after active done =>
    exact move_complete hs hst rfl rfl active rfl rfl
  | act id' action =>
    obtain ⟨st', hst', hkeeps⟩ := Roster.keeps_update (fun j => j.keeps_perform action) hst
    exact ⟨st', hst', Around.move_of_keeps ⟨Iff.rfl, Iff.rfl, rfl⟩ hkeeps⟩
  | clear => exact move_clear hst rfl rfl rfl

end Shift

end Metronome
