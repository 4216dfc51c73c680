import Metronome.Proofs.Job.Calls
import Metronome.Proofs.Runner.Run

/-!
# Calls on the threads of a shift

The pool is a particular way to run jobs: its threads begin the runs that were admitted, and go on
with them. The steps of a shift are looked at once more, with the calls that take place in them, so
that what is known of the calls of a job holds on the threads of the pool.

## Main definitions

* `Deed` — what is seen of a step, with its calls
* `Shift.Does` — the steps of a shift on an open runner
* `Shift.calls` — a job with the threads of the pool that run it
* `Shift.Still` — the runner is closed, and the pool is empty

## Main results

* `Shift.Does.step` — these are steps of the shift
* `Shift.Does.calls` — each of them is a step of the calls of each job
* `Shift.Does.callCount` — the calls are found in the log
* `Shift.Step.waiting` — the admitted runs that have no thread yet
* `Shift.Does.still` — a closed runner with an empty pool calls nothing any more
-/

namespace Metronome

/-- What is seen of a step. -/
inductive Deed
  /-- The runner has moved its counters. -/
  | counted (e : Event)
  /-- A run got a thread and has asked for a unit of the budget. -/
  | begun (id : JobId) (claim : RunClaim)
  /-- A thread has gone on with its run. -/
  | called (id : JobId) (e : CallEvent)
  /-- Someone has treated a job. -/
  | acted (id : JobId) (action : Action)
  | quiet
deriving DecidableEq

/-- What the runner sees of it. -/
def Deed.event : Deed → Event
  | .counted e => e
  | .begun id _ => .begun id
  | .called _ _ | .acted _ _ | .quiet => .quiet

/-- What a job sees of it. -/
def Deed.call (id : JobId) : Deed → CallEvent
  | .begun other claim => if other = id then .claimed claim else .quiet
  | .called other e => if other = id then e else .quiet
  | .acted other action => if other = id then .acted action else .quiet
  | .counted _ | .quiet => .quiet

/-- Whether the counters of the runner are moved in the step. -/
def Event.counts : Event → Bool
  | .answered _ _ | .taken _ | .dropped _ | .admitted _ | .refused _ | .completed _ => true
  | .begun _ | .cleared | .quiet => false

/-! ### What the runner does to its jobs -/

namespace Roster

variable {r r' r'' : Roster} {id : JobId} {j : Job}

/-- The jobs have but been attended to. -/
def Tends (r r' : Roster) : Prop :=
  ∀ id j, r.get? id = some j → ∃ k, r'.get? id = some k ∧ j.Tends k

theorem Tends.refl (r : Roster) : Tends r r := fun _ j hj => ⟨j, hj, .refl j⟩

theorem Tends.trans (h : Tends r r') (h' : Tends r' r'') : Tends r r'' := by
  intro id j hj
  obtain ⟨k, hk, hjk⟩ := h id j hj
  obtain ⟨l, hl, hkl⟩ := h' id k hk
  exact ⟨l, hl, hjk.trans hkl⟩

theorem get?_update_self (hj : r.get? id = some j) (f : Job → Job) :
    (r.update id f).get? id = some (f j) := by
  rw [get?_update, if_pos rfl, hj, Option.map_some]

theorem tends_update {f : Job → Job} (hf : ∀ j : Job, j.Tends (f j)) (r : Roster) (id : JobId) :
    Tends r (r.update id f) := by
  intro other j hj
  rw [get?_update, hj]
  split
  · exact ⟨f j, rfl, hf j⟩
  · exact ⟨j, rfl, .refl j⟩

/-- The counters and the errors of a job are not what it sees of itself. -/
theorem tends_updateState {f : JobState → JobState}
    (hf : ∀ s : JobState, f s =
      { s with pending := (f s).pending, running := (f s).running, errors := (f s).errors })
    (r : Roster) (id : JobId) : Tends r (r.updateState id f) :=
  tends_update (f := fun j => j.withState f) (fun j => ⟨rfl, hf j.state⟩) r id

end Roster

namespace Runner

theorem tends_enqueue (r : Runner) (id : JobId) : r.roster.Tends (r.enqueue id).2.roster := by
  have hcount : r.roster.Tends (r.updateState id (·.addPending 1)).roster :=
    Roster.tends_updateState (fun _ => rfl) _ _
  cases hst : r.roster.state? id with
  | none =>
    rw [enqueue_none hst]
    exact .refl _
  | some st =>
    obtain ⟨-, -, heq⟩ | ⟨-, -, -, heq⟩ | ⟨-, heq⟩ := enqueue_cases hst
    · rw [heq]
      exact .refl _
    · rw [heq]
      exact hcount
    · rw [heq]
      exact hcount

theorem tends_pop (r : Runner) : r.roster.Tends r.pop.2.roster := by
  obtain heq | ⟨id, line, -, ⟨-, heq⟩ | ⟨st, -, -, heq⟩⟩ := r.pop_cases
  · rw [heq]
    exact .refl _
  · rw [heq]
    exact Roster.tends_updateState (fun _ => rfl) _ _
  · have hlaunch : r.roster.Tends (r.launch id line).roster :=
      Roster.tends_updateState (fun s => by rw [JobState.launch_eq]) _ _
    rw [heq]
    dsimp only
    split
    · exact hlaunch
    · exact hlaunch

theorem tends_takeBack (r : Runner) (id : JobId) (cause : PoolError) (now : Instant) :
    r.roster.Tends (r.takeBack id cause now).roster := by
  have hcount : r.roster.Tends (r.updateState id (·.addRunning (-1))).roster :=
    Roster.tends_updateState (fun s => by rw [JobState.addRunning_neg_one]) _ _
  have hrecord : (r.requeue id).roster.Tends (r.takeBack id cause now).roster :=
    Roster.tends_updateState (fun _ => rfl) _ _
  refine Roster.Tends.trans ?_ hrecord
  cases hclosed : r.roster.isClosed id with
  | true =>
    rw [requeue_of_closed hclosed]
    exact hcount.trans (Roster.tends_updateState (fun _ => rfl) _ _)
  | false =>
    rw [requeue_of_open hclosed]
    exact hcount.trans
      (Roster.tends_updateState (fun s => by rw [JobState.restore_eq]) _ _)

theorem tends_complete (r : Runner) (id : JobId) : r.roster.Tends (r.complete id).roster := by
  have hcount : r.roster.Tends (r.updateState id (·.addRunning (-1))).roster :=
    Roster.tends_updateState (fun s => by rw [JobState.addRunning_neg_one]) _ _
  unfold complete
  dsimp only
  split
  · exact hcount.trans (Roster.tends_updateState (fun _ => rfl) _ _)
  · split
    · exact hcount
    · exact hcount

theorem tends_clear (r : Runner) : r.roster.Tends r.clear.roster := by
  suffices h : ∀ (order : List JobId) (r : Runner),
      r.roster.Tends (order.foldl (fun r id => r.updateState id (·.clearPending)) r).roster from
    h r.line.order r
  intro order
  induction order with
  | nil => exact fun r => .refl _
  | cons head order ih =>
    intro r
    exact Roster.Tends.trans (Roster.tends_updateState (fun _ => rfl) _ head)
      (ih (r.updateState head (·.clearPending)))

end Runner

namespace Shift

variable {s t : Shift} {id : JobId} {j : Job} {e : Event} {d : Deed}

/-- The answer that a run of a job would get if it asked for a unit of the budget now. -/
def claimOf (s : Shift) (id : JobId) : RunClaim :=
  (s.runner.roster.get? id).elim .exhausted fun j => j.state.budget.claim.1

/-- What is seen of the next step of a task. -/
def callOf (s : Shift) (task : Task) : CallEvent :=
  (s.runner.roster.get? task.id).elim .quiet task.execution.nextEvent

/-- The steps of a shift, all but the closing of its runner, with their calls. A thread
goes on by one step at a time. -/
inductive Does : Shift → Deed → Shift → Prop
  | count {s t : Shift} {e : Event} (step : Step s e t) (counts : e.counts = true) :
      Does s (.counted e) t
  /-- Steps that are not about the jobs. -/
  | rest {s t : Shift} (step : Step s .quiet t) (roster : t.runner.roster = s.runner.roster)
      (active : t.crew.active = s.crew.active) (log : t.crew.log = s.crew.log)
      (closed : t.runner.closed = s.runner.closed) (closing : t.closing = s.closing) :
      Does s .quiet t
  | begin (s : Shift) (before : List JobId) (id : JobId) (after : List JobId)
      (waiting : s.crew.waiting = before ++ id :: after)
      (free : s.crew.active.length + s.leaving.length < s.runner.pool.threads) :
      Does s (.begun id (s.claimOf id)) { s with crew := s.crew.startTask before id after }
  | move (s : Shift) (before : List Task) (task : Task) (after : List Task)
      (active : s.crew.active = before ++ task :: after) :
      Does s (.called task.id (s.callOf task))
        { s with crew := s.crew.moveTask before task after 1 }
  | release (s : Shift) (before : List Task) (task : Task) (after : List Task)
      (active : s.crew.active = before ++ task :: after) :
      Does s .quiet
        { s with crew := { s.crew with
          active := before ++ { task with execution := task.execution.release } :: after } }
  | act (s : Shift) (id : JobId) (action : Action) :
      Does s (.acted id action) (s.withRoster (s.runner.roster.update id (·.perform action)))

theorem Does.step (h : Does s d t) : Step s d.event t := by
  cases h with
  | count step => exact step
  | rest step => exact step
  | begin before id after waiting free => exact .begin s before id after waiting free
  | move before task after active => exact .advance s before task after 1 active
  | release before task after active => exact .release s before task after active
  | act id action => exact .act s id action

/-- They leave the flag of the runner alone. -/
theorem Does.closed (h : Does s d t) : t.runner.closed = s.runner.closed := by
  cases h with
  | count step counts =>
    cases step with
    | turnAway | grant => rfl
    | enqueue id' => exact (s.runner.steady_enqueue id').closed
    | pop => exact s.runner.steady_pop.closed
    | takeBack id' cause => exact (s.runner.steady_takeBack id' cause _).closed
    | complete before task => exact (s.runner.steady_complete task.id).closed
    | _ => cases counts
  | rest step roster active log closed => exact closed
  | begin | move | release | act => rfl

/-- The dispatch thread of a closed runner does nothing any more. -/
theorem Does.idle (h : Does s d t) (closed : s.runner.closed = true)
    (idle : s.dispatcher = .idle) : t.dispatcher = .idle := by
  cases h with
  | count step counts =>
    cases step with
    | turnAway | enqueue | complete => exact idle
    | pop ready => cases idle.symm.trans ready
    | grant id' pool holding => cases idle.symm.trans holding
    | takeBack id' cause refused => cases idle.symm.trans refused
    | _ => cases counts
  | rest step =>
    generalize hevent : Event.quiet = e at step
    cases step with
    | look _ room opened => cases closed.symm.trans opened
    | pop ready => cases idle.symm.trans ready
    | grant id' pool holding => cases idle.symm.trans holding
    | refuse id' cause holding => cases idle.symm.trans holding
    | takeBack id' cause refused => cases idle.symm.trans refused
    | _ => exact idle
  | begin | move | release | act => exact idle

/-! ### Calls of the pool -/

/-- A job with the threads of the pool that run it. -/
def calls (s : Shift) (id : JobId) (j : Job) : Calls :=
  { job := j, threads := (s.crew.active.filter fun task => task.id = id).map Task.execution }

/-- The calls of a job that have begun. -/
def callCount (s : Shift) (id : JobId) : Nat := s.crew.log.countP fun entry => entry.1 = id

end Shift

namespace Crew

variable {c : Crew} {task : Task} {j : Job}

theorem runTask_of_get? (hj : c.runner.roster.get? task.id = some j)
    (go : Execution → Job → Job × Execution) :
    c.runTask task go =
      let next := go { task.execution with clock := c.clock, log := [] } j
      ({ task with execution := next.2 },
        { c with
          runner := { c.runner with
            roster := c.runner.roster.update task.id fun j =>
              (go { task.execution with clock := c.clock, log := [] } j).1 }
          clock := next.2.clock
          log := c.log ++ next.2.log.map fun call => (task.id, call) }) := by
  unfold runTask
  dsimp only
  rw [Roster.updateWith_of_get? hj]
  rfl

theorem roster_startTask (c : Crew) (before : List JobId) (id : JobId) (after : List JobId) :
    (c.startTask before id after).runner.roster =
      c.runner.roster.update id fun j => (Execution.begin { clock := c.clock } j).1 := by
  unfold startTask
  dsimp only
  rw [roster_runTask]

theorem roster_moveTask (c : Crew) (before : List Task) (task : Task) (after : List Task)
    (n : Nat) :
    (c.moveTask before task after n).runner.roster =
      c.runner.roster.update task.id fun j =>
        ({ task.execution with clock := c.clock, log := [] }.proceed j n).1 := by
  unfold moveTask
  dsimp only
  rw [roster_runTask]

theorem active_moveTask (c : Crew) (before : List Task) (task : Task) (after : List Task)
    (n : Nat) :
    (c.moveTask before task after n).active =
      before ++ (c.runTask task fun x j => x.proceed j n).1 :: after := rfl

end Crew

namespace Execution

variable {x : Execution} {j : Job}

/-- A run that asks for a unit of the budget is logged when it gets one. -/
theorem length_log_begin (x : Execution) (j : Job) :
    (x.begin j).2.log.length =
      x.log.length + (CallEvent.grants [.claimed j.state.budget.claim.1]).length := by
  obtain ⟨last, f, k, hclaim, hbegin, -⟩ | ⟨hclaim, hbegin⟩ := j.beginRun_cases x.clock
  · have hclaim' : j.state.budget.claim.1 = .granted last := hclaim
    rw [begin, hbegin, hclaim']
    exact List.length_append
  · have hclaim' : j.state.budget.claim.1 = .exhausted := hclaim
    rw [begin, hbegin, hclaim']
    rfl

theorem length_log_proceed (x : Execution) (j : Job) :
    (x.proceed j 1).2.log.length = x.log.length + (CallEvent.grants [x.nextEvent j]).length := by
  unfold proceed nextEvent step?
  cases hframes : x.frames with
  | nil => rfl
  | cons f rest =>
    dsimp only
    cases hactions : f.actions with
    | nil => cases hgated : f.gated <;> simp [CallEvent.grants, CallEvent.grant?, proceed]
    | cons action actions =>
      cases action with
      | run => exact length_log_begin _ j
      | _ => rfl

end Execution

namespace Shift

variable {s t : Shift} {id : JobId} {j : Job} {e : Event} {d : Deed}

/-- A job that is attended to, while the threads that run it are as before. -/
theorem calls_of_tends (h : s.runner.roster.Tends t.runner.roster)
    (hactive : t.crew.active = s.crew.active) (hj : s.runner.roster.get? id = some j) :
    ∃ k, t.runner.roster.get? id = some k ∧ Calls.Step (s.calls id j) .quiet (t.calls id k) := by
  obtain ⟨k, hk, htends⟩ := h id j hj
  have hcalls : t.calls id k = { s.calls id j with job := k } := by rw [calls, calls, hactive]
  exact ⟨k, hk, hcalls ▸ .tend _ k htends⟩

/-- The threads of a job among which one is found. -/
theorem threads_calls {before after : List Task} {task : Task}
    (h : s.crew.active = before ++ task :: after) (hid : task.id = id) (j : Job) :
    (s.calls id j).threads =
      (before.filter fun task => task.id = id).map Task.execution ++ task.execution ::
        (after.filter fun task => task.id = id).map Task.execution := by
  rw [calls, h, List.filter_append, List.filter_cons_of_pos (by simpa using hid), List.map_append,
    List.map_cons]

/-- The threads of a job are not those of another one. -/
theorem threads_calls_of_ne {before after : List Task} {task : Task}
    (h : s.crew.active = before ++ task :: after) (hid : task.id ≠ id) (j : Job) :
    (s.calls id j).threads =
      ((before ++ after).filter fun task => task.id = id).map Task.execution := by
  rw [calls, h, List.filter_append, List.filter_cons_of_neg (by simpa using hid),
    List.filter_append]

theorem calls_complete {before after : List Task} {task : Task}
    (hj : s.runner.roster.get? id = some j) (hroster : s.runner.roster.Tends t.runner.roster)
    (hactive : s.crew.active = before ++ task :: after) (hleft : t.crew.active = before ++ after)
    (done : task.execution.isOver = true) :
    ∃ k, t.runner.roster.get? id = some k ∧ Calls.Step (s.calls id j) .quiet (t.calls id k) := by
  obtain ⟨k, hk, htends⟩ := hroster id j hj
  refine ⟨k, hk, ?_⟩
  by_cases hid : task.id = id
  · have hcalls : t.calls id k = ⟨k, (before.filter fun task => task.id = id).map Task.execution ++
        (after.filter fun task => task.id = id).map Task.execution⟩ := by
      rw [calls, hleft, List.filter_append, List.map_append]
    exact hcalls ▸ .finish _ _ _ _ (threads_calls hactive hid j) done k htends
  · have hthreads : (t.calls id k).threads = (s.calls id j).threads := by
      rw [threads_calls_of_ne hactive hid, calls, hleft]
    have hcalls : t.calls id k = { s.calls id j with job := k } := congrArg (Calls.mk k) hthreads
    exact hcalls ▸ .tend _ k htends

/-- Another job has been treated. -/
theorem calls_of_same (hj : s.runner.roster.get? id = some j)
    (hroster : t.runner.roster.get? id = s.runner.roster.get? id)
    (hthreads : (t.calls id j).threads = (s.calls id j).threads) :
    ∃ k, t.runner.roster.get? id = some k ∧ Calls.Step (s.calls id j) .quiet (t.calls id k) := by
  have hcalls : t.calls id j = { s.calls id j with job := j } := congrArg (Calls.mk j) hthreads
  exact ⟨j, hroster.trans hj, hcalls ▸ .tend _ j (.refl j)⟩

theorem calls_begin {before after : List JobId} {id' : JobId}
    (hj : s.runner.roster.get? id = some j) (ht : t.crew = s.crew.startTask before id' after) :
    ∃ k, t.runner.roster.get? id = some k ∧
      Calls.Step (s.calls id j) ((Deed.begun id' (s.claimOf id')).call id) (t.calls id k) := by
  by_cases hid : id' = id
  · subst hid
    let next := Execution.begin { clock := s.crew.clock } j
    have hrun (c : Crew) (hc : c.runner.roster = s.runner.roster)
        (hclock : c.clock = s.crew.clock) :
        (c.runTask ⟨id', { clock := s.crew.clock }⟩ fun x j => x.begin j).1 = ⟨id', next.2⟩ := by
      rw [Crew.runTask_of_get? (hc ▸ hj), hclock]
    have hactive : t.crew.active = s.crew.active ++ [⟨id', next.2⟩] := by
      rw [ht]
      exact congrArg (s.crew.active ++ [·]) (hrun _ rfl rfl)
    have hroster : t.runner.roster = s.runner.roster.update id' fun j =>
        (Execution.begin { clock := s.crew.clock } j).1 := by
      rw [runner, ht, Crew.roster_startTask]
    refine ⟨next.1, by rw [hroster, Roster.get?_update_self hj], ?_⟩
    have hcall : (Deed.begun id' (s.claimOf id')).call id' = .claimed j.state.budget.claim.1 := by
      rw [Deed.call, if_pos rfl, claimOf, hj, Option.elim_some]
    have hcalls : t.calls id' next.1 = ⟨next.1, (s.calls id' j).threads ++ [next.2]⟩ := by
      rw [calls, calls, hactive, List.filter_append, List.map_append,
        List.filter_cons_of_pos (by simp)]
      rfl
    rw [hcall, hcalls]
    exact .begin _ s.crew.clock
  · rw [Deed.call, if_neg hid]
    refine calls_of_same hj ?_ ?_
    · rw [runner, ht, Crew.roster_startTask, Roster.get?_update, if_neg hid]
    · obtain ⟨x, hx⟩ : ∃ x, t.crew.active = s.crew.active ++ [⟨id', x⟩] := by
        rw [ht]
        exact ⟨_, rfl⟩
      rw [threads_calls_of_ne hx hid, List.append_nil]
      rfl

theorem calls_move {before after : List Task} {task : Task}
    (hj : s.runner.roster.get? id = some j) (hactive : s.crew.active = before ++ task :: after)
    (ht : t.crew = s.crew.moveTask before task after 1) :
    ∃ k, t.runner.roster.get? id = some k ∧
      Calls.Step (s.calls id j) ((Deed.called task.id (s.callOf task)).call id) (t.calls id k) := by
  by_cases hid : task.id = id
  · subst hid
    let next := { task.execution with clock := s.crew.clock, log := [] }.proceed j 1
    have hafter : t.crew.active = before ++ { task with execution := next.2 } :: after := by
      rw [ht, Crew.moveTask, Crew.runTask_of_get? hj]
    have hroster : t.runner.roster = s.runner.roster.update task.id fun j =>
        ({ task.execution with clock := s.crew.clock, log := [] }.proceed j 1).1 := by
      rw [runner, ht, Crew.roster_moveTask]
    refine ⟨next.1, by rw [hroster, Roster.get?_update_self hj], ?_⟩
    have hcall : (Deed.called task.id (s.callOf task)).call task.id =
        task.execution.nextEvent j := by
      rw [Deed.call, if_pos rfl, callOf, hj, Option.elim_some]
    have hcalls : t.calls task.id next.1 =
        ⟨next.1, (before.filter fun x => x.id = task.id).map Task.execution ++ next.2 ::
          (after.filter fun x => x.id = task.id).map Task.execution⟩ :=
      congrArg (Calls.mk next.1) (threads_calls hafter rfl next.1)
    rw [hcall, hcalls]
    exact .move _ _ _ _ s.crew.clock (threads_calls hactive rfl j)
  · rw [Deed.call, if_neg hid]
    refine calls_of_same hj ?_ ?_
    · rw [runner, ht, Crew.roster_moveTask, Roster.get?_update, if_neg hid]
    · obtain ⟨x, hx⟩ : ∃ x, t.crew.active = before ++ ⟨task.id, x⟩ :: after := by
        rw [ht]
        exact ⟨_, rfl⟩
      rw [threads_calls_of_ne hx hid, threads_calls_of_ne hactive hid]

theorem calls_release {before after : List Task} {task : Task}
    (hj : s.runner.roster.get? id = some j) (hactive : s.crew.active = before ++ task :: after)
    (hafter : t.crew.active = before ++ { task with execution := task.execution.release } :: after)
    (hroster : t.runner.roster = s.runner.roster) :
    ∃ k, t.runner.roster.get? id = some k ∧ Calls.Step (s.calls id j) .quiet (t.calls id k) := by
  by_cases hid : task.id = id
  · subst hid
    refine ⟨j, hroster ▸ hj, ?_⟩
    have hcalls : t.calls task.id j =
        ⟨j, (before.filter fun x => x.id = task.id).map Task.execution ++
          task.execution.release :: (after.filter fun x => x.id = task.id).map Task.execution⟩ :=
      congrArg (Calls.mk j) (threads_calls hafter rfl j)
    exact hcalls ▸ .release _ _ _ _ (threads_calls hactive rfl j)
  · refine calls_of_same hj (by rw [hroster]) ?_
    rw [threads_calls_of_ne hafter hid, threads_calls_of_ne hactive hid]

theorem calls_act {id' : JobId} {action : Action} (hj : s.runner.roster.get? id = some j)
    (hroster : t.runner.roster = s.runner.roster.update id' (·.perform action))
    (hactive : t.crew.active = s.crew.active) :
    ∃ k, t.runner.roster.get? id = some k ∧
      Calls.Step (s.calls id j) ((Deed.acted id' action).call id) (t.calls id k) := by
  by_cases hid : id' = id
  · subst hid
    refine ⟨j.perform action, by rw [hroster, Roster.get?_update_self hj], ?_⟩
    have hcalls : t.calls id' (j.perform action) =
        { s.calls id' j with job := j.perform action } := by rw [calls, calls, hactive]
    rw [Deed.call, if_pos rfl, hcalls]
    exact .act _ action
  · rw [Deed.call, if_neg hid]
    refine calls_of_same hj ?_ ?_
    · rw [hroster, Roster.get?_update, if_neg hid]
    · rw [calls, calls, hactive]

/-- What the runner does with its counters is no call. -/
theorem Step.calls_of_counts (h : Step s e t) (counts : e.counts = true)
    (hj : s.runner.roster.get? id = some j) :
    ∃ k, t.runner.roster.get? id = some k ∧ Calls.Step (s.calls id j) .quiet (t.calls id k) := by
  cases h with
  | turnAway | grant => exact calls_of_tends (.refl _) rfl hj
  | enqueue id' => exact calls_of_tends (s.runner.tends_enqueue id') rfl hj
  | pop => exact calls_of_tends s.runner.tends_pop rfl hj
  | takeBack id' cause => exact calls_of_tends (s.runner.tends_takeBack id' cause _) rfl hj
  | complete before task after active done =>
    exact calls_complete hj (s.runner.tends_complete task.id) active rfl done
  | _ => cases counts

/-- Each step is a step of the calls of each job. -/
theorem Does.calls (h : Does s d t) (hj : s.runner.roster.get? id = some j) :
    ∃ k, t.runner.roster.get? id = some k ∧
      Calls.Step (s.calls id j) (d.call id) (t.calls id k) := by
  cases h with
  | count step counts => exact step.calls_of_counts counts hj
  | rest step roster active => exact calls_of_tends (roster ▸ .refl _) active hj
  | begin before id' after => exact calls_begin hj rfl
  | move before task after active => exact calls_move hj active rfl
  | release before task after active => exact calls_release hj active rfl rfl
  | act id' action => exact calls_act hj rfl rfl

/-! ### What is seen of calls and runs -/

theorem countP_log (log : Array (JobId × CallRecord)) (records : List CallRecord)
    (other id : JobId) :
    (log ++ records.map fun record => (other, record)).countP (fun entry => entry.1 = id) =
      log.countP (fun entry => entry.1 = id) + if other = id then records.length else 0 := by
  rw [← Array.countP_toList, ← Array.countP_toList, Array.toList_appendList, List.countP_append,
    List.countP_map]
  split
  · next h => simp [Function.comp_def, h]
  · next h => simp [Function.comp_def, h]

/-- A run that goes on in a task is logged under its job. -/
theorem countP_log_runTask (c : Crew) (task : Task) (go : Execution → Job → Job × Execution)
    (hj : c.runner.roster.get? id = some j) :
    (c.runTask task go).2.log.countP (fun entry => entry.1 = id) =
      c.log.countP (fun entry => entry.1 = id) + if task.id = id then
        (go { task.execution with clock := c.clock, log := [] } j).2.log.length else 0 := by
  by_cases hid : task.id = id
  · subst hid
    rw [Crew.runTask_of_get? hj]
    exact countP_log _ _ _ _
  · rw [if_neg hid]
    unfold Crew.runTask
    exact (countP_log _ _ _ _).trans (by rw [if_neg hid])

/-- The calls of a job are those found in the log. -/
theorem Does.callCount (h : Does s d t) (hj : s.runner.roster.get? id = some j) :
    t.callCount id = s.callCount id + (CallEvent.grants [d.call id]).length := by
  cases h with
  | count step counts =>
    cases step with
    | turnAway | enqueue | pop | grant | takeBack | complete => rfl
    | _ => cases counts
  | rest step roster active log => rw [Shift.callCount, log]; rfl
  | begin before id' after =>
    let c : Crew := { s.crew with
      waiting := before ++ after
      runner := { s.runner with pool := s.runner.pool.beginTask } }
    have hlog := countP_log_runTask c ⟨id', { clock := c.clock }⟩ (fun x j => x.begin j) hj
    refine hlog.trans (congrArg (s.callCount id + ·) ?_)
    by_cases hid : id' = id
    · subst hid
      rw [if_pos rfl, Deed.call, if_pos rfl, claimOf, hj, Option.elim_some,
        Execution.length_log_begin]
      exact Nat.zero_add _
    · rw [if_neg hid, Deed.call, if_neg hid]
      rfl
  | move before task after active =>
    have hlog := countP_log_runTask s.crew task (fun x j => x.proceed j 1) hj
    refine hlog.trans (congrArg (s.callCount id + ·) ?_)
    by_cases hid : task.id = id
    · subst hid
      rw [if_pos rfl, Deed.call, if_pos rfl, callOf, hj, Option.elim_some,
        Execution.length_log_proceed]
      exact Nat.zero_add _
    · rw [if_neg hid, Deed.call, if_neg hid]
      rfl
  | release => rfl
  | act id' action =>
    by_cases hid : id' = id
    · rw [Deed.call, if_pos hid]
      rfl
    · rw [Deed.call, if_neg hid]
      rfl

/-- The runs that the pool has admitted wait for a thread until they begin. -/
theorem Step.waiting (h : Step s e t) (id : JobId) :
    t.crew.waiting.count id + [e].count (.begun id) =
      s.crew.waiting.count id + [e].count (.admitted id) := by
  cases h with
  | grant id' =>
    simp only [List.count_append, List.count_singleton, beq_iff_eq, Event.admitted.injEq]
    rfl
  | begin before id' after waiting =>
    have hwaiting : (s.crew.startTask before id' after).waiting = before ++ after := rfl
    rw [hwaiting, waiting]
    simp only [List.count_append, List.count_cons, List.count_nil, beq_iff_eq, Event.begun.injEq,
      reduceCtorEq, if_false]
    omega
  | pop => cases s.runner.pop.1 <;> rfl
  | _ => rfl

/-- Nothing goes on, and nothing can begin. -/
structure Still (s : Shift) : Prop where
  closed : s.runner.closed = true
  dispatcher : s.dispatcher = .idle
  waiting : s.crew.waiting = []
  active : s.crew.active = []

/-- So it stays, and no callback is called. -/
theorem Does.still (h : Does s d t) (hs : s.Still) : t.Still ∧ t.crew.log = s.crew.log := by
  have hclosed := h.closed.trans hs.closed
  have hidle := h.idle hs.closed hs.dispatcher
  cases h with
  | count step counts =>
    cases step with
    | turnAway | enqueue => exact ⟨⟨hclosed, hidle, hs.waiting, hs.active⟩, rfl⟩
    | pop ready => cases hs.dispatcher.symm.trans ready
    | grant id' pool holding => cases hs.dispatcher.symm.trans holding
    | takeBack => exact ⟨⟨hclosed, hidle, hs.waiting, hs.active⟩, rfl⟩
    | complete before task after active =>
      rw [hs.active] at active
      cases before <;> cases active
    | _ => cases counts
  | rest step roster active log =>
    refine ⟨⟨hclosed, hidle, ?_, active.trans hs.active⟩, log⟩
    refine List.eq_nil_iff_forall_not_mem.mpr fun id hid => ?_
    have hcount : t.crew.waiting.count id = s.crew.waiting.count id := step.waiting id
    rw [hs.waiting] at hcount
    exact List.count_eq_zero.mp hcount hid
  | begin before id' after waiting =>
    rw [hs.waiting] at waiting
    cases before <;> cases waiting
  | move before task after active | release before task after active =>
    rw [hs.active] at active
    cases before <;> cases active
  | act => exact ⟨⟨hclosed, hidle, hs.waiting, hs.active⟩, rfl⟩

/-! ### Whom the threads work for -/

/-- The line, the threads and the log are about jobs of the roster. -/
structure Manned (s : Shift) : Prop extends Known s where
  waiting : ∀ id ∈ s.crew.waiting, id < s.runner.roster.jobs.size
  active : ∀ task ∈ s.crew.active, task.id < s.runner.roster.jobs.size
  log : ∀ entry ∈ s.crew.log, entry.1 < s.runner.roster.jobs.size

theorem mem_waiting_startTask {c : Crew} {before after : List JobId} {other : JobId}
    (h : c.waiting = before ++ id :: after) (hmem : other ∈ (c.startTask before id after).waiting) :
    other ∈ c.waiting := by
  have hwaiting : (c.startTask before id after).waiting = before ++ after := rfl
  rw [hwaiting, List.mem_append] at hmem
  rw [h, List.mem_append, List.mem_cons]
  exact hmem.imp_right Or.inr

/-- What a thread logs is about its own job. -/
theorem mem_log_runTask {c : Crew} {task : Task} {go : Execution → Job → Job × Execution}
    {entry : JobId × CallRecord} (h : entry ∈ (c.runTask task go).2.log) :
    entry ∈ c.log ∨ entry.1 = task.id := by
  unfold Crew.runTask at h
  dsimp only at h
  rw [Array.mem_def, Array.toList_appendList, List.mem_append, List.mem_map] at h
  obtain hmem | ⟨record, -, rfl⟩ := h
  · exact Or.inl (Array.mem_def.mpr hmem)
  · exact Or.inr rfl

theorem mem_log_startTask {c : Crew} {before after : List JobId} {entry : JobId × CallRecord}
    (h : entry ∈ (c.startTask before id after).log) : entry ∈ c.log ∨ entry.1 = id := by
  let c' : Crew := { c with
    waiting := before ++ after
    runner := { c.runner with pool := c.runner.pool.beginTask } }
  have hlog : (c.startTask before id after).log =
      (c'.runTask ⟨id, { clock := c.clock }⟩ fun x j => x.begin j).2.log := rfl
  rw [hlog] at h
  exact mem_log_runTask h

theorem mem_log_moveTask {c : Crew} {before after : List Task} {task : Task} {n : Nat}
    {entry : JobId × CallRecord} (h : entry ∈ (c.moveTask before task after n).log) :
    entry ∈ c.log ∨ entry.1 = task.id := by
  have hlog : (c.moveTask before task after n).log =
      (c.runTask task fun x j => x.proceed j n).2.log := rfl
  rw [hlog] at h
  exact mem_log_runTask h

theorem Step.manned (h : Step s e t) (hline : s.runner.line.Sound) (hs : s.Manned) : t.Manned := by
  have hsize := h.effect.roster.size
  refine { toKnown := h.known hline hs.toKnown, waiting := ?_, active := ?_, log := ?_ }
  all_goals rw [hsize]
  · cases h with
    | grant id' pool holding =>
      intro other hother
      obtain hmem | hmem := List.mem_append.mp hother
      · exact hs.waiting other hmem
      · refine hs.hand other ?_
        rw [holding, List.mem_singleton.mp hmem]
        rfl
    | begin before id' after waiting =>
      exact fun other hother => hs.waiting other (mem_waiting_startTask waiting hother)
    | _ => exact hs.waiting
  · cases h with
    | begin before id' after waiting =>
      intro task htask
      obtain hmem | hmem := List.mem_append.mp htask
      · exact hs.active task hmem
      · rw [List.mem_singleton.mp hmem]
        exact hs.waiting id' (by rw [waiting]; simp)
    | advance before task after n active | release before task after active =>
      have hold (other : Task) (h : other ∈ before ∨ other ∈ after) : other ∈ s.crew.active := by
        rw [active, List.mem_append, List.mem_cons]
        exact h.imp_right Or.inr
      have hself := hs.active task (by rw [active]; simp)
      intro other hother
      obtain hmem | hmem := List.mem_append.mp hother
      · exact hs.active other (hold other (Or.inl hmem))
      · obtain rfl | hmem := List.mem_cons.mp hmem
        · exact hself
        · exact hs.active other (hold other (Or.inr hmem))
    | complete before task after active =>
      intro other hother
      refine hs.active other ?_
      rw [active, List.mem_append, List.mem_cons]
      exact (List.mem_append.mp hother).imp_right Or.inr
    | _ => exact hs.active
  · cases h with
    | begin before id' after waiting =>
      intro entry hentry
      obtain hmem | hid := mem_log_startTask hentry
      · exact hs.log entry hmem
      · rw [hid]
        exact hs.waiting id' (by rw [waiting]; simp)
    | advance before task after n active =>
      intro entry hentry
      obtain hmem | hid := mem_log_moveTask hentry
      · exact hs.log entry hmem
      · rw [hid]
        exact hs.active task (by rw [active]; simp)
    | _ => exact hs.log

/-- What is completed was a run of a job of the roster. -/
theorem Manned.lt_size_of_completed (hs : s.Manned) (h : Step s e t) (he : e = .completed id) :
    id < s.runner.roster.jobs.size := by
  cases h with
  | complete before task after active =>
    cases he
    exact hs.active task (by rw [active]; exact List.mem_append_cons_self)
  | pop =>
    revert he
    cases s.runner.pop.1 <;> nofun
  | _ => cases he

/-- The account of a job that is new. -/
theorem Manned.account_eq (hs : s.Manned) (hid : s.runner.roster.jobs.size ≤ id) (st : JobState) :
    s.account id st =
      { singleton := st.singleton, closed := st.isClosed, pending := st.pending,
        running := st.running, queued := false, held := false, flying := 0 } := by
  have hwaiting : s.crew.waiting.count id = 0 :=
    List.count_eq_zero.mpr fun h => absurd (hs.waiting id h) (Nat.not_lt.mpr hid)
  have hactive : (s.crew.active.map Task.id).count id = 0 := by
    refine List.count_eq_zero.mpr fun h => ?_
    obtain ⟨task, htask, rfl⟩ := List.mem_map.mp h
    exact absurd (hs.active task htask) (Nat.not_lt.mpr hid)
  rw [account, Crew.flying, hwaiting, hactive,
    decide_eq_false fun h => absurd (hs.line id h) (Nat.not_lt.mpr hid),
    decide_eq_false fun h => absurd (hs.hand id h) (Nat.not_lt.mpr hid)]

theorem Manned.callCount_eq (hs : s.Manned) (hid : s.runner.roster.jobs.size ≤ id) :
    s.callCount id = 0 := by
  rw [callCount, Array.countP_eq_zero]
  intro entry hentry
  rw [decide_eq_true_eq]
  rintro rfl
  exact absurd (hs.log entry hentry) (Nat.not_lt.mpr hid)

end Shift

end Metronome
