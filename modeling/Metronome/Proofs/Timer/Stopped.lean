import Metronome.Proofs.Job.Halted
import Metronome.Proofs.Timer.Backlog

/-!
# Triggers of stopped jobs

The tick thread reads the status of a job before it hands the job over, and passes over a stopped
one; it may only have read the status just before the job was stopped. The runner does not read it:
it asks whether a job is closed, and nothing else. So what was pending when a job was stopped, and
whatever anyone but the tick thread triggers while it is, goes to the pool as that of any other job.

## Main definitions

* `Plant.Halted` — a job is stopped or closed
* `Plant.Pledged` — the tick thread has read the status of a job and will hand the job over
* `Plant.Next` — the turn of a job in line has come

## Main results

* `Plant.Run.halted` — until it is started, a job stays stopped or is closed
* `Plant.Run.offered` — the tick thread hands a stopped job over once at most, and only if it was
  about to
* `Plant.Next.admitted` — the job in turn goes to the pool, whatever its status is
* `Plant.Run.stopped` — what comes to the pool while a job is stopped
-/

namespace Metronome

/-- The triggers of a job, accepted from anyone but the tick thread. -/
def Occasion.triggeredCount (id : JobId) (os : List Occasion) : Nat :=
  os.count (.worked (.counted (.answered id .queued)))

/-- The triggers of a job, accepted from the tick thread. -/
def Occasion.offeredCount (id : JobId) (os : List Occasion) : Nat :=
  os.count (.offered id .queued)

/-- The runs of a job that were handed to the pool. -/
def Occasion.admittedCount (id : JobId) (os : List Occasion) : Nat :=
  (os.map event).count (.admitted id)

theorem Occasion.event_beq_queued (o : Occasion) (id : JobId) :
    (o.event == .answered id .queued) =
      (o == .worked (.counted (.answered id .queued)) || o == .offered id .queued) := by
  rw [Bool.eq_iff_iff, Bool.or_eq_true, beq_iff_eq, beq_iff_eq, beq_iff_eq]
  cases o with
  | worked d => cases d <;> simp [event, Deed.event]
  | offered other answer => simp [event]
  | _ => simp [event]

/-- Whatever was accepted came from the tick thread or from someone else. -/
theorem Occasion.acceptedCount_eq (id : JobId) (os : List Occasion) :
    acceptedCount id os = triggeredCount id os + offeredCount id os := by
  induction os with
  | nil => rfl
  | cons o os ih =>
    rw [acceptedCount] at ih
    rw [acceptedCount, List.map_cons, List.count_cons, ih, event_beq_queued, triggeredCount,
      offeredCount, triggeredCount, offeredCount, List.count_cons, List.count_cons]
    have hone : o = .offered id .queued → o ≠ .worked (.counted (.answered id .queued)) := by
      rintro rfl hworked
      cases hworked
    grind

namespace Plant

variable {p q : Plant} {id : JobId} {j : Job} {st : JobState} {o : Occasion} {os : List Occasion}

/-! ### The status -/

/-- A job is stopped or closed. -/
def Halted (p : Plant) (id : JobId) : Prop := ∃ j, p.roster.get? id = some j ∧ j.isHalted = true

theorem Halted.lt_size (h : p.Halted id) : id < p.roster.jobs.size := by
  obtain ⟨j, hj, -⟩ := h
  exact (Array.getElem?_eq_some_iff.mp hj).1

/-- Until it is started, a job stays stopped or is closed. -/
theorem Run.halted (h : Run p os q) (hp : p.Halted id)
    (unstarted : ∀ o ∈ os, o.call id ≠ .acted .start) : q.Halted id := by
  obtain ⟨j, hj, hhalted⟩ := hp
  obtain ⟨k, hk, hcalls⟩ := Run.calls h hj
  refine ⟨k, hk, Calls.Run.isHalted hcalls hhalted fun hstart => ?_⟩
  obtain ⟨o, ho, hcall⟩ := List.mem_map.mp hstart
  exact unstarted o ho hcall

/-! ### The tick thread -/

/-- The tick thread has read the status of a job and will hand the job over. -/
inductive Pledged (p : Plant) (id : JobId) : Prop
  | offering (sweep : Sweep) (advance : Advance)
      (ticker : p.ticker = .busy sweep (.capping id advance) ∨
        p.ticker = .busy sweep (.offering id advance))
      (opened : p.roster.isClosed id = false)
  | counting (sweep : Sweep) (advance : Advance)
      (ticker : p.ticker = .busy sweep (.counting id advance))

theorem Pledged.hand (h : p.Pledged id) : p.ticker.hand? = some id := by
  cases h with
  | offering sweep advance ticker =>
    obtain ticker | ticker := ticker
    · rw [ticker]
      rfl
    · rw [ticker]
      rfl
  | counting sweep advance ticker =>
    rw [ticker]
    rfl

theorem Pledged.of_ticker (h : q.Pledged id) (hticker : q.ticker = p.ticker)
    (hopen : q.roster.isClosed id = false → p.roster.isClosed id = false) : p.Pledged id := by
  cases h with
  | offering sweep advance ticker opened =>
    exact .offering sweep advance (hticker ▸ ticker) (hopen opened)
  | counting sweep advance ticker => exact .counting sweep advance (hticker ▸ ticker)

theorem decided_ne_counting (p : Plant) (sweep : Sweep) (id : JobId)
    (advance advance' : Advance) : p.decided sweep id advance ≠ .counting id advance' := by
  unfold decided
  split
  · split <;> exact nofun
  · exact nofun

/-- A job that is found stopped is not handed over. -/
theorem decided_of_halted (h : p.Halted id) (opened : p.roster.isClosed id = false)
    (sweep : Sweep) (advance : Advance) :
    p.decided sweep id advance = .settling id advance false := by
  obtain ⟨j, hj, hhalted⟩ := h
  have hstopped : j.state.status = .stopped := by
    refine ((JobStatus.isHalted_iff _).mp hhalted).resolve_right fun hclosed => ?_
    rw [Roster.isClosed_of_get? hj, Job.isClosed, j.state.isClosed_iff.mpr hclosed] at opened
    cases opened
  have hfires : p.fires sweep id advance = false := by
    rw [fires, Roster.state?, hj, Option.map_some, Option.any_some, hstopped]
    exact Bool.and_false _
  rw [decided, hfires]
  rfl

/-- Nobody makes the tick thread hand over a job that is stopped. -/
theorem Step.pledged (h : Step p o q) (hp : p.Halted id) (hq : q.Pledged id) : p.Pledged id := by
  have hopen : q.roster.isClosed id = false → p.roster.isClosed id = false :=
    h.isClosed_eq_false hp.lt_size
  cases h with
  | decide sweep id' advance deciding =>
    -- the status is read in this step: a stopped job is put back, and a closed one is no pledge
    obtain rfl : id' = id :=
      Option.some.inj ((p.hand_decided sweep id' advance).symm.trans hq.hand)
    cases hq with
    | offering _ _ ticker opened =>
      dsimp only at ticker
      rw [decided_of_halted hp opened] at ticker
      obtain ticker | ticker := ticker <;> cases ticker
    | counting _ advance' ticker =>
      exact absurd (Ticker.busy.inj ticker).2 (p.decided_ne_counting sweep id' advance advance')
  | cap sweep id' advance capping =>
    cases hq with
    | offering _ _ ticker opened =>
      obtain ticker | ticker := ticker
      · cases ticker
      · cases ticker
        exact .offering sweep advance (Or.inl capping) (hopen opened)
    | counting _ _ ticker => cases ticker
  | check sweep id' advance offering opened =>
    cases hq with
    | offering _ _ ticker => obtain ticker | ticker := ticker <;> cases ticker
    | counting _ _ ticker =>
      cases ticker
      -- the trigger was not turned away, so the job was open
      exact .offering sweep advance (Or.inr offering) (Bool.or_eq_false_iff.mp opened).2
  | tick tick now =>
    have hhand := hq.hand
    unfold tickOver at hhand
    dsimp only at hhand
    split at hhand <;> cases hhand
  | take | look | turnAway | count =>
    cases hq with
    | offering _ _ ticker => obtain ticker | ticker := ticker <;> cases ticker
    | counting _ _ ticker => cases ticker
  | rest | skip | requeue | retire | dismiss => cases hq.hand
  | _ => exact hq.of_ticker rfl hopen

/-- With its trigger the tick thread has done what it was about to do. -/
theorem Step.pledged_of_offered {answer : Submission} (h : Step p o q)
    (ho : o = .offered id answer) (accepted : answer ≠ .refused) :
    p.Pledged id ∧ ¬ q.Pledged id := by
  cases h with
  | turnAway sweep id' advance offering =>
    cases ho
    exact absurd rfl accepted
  | count sweep id' advance counting =>
    cases ho
    refine ⟨.counting sweep advance counting, fun hq => ?_⟩
    cases hq with
    | offering _ _ ticker => obtain ticker | ticker := ticker <;> cases ticker
    | counting _ _ ticker => cases ticker
  | _ => cases ho

/-- The tick thread hands a stopped job over once at most, and only if it was about to. -/
theorem Run.offered (h : Run p os q) (hp : p.Halted id)
    (unstarted : ∀ o ∈ os, o.call id ≠ .acted .start) :
    (q.Pledged id → p.Pledged id ∧ Occasion.offeredCount id os = 0) ∧
      Occasion.offeredCount id os ≤ 1 ∧
      ∀ answer, .offered id answer ∈ os → answer ≠ .refused → p.Pledged id := by
  induction h with
  | refl => exact ⟨fun hq => ⟨hq, rfl⟩, Nat.zero_le _, fun _ ho => absurd ho List.not_mem_nil⟩
  | @snoc q r os o hrun hstep ih =>
    simp only [List.mem_append, List.mem_singleton] at unstarted
    have hbefore (o : Occasion) (ho : o ∈ os) : o.call id ≠ .acted .start := unstarted o (Or.inl ho)
    obtain ⟨hpledged, hle, hoffered⟩ := ih hbefore
    -- a trigger of the tick thread takes up its pledge, and no step makes another one
    have hstill := hstep.pledged (Run.halted hrun hp hbefore)
    have hsplit : Occasion.offeredCount id (os ++ [o]) =
        Occasion.offeredCount id os + [o].count (.offered id .queued) := List.count_append
    rw [hsplit]
    refine ⟨fun hr => ?_, ?_, fun answer ho accepted => ?_⟩
    · obtain ⟨hstart, hzero⟩ := hpledged (hstill hr)
      have hnot : o ≠ .offered id .queued := fun ho =>
        (hstep.pledged_of_offered ho nofun).2 hr
      exact ⟨hstart, by rw [hzero, List.count_singleton, if_neg (by simpa using hnot)]⟩
    · by_cases ho : o = .offered id .queued
      · rw [(hpledged (hstep.pledged_of_offered ho nofun).1).2, ho, List.count_singleton_self]
      · rw [List.count_singleton, if_neg (by simpa using ho)]
        exact hle
    · obtain hmem | hmem := List.mem_append.mp ho
      · exact hoffered answer hmem accepted
      · have hlast := hstep.pledged_of_offered (List.mem_singleton.mp hmem).symm accepted
        exact (hpledged hlast.1).1

/-! ### The runner -/

/-- Nothing comes to the pool that was not accepted, as long as the triggers can be counted. -/
theorem Run.unadmitted_le {n : Int} (h : Run p os q) (hp : p.Orderly)
    (hst : p.roster.state? id = some st)
    (hfits : Account.Fits id (p.shift.account id st) n (os.map Occasion.event)) :
    q.unadmitted id + Occasion.admittedCount id os ≤
      p.unadmitted id + Occasion.acceptedCount id os := by
  obtain ⟨st', hst', hmoves⟩ := Run.exists_moves h hp hst
  rw [Plant.unadmitted_eq hst, Plant.unadmitted_eq hst']
  exact Account.Moves.unadmitted_le hmoves (hp.accounts id st hst) hfits

/-- A job is the next one to be handed to the pool, which has room. -/
structure Next (p : Plant) (id : JobId) : Prop where
  dispatcher : p.dispatcher = .idle
  line : ∃ rest, p.timer.crew.runner.line.order = id :: rest
  room : p.timer.crew.runner.pool.freeSlots ≠ 0
  runner : p.timer.crew.runner.closed = false
  opened : p.roster.isClosed id = false

/-- Whatever a job is shown as, the dispatch thread hands it to the pool when its turn has come. -/
theorem Next.admitted (h : p.Next id) :
    ∃ q, Run p ([.quiet, .counted (.taken id), .counted (.admitted id)].map .worked) q := by
  obtain ⟨rest, hline⟩ := h.line
  obtain ⟨r, hpop, hpool⟩ := Runner.pop_of_order hline h.opened
  obtain ⟨pool, hsubmit⟩ := Pool.exists_submit h.room
  -- room is looked for, then the line is popped, then the pool is asked; none of them asks the job
  let ready : Shift := { p.shift with dispatcher := .ready }
  let taken : Shift := { ready.withRunner r with dispatcher := .holding id }
  have hlook : Shift.Does p.shift .quiet ready :=
    .rest (.look p.shift h.dispatcher h.room h.runner) rfl rfl rfl rfl rfl
  have htake : Shift.Does ready (.counted (.taken id)) taken := by
    have hstep := Shift.Step.pop ready rfl
    have hready : ready.runner.pop = (.taken id, r) := hpop
    rw [hready] at hstep
    exact .count hstep rfl
  have hgrant := Shift.Step.grant taken id pool rfl (hpool ▸ hsubmit)
  exact ⟨_, run_work p (((Course.single hlook).snoc htake).snoc (.count hgrant rfl)) rfl⟩

/-- Until it is started, a stopped job stays stopped or is closed. The tick thread does not hand it
over, save for the one trigger that it may have been about to. But the runner does not ask: what
comes to the pool was pending when the job was stopped or was accepted since, no trigger of a
regular job is given up while the job is open, and the job is handed to the pool when its turn has
come. The triggers are counted here, which the counter of a regular job can do if there have never
been too many of them. -/
theorem Run.stopped {start : Plant} {es : List Occasion} (hstart : Opened start)
    (hbefore : Run start es p) (hst : p.roster.state? id = some st)
    (stopped : st.status = .stopped) (h : Run p os q)
    (unstarted : ∀ o ∈ os, o.call id ≠ .acted .start) :
    (∃ st', q.roster.state? id = some st' ∧ (st'.status = .stopped ∨ st'.status = .closed)) ∧
    (∀ answer, .offered id answer ∈ os → answer ≠ .refused → p.Pledged id) ∧
    Occasion.offeredCount id os ≤ 1 ∧
    (st.singleton = true ∨ Event.Within id ((es ++ os).map Occasion.event) →
      q.unadmitted id + Occasion.admittedCount id os ≤
        p.unadmitted id + (Occasion.triggeredCount id os + Occasion.offeredCount id os) ∧
      (st.singleton = false → q.roster.isClosed id = false → .cleared ∉ os →
        q.unadmitted id + Occasion.admittedCount id os =
          p.unadmitted id + (Occasion.triggeredCount id os + Occasion.offeredCount id os))) ∧
    (q.Next id → ∃ r,
      Run q ([.quiet, .counted (.taken id), .counted (.admitted id)].map .worked) r) := by
  have hp := Run.orderly hbefore hstart.orderly
  obtain ⟨j, hj, rfl⟩ := Option.map_eq_some_iff.mp hst
  have hhalted : p.Halted id := ⟨j, hj, by rw [Job.isHalted, stopped]; rfl⟩
  obtain ⟨k, hk, hend⟩ := Run.halted h hhalted unstarted
  obtain ⟨-, honce, hpledged⟩ := Run.offered h hhalted unstarted
  have haccepted : (Occasion.acceptedCount id os : Int) =
      Occasion.triggeredCount id os + Occasion.offeredCount id os := by
    rw [Occasion.acceptedCount_eq, Int.natCast_add]
  rw [← haccepted]
  refine ⟨⟨k.state, ?_, (JobStatus.isHalted_iff _).mp hend⟩, hpledged, honce, fun hfits => ?_,
    fun hnext => hnext.admitted⟩
  · exact congrArg (Option.map Job.state) hk
  · rw [List.map_append] at hfits
    obtain ⟨n, hfits⟩ := Run.fits hbefore hstart hst hfits
    exact ⟨Run.unadmitted_le h hp hst hfits, fun regular opened kept =>
      Run.unadmitted_eq h hp hst regular hfits opened kept⟩

end Plant

/-! ### A job that was added stopped -/

/-- A job that asks for every tick and is stopped from the beginning. -/
def JobOptions.stopped : JobOptions := { Works.everyTick with paused := true }

def Job.paused : Job :=
  { name := none
    spec := .every (.ofMillis 100)
    schedule := .interval (.starting 1 0)
    callback := fun _ => {}
    state := .new false none .stopped }

namespace Plant

/-- The job was created. -/
def paused : Plant :=
  { lone.withRoster (lone.roster.add .paused).2 with adding := [(0, 1)] }

theorem step_paused : Step lone (.created 0) paused :=
  .create lone .stopped ⟨4133894399900000000⟩ .paused nofun (anchor_lone ▸ rfl)

/-- What is seen when the job is triggered. -/
def triggering : List Occasion := [.worked .quiet, .worked (.counted (.answered 0 .queued))]

theorem run_paused : Run paused triggering (trigger paused) := run_trigger paused 0 rfl

theorem next_paused : (trigger paused).Next 0 :=
  ⟨rfl, ⟨[], by decide +kernel⟩, by decide +kernel, rfl, by decide +kernel⟩

/-- A job that was added stopped is triggered, and that is pending; then it goes to the pool. -/
theorem stopped_paused : ∃ q r os es, Run paused os q ∧ q.unadmitted 0 = 1 ∧ Run q es r ∧
    Occasion.admittedCount 0 es = 1 := by
  have hst : paused.roster.state? 0 = some Job.paused.state := rfl
  obtain ⟨-, -, -, hcounted, hnext⟩ :=
    Run.stopped opened_lone (.single step_paused) hst rfl run_paused (by decide)
  have hwithin : Event.Within 0 (([Occasion.created 0] ++ triggering).map Occasion.event) :=
    Event.within_of_length (by decide)
  have heq := (hcounted (Or.inr hwithin)).2 rfl (by decide +kernel) (by decide)
  have hbefore : paused.unadmitted 0 = 0 := rfl
  have hadmitted : Occasion.admittedCount 0 triggering = 0 := by decide
  have htriggered : Occasion.triggeredCount 0 triggering = 1 := by decide
  have hoffered : Occasion.offeredCount 0 triggering = 0 := by decide
  rw [hbefore, hadmitted, htriggered, hoffered] at heq
  obtain ⟨r, hrun⟩ := hnext next_paused
  exact ⟨_, r, _, _, run_paused, by omega, hrun, by decide⟩

/-- A job that was added stopped and never started is handed to the pool. -/
theorem paused_admitted : ∃ q os, Opened lone ∧ Step lone (.created 0) paused ∧
    (paused.roster.state? 0).map JobState.status = some .stopped ∧ Run paused os q ∧
      (∀ o ∈ os, o.call 0 ≠ .acted .start) ∧ .worked (.counted (.admitted 0)) ∈ os := by
  obtain ⟨q, hrun⟩ := next_paused.admitted
  exact ⟨q, _, opened_lone, step_paused, rfl, run_paused.append hrun, by decide, by decide⟩

end Plant

end Metronome
