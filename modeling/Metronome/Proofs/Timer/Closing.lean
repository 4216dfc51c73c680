import Metronome.Proofs.Job.Limit
import Metronome.Proofs.Timer.Exhaustion

/-!
# The end of a timer

Whoever closes a timer empties one place after the other: the tick thread comes to its end, the
runner is closed, the line is dropped, and at last the jobs in the queue are closed. Runs that the
pool has admitted still come to their end. A job that has left the queue for good before is none of
those that are closed here. It is left to the run that has spent its budget, or that will spend it,
and if that run was dropped with the line there is nobody left to close it.

## Main definitions

* `Plant.Shutdown` — what the closing thread has done so far
* `Plant.Listed` — the closing thread will find the job in the queue
* `Plant.Outgoing` — an admitted run spends the budget of the job

## Main results

* `Plant.Run.shutdown` — the threads come to their end one after the other
* `Plant.Run.placed` — a job is closed, has a place, or was left to a run
* `Plant.Run.finished` — what is true of a timer that has been closed
-/

namespace Metronome

/-- The runner is closed. -/
def Closer.isShut : Closer → Bool
  | .absent | .joining => false
  | .dropping | .draining | .closing _ | .done => true

/-- The line was dropped. -/
def Closer.isCleared : Closer → Bool
  | .absent | .joining | .dropping => false
  | .draining | .closing _ | .done => true

theorem Closer.isShut_of_isCleared {c : Closer} (h : c.isCleared = true) : c.isShut = true := by
  cases c <;> first | rfl | cases h

/-- The queue was emptied. -/
def Closer.isDrained : Closer → Bool
  | .absent | .joining | .dropping | .draining => false
  | .closing _ | .done => true

namespace Plant

variable {p q r s t : Plant} {id : JobId} {j k : Job} {o : Occasion} {os es : List Occasion}

/-! ### What the closing thread has done -/

/-- What the closing thread has done so far. -/
structure Shutdown (p : Plant) : Prop where
  runner : p.timer.crew.runner.closed = p.closer.isShut
  status : p.closer ≠ .absent → p.timer.status = .closed
  ticker : p.closer.isShut = true → p.ticker = .idle
  dispatcher : p.closer.isCleared = true → p.dispatcher = .idle

/-- A closed timer is neither resumed nor stopped. -/
theorem status_of_switch {timer : Timer} {status : TimerStatus}
    (switched : timer.start.2 = { timer with status := status } ∨
      timer.stop.2 = { timer with status := status })
    (closed : timer.status = .closed) : status = .closed := by
  have hstart : timer.start.2 = timer := by
    rw [Timer.start, closed]
    rfl
  have hstop : timer.stop.2 = timer := by
    rw [Timer.stop, closed]
    rfl
  rw [hstart, hstop, or_self] at switched
  exact (congrArg Timer.status switched).symm.trans closed

theorem Step.shutdown (h : Step p o q) (hp : p.Shutdown) : q.Shutdown := by
  -- the tick thread is in the middle of nothing once the runner is closed
  have hbusy {sweep : Sweep} {stage : Stage} {P : Prop} (hticker : p.ticker = .busy sweep stage)
      (hshut : p.closer.isShut = true) : P := by
    cases hticker.symm.trans (hp.ticker hshut)
  cases h with
  | work d s does =>
    refine ⟨does.closed.trans hp.runner, hp.status, hp.ticker, fun hcleared => ?_⟩
    exact does.idle (hp.runner.trans (Closer.isShut_of_isCleared hcleared)) (hp.dispatcher hcleared)
  | create | enlist => exact ⟨hp.runner, hp.status, hp.ticker, hp.dispatcher⟩
  | switch status switched =>
    exact ⟨hp.runner, fun hcloser => status_of_switch switched (hp.status hcloser), hp.ticker,
      hp.dispatcher⟩
  | tick tick now idle running =>
    have hclosed := (p.tickOver_crew tick now).2.2.2.2.2
    refine ⟨hclosed.trans hp.runner,
      fun hcloser => (p.status_tickOver tick now).trans (hp.status hcloser), fun hshut => ?_,
      hp.dispatcher⟩
    obtain hcloser | hcloser := running
    · cases (congrArg Closer.isShut hcloser).symm.trans hshut
    · cases (congrArg Closer.isShut hcloser).symm.trans hshut
  | take | rest | skip | look | decide | cap | turnAway | check | requeue | retire | dismiss =>
    exact ⟨hp.runner, hp.status, hbusy ‹_›, hp.dispatcher⟩
  | count sweep id' advance counting =>
    exact ⟨(Runner.steady_enqueue _ id').closed.trans hp.runner, hp.status, hbusy counting,
      hp.dispatcher⟩
  | close absent opened =>
    exact ⟨hp.runner.trans (by rw [absent]; rfl), fun _ => rfl, nofun, nofun⟩
  | shut joining idle opened =>
    exact ⟨rfl, fun _ => hp.status (by rw [joining]; nofun), fun _ => idle, nofun⟩
  | clear dropping closing idle =>
    have hclosed := (Runner.steady_dropLine p.timer.crew.runner).closed
    exact ⟨hclosed.trans (hp.runner.trans (by rw [dropping]; rfl)),
      fun _ => hp.status (by rw [dropping]; nofun), fun _ => hp.ticker (by rw [dropping]; rfl),
      fun _ => idle⟩
  | drain closer | closeJob _ _ closer | finish closer =>
    exact ⟨hp.runner.trans (by rw [closer]; rfl), fun _ => hp.status (by rw [closer]; nofun),
      fun _ => hp.ticker (by rw [closer]; rfl), fun _ => hp.dispatcher (by rw [closer]; rfl)⟩

theorem Run.shutdown (h : Run p os q) (hp : p.Shutdown) : q.Shutdown :=
  h.preserves (P := Shutdown) (fun hstep hp => hstep.shutdown hp) hp

theorem Opened.shutdown (h : Opened p) : p.Shutdown := by
  obtain ⟨pool, clock, hcrew⟩ := h.crew
  refine ⟨?_, fun hcloser => absurd h.closer hcloser, fun _ => h.ticker, fun _ => ?_⟩
  · rw [hcrew, h.closer]
    rfl
  · rw [h.floor]

theorem Reachable.shutdown (h : Reachable p) : p.Shutdown := by
  obtain ⟨start, os, hopened, hrun⟩ := h
  exact Run.shutdown hrun hopened.shutdown

/-- The runner is open as long as nobody closes the timer. -/
theorem Shutdown.opened (h : p.Shutdown) (absent : p.closer = .absent) :
    p.timer.crew.runner.closed = false :=
  h.runner.trans (by rw [absent]; rfl)

/-! ### Jobs with a place and jobs without one -/

theorem Step.isCleared (h : Step p o q) (hp : p.closer.isCleared = true) :
    q.closer.isCleared = true := by
  cases h with
  | close closer | shut closer | clear closer | drain closer | closeJob _ _ closer
  | finish closer =>
    first | rfl | cases (congrArg Closer.isCleared closer).symm.trans hp
  | _ => exact hp

/-- Until the line is dropped, a job is closed, is in its place, or was left to a run. -/
theorem Run.placed (h : Run p os q) (hp : p.Opened) (hid : id < q.roster.jobs.size)
    (kept : q.closer.isCleared = false) :
    q.roster.isClosed id = true ∨ .dismissed id ∈ os ∨ 0 < q.spots id := by
  induction h with
  | refl =>
    obtain ⟨pool, clock, hcrew⟩ := hp.crew
    rw [roster, Timer.roster, hcrew] at hid
    exact absurd hid (Nat.not_lt_zero id)
  | @snoc q r os o hrun hstep ih =>
    obtain ⟨gone, heq, hleaves⟩ := hstep.passes (Run.orderly hrun hp.orderly).queue id
    have hbefore : q.closer.isCleared = false :=
      Bool.eq_false_iff.mpr fun hcleared => Bool.eq_false_iff.mp kept (hstep.isCleared hcleared)
    -- a job that was in its place before the step and is in none now has left it
    have hleft (hgone : 0 < gone) : r.roster.isClosed id = true ∨ .dismissed id ∈ os ++ [o] := by
      obtain hclosed | rfl | hcloser := hleaves hgone
      · exact Or.inl hclosed
      · exact Or.inr (by simp)
      · cases (congrArg Closer.isCleared hcloser).symm.trans hbefore
    rw [← or_assoc, or_iff_not_imp_right, Nat.not_lt, Nat.le_zero]
    intro hnone
    by_cases hnew : o = .created id
    · rw [if_pos hnew] at heq
      exact hleft (by omega)
    · rw [if_neg hnew] at heq
      obtain hclosed | hmem | hspot := ih (hstep.lt_size_of_ne hnew hid) hbefore
      · exact Or.inl (hstep.isClosed (hstep.lt_size_of_ne hnew hid) hclosed)
      · exact Or.inr (List.mem_append_left _ hmem)
      · exact hleft (by omega)

/-! ### Jobs that the closing thread finds -/

/-- The closing thread closes the job, once it comes to it. -/
inductive Listed (p : Plant) (id : JobId) : Prop
  | closed (closed : p.roster.isClosed id = true)
  | queued (closer : p.closer = .draining) (queued : ∃ e ∈ p.timer.queue.entries, e.value = id)
  | listed (ids : List JobId) (closer : p.closer = .closing ids) (listed : id ∈ ids)

theorem Step.listed (h : Step p o q) (hp : p.Shutdown) (hid : id < p.roster.jobs.size)
    (hlisted : p.Listed id) : q.Listed id := by
  cases hlisted with
  | closed closed => exact .closed (h.isClosed hid closed)
  | queued closer queued =>
    have hbusy {sweep : Sweep} {stage : Stage} (hticker : p.ticker = .busy sweep stage) :
        False := by
      cases hticker.symm.trans (hp.ticker (by rw [closer]; rfl))
    cases h with
    | enlist before id' tick =>
      obtain ⟨e, he, hvalue⟩ := queued
      exact .queued closer ⟨e, Queue.mem_push.mpr (Or.inl he), hvalue⟩
    | tick _ _ _ running =>
      obtain hcloser | hcloser := running
      · cases closer.symm.trans hcloser
      · cases closer.symm.trans hcloser
    | take _ _ _ taking => exact (hbusy taking).elim
    | requeue _ _ _ _ settling => exact (hbusy settling).elim
    | drain =>
      obtain ⟨e, he, rfl⟩ := queued
      exact .listed _ rfl (List.mem_map_of_mem (Array.mem_toList_iff.mpr he))
    | close closer' | shut closer' | clear closer' | closeJob _ _ closer' | finish closer' =>
      cases closer.symm.trans closer'
    | _ => exact .queued closer queued
  | listed ids closer listed =>
    cases h with
    | close closer' | shut closer' | clear closer' | drain closer' =>
      cases closer.symm.trans closer'
    | finish closer' =>
      cases closer.symm.trans closer'
      exact absurd listed List.not_mem_nil
    | closeJob id' ids' closer' =>
      cases closer.symm.trans closer'
      obtain rfl | hmem := List.mem_cons.mp listed
      · exact .closed (Roster.isClosed_update_close _ _)
      · exact .listed ids' rfl hmem
    | _ => exact .listed ids closer listed

/-- The queue is emptied for good. -/
structure Emptied (p : Plant) : Prop where
  adding : p.adding = []
  queue : p.closer.isDrained = true → p.timer.queue = .empty

theorem Step.emptied (h : Step p o q) (hp : p.Shutdown) (cleared : p.closer.isCleared = true)
    (hempty : p.Emptied) : q.Emptied := by
  have hbusy {sweep : Sweep} {stage : Stage} (hticker : p.ticker = .busy sweep stage) : False := by
    cases hticker.symm.trans (hp.ticker (Closer.isShut_of_isCleared cleared))
  have hclosed : p.timer.status = .closed := by
    refine hp.status fun hcloser => ?_
    cases (congrArg Closer.isCleared hcloser).symm.trans cleared
  cases h with
  | create _ _ _ opened => exact absurd hclosed opened
  | tick _ _ _ running =>
    obtain hcloser | hcloser := running
    · cases (congrArg Closer.isCleared hcloser).symm.trans cleared
    · cases (congrArg Closer.isCleared hcloser).symm.trans cleared
  | enlist before id' tick after created =>
    rw [hempty.adding] at created
    cases before <;> cases created
  | take _ _ _ taking => exact (hbusy taking).elim
  | requeue _ _ _ _ settling => exact (hbusy settling).elim
  | drain => exact ⟨hempty.adding, fun _ => rfl⟩
  | close closer | shut closer | clear closer =>
    cases (congrArg Closer.isCleared closer).symm.trans cleared
  | closeJob _ _ closer | finish closer =>
    exact ⟨hempty.adding, fun _ => hempty.queue (by rw [closer]; rfl)⟩
  | _ => exact ⟨hempty.adding, hempty.queue⟩

/-! ### Jobs that are left to a run -/

/-- The run that spends the budget of a job is in progress or has closed the job, or there are
enough admitted runs to spend it. -/
def Outgoing (p : Plant) (id : JobId) : Prop :=
  p.roster.isClosed id = true ∨ p.Lasting id ∨
    ∃ st n, p.roster.state? id = some st ∧ st.budget.remaining = some (n + 1) ∧
      n + 1 ≤ p.timer.crew.waiting.count id

theorem Step.outgoing (h : Step p o q) (hj : p.roster.get? id = some j)
    (hsets : (o.call id).sets = false) (houtgoing : p.Outgoing id) : q.Outgoing id := by
  obtain ⟨k, hk, htells⟩ := h.tells hj
  obtain hclosed | hlasting | ⟨st, n, hst, hn, hwaiting⟩ := houtgoing
  · left
    rw [Roster.isClosed_of_get? hk, htells.closed, ← Roster.isClosed_of_get? hj, hclosed]
    rfl
  · obtain hlasting | hcloses := htells.lasts hlasting
    · exact Or.inr (Or.inl hlasting)
    · left
      rw [Roster.isClosed_of_get? hk, htells.closed, hcloses, Bool.or_true]
  · obtain rfl : j.state = st :=
      Option.some.inj ((congrArg (Option.map Job.state) hj).symm.trans hst)
    have hcount := h.waiting id
    have hbegun : [o.event].count (.begun id) ≤ 1 := List.count_le_length
    have hunbegun (hclaim : ∀ claim, o.call id ≠ .claimed claim) :
        [o.event].count (.begun id) = 0 := by
      refine List.count_eq_zero.mpr fun hmem => ?_
      obtain ⟨claim, hcall⟩ := h.claimed_of_begun (List.mem_singleton.mp hmem).symm
      exact hclaim claim hcall
    have hstay (m : Nat) (hm : k.state.budget.remaining = some (m + 1))
        (hle : m + 1 ≤ q.timer.crew.waiting.count id) : q.Outgoing id :=
      Or.inr (Or.inr ⟨k.state, m, congrArg (Option.map Job.state) hk, hm, hle⟩)
    obtain ⟨claim, hcall⟩ | ⟨limit, hcall⟩ | ⟨hclaim, -, hkeep⟩ :=
      CallEvent.cases_of_not_sets hsets
    · -- a claim takes one unit of the budget, and at most one of the waiting runs
      have hbudget := Budget.claim_of_some hn
      obtain rfl := htells.claim claim hcall
      rw [hcall] at htells
      cases n with
      | zero => exact Or.inr (Or.inl (htells.spent (by rw [hbudget]; rfl)))
      | succ m =>
        refine hstay m ?_ (by omega)
        rw [htells.budget, CallEvent.budget, hbudget]
    · have hlimit : limit = 1 := (h.capped hcall).2
      have hzero := hunbegun fun claim h => by rw [hcall] at h; cases h
      rw [hcall] at htells
      have hbudget : k.state.budget.remaining = some (min (n + 1) (min limit Budget.maxRuns)) := by
        rw [htells.budget, CallEvent.budget, Budget.cap, hn]
      have hpos : 0 < min (n + 1) (min limit Budget.maxRuns) := by
        rw [Budget.maxRuns]
        omega
      exact hstay (min (n + 1) (min limit Budget.maxRuns) - 1) (hbudget.trans (by
        rw [Nat.sub_add_cancel hpos])) (by omega)
    · have hzero := hunbegun hclaim
      exact hstay n (by rw [htells.budget, hkeep, hn]) (by omega)

/-! ### A timer that is closed without being interrupted -/

/-- The jobs that were in the queue are closed one after the other. -/
theorem run_closing (p : Plant) (ids : List JobId) :
    Run { p with closer := .closing ids } (ids.map .retired)
      { p.withRoster (ids.foldl (fun roster id => roster.update id Job.close) p.roster) with
        closer := .closing [] } := by
  induction ids generalizing p with
  | nil => exact .refl _
  | cons id ids ih =>
    have hstep := Step.closeJob { p with closer := .closing (id :: ids) } id ids rfl
    exact (Course.single hstep).append (ih (p.withRoster (p.roster.update id Job.close)))

/-- The end of a timer, as long as no thread is in the middle of anything. -/
theorem run_close (absent : p.closer = .absent) (opened : p.timer.status ≠ .closed)
    (ticker : p.ticker = .idle) (dispatcher : p.dispatcher = .idle) (closing : p.closing = false)
    (runner : p.timer.crew.runner.closed = false) :
    ∃ s t, Run p [.quiet, .quiet] s ∧ Step s .cleared t ∧ s.adding = p.adding ∧
      Run t (.quiet :: (p.timer.queue.drain.1.map .retired ++ [.quiet]))
        { p with timer := p.timer.close, closer := .done } := by
  let p₁ : Plant := { p with timer := { p.timer with status := .closed }, closer := .joining }
  let p₂ : Plant := { p₁ with
    closing := true
    timer := p₁.timer.withRunner p₁.timer.crew.runner.shut
    closer := .dropping }
  let p₃ : Plant := { p₂ with
    closing := false
    timer := p₂.timer.withRunner p₂.timer.crew.runner.clear
    closer := .draining }
  let p₄ : Plant := { p₃ with timer := { p₃.timer with queue := p₃.timer.queue.drain.2 } }
  have hclose : Step p .quiet p₁ := .close p absent opened
  have hshut : Step p₁ .quiet p₂ := .shut p₁ rfl ticker runner
  have hclear : Step p₂ .cleared p₃ := .clear p₂ rfl rfl dispatcher
  have hdrain : Step p₃ .quiet { p₄ with closer := .closing p.timer.queue.drain.1 } := .drain p₃ rfl
  have hjobs := run_closing p₄ p.timer.queue.drain.1
  have hafter := (Course.single hdrain).append (hjobs.snoc (.finish _ rfl))
  have htimer : (p₄.timer.withRoster (p.timer.queue.drain.1.foldl
      (fun roster id => roster.update id Job.close) p₄.roster)) = p.timer.close := by
    rw [Timer.close, if_neg opened]
    dsimp only
    rw [Runner.close_eq, if_neg (Bool.eq_false_iff.mp runner)]
    rfl
  have hfloor : { p.toFloor with closing := false } = p.toFloor := by rw [← closing]
  refine ⟨p₂, p₃, (Course.single hclose).snoc hshut, hclear, rfl, ?_⟩
  have hend : { p₃ with timer := p.timer.close, closer := .done } =
      { p with timer := p.timer.close, closer := .done } :=
    congrArg (fun floor => { p with toFloor := floor, timer := p.timer.close, closer := .done })
      hfloor
  rw [← hend, ← htimer]
  exact hafter

/-! ### What goes on after the end -/

/-- Nothing goes on in a closed timer whose pool is empty, and no callback is called any more. -/
theorem Step.still (h : Step p o q) (hp : p.shift.Still) :
    q.shift.Still ∧ q.timer.crew.log = p.timer.crew.log := by
  cases h with
  | work d s does => exact does.still hp
  | tick tick now =>
    obtain ⟨-, -, hactive, hwaiting, hlog, hclosed⟩ := p.tickOver_crew tick now
    exact ⟨⟨hclosed.trans hp.closed, hp.dispatcher, hwaiting.trans hp.waiting,
      hactive.trans hp.active⟩, hlog⟩
  | count sweep id' =>
    have hclosed := (Runner.steady_enqueue p.timer.crew.runner id').closed
    exact ⟨⟨hclosed.trans hp.closed, hp.dispatcher, hp.waiting, hp.active⟩, rfl⟩
  | shut => exact ⟨⟨rfl, hp.dispatcher, hp.waiting, hp.active⟩, rfl⟩
  | clear =>
    have hclosed := (Runner.steady_dropLine p.timer.crew.runner).closed
    exact ⟨⟨hclosed.trans hp.closed, hp.dispatcher, hp.waiting, hp.active⟩, rfl⟩
  | _ => exact ⟨⟨hp.closed, hp.dispatcher, hp.waiting, hp.active⟩, rfl⟩

theorem Run.still (h : Run p os q) (hp : p.shift.Still) :
    q.shift.Still ∧ q.timer.crew.log = p.timer.crew.log := by
  induction h with
  | refl => exact ⟨hp, rfl⟩
  | snoc _ hstep ih =>
    obtain ⟨hstill, hlog⟩ := hstep.still ih.1
    exact ⟨hstill, hlog.trans ih.2⟩

theorem Run.outgoing (h : Run p os q) (hid : id < p.roster.jobs.size)
    (hsets : ∀ o ∈ os, (o.call id).sets = false) (houtgoing : p.Outgoing id) : q.Outgoing id := by
  suffices h : id < q.roster.jobs.size ∧ q.Outgoing id from h.2
  induction h with
  | refl => exact ⟨hid, houtgoing⟩
  | snoc _ hstep ih =>
    simp only [List.mem_append, List.mem_singleton] at hsets
    obtain ⟨hid, houtgoing⟩ := ih fun o ho => hsets o (Or.inl ho)
    exact ⟨hstep.lt_size hid,
      hstep.outgoing (Array.getElem?_eq_getElem hid) (hsets _ (Or.inr rfl)) houtgoing⟩

/-- Nothing is added once the line was dropped, and what is to be closed will be. -/
theorem Run.cleared (h : Run p os q) (hp : p.Shutdown) (cleared : p.closer.isCleared = true)
    (hempty : p.Emptied) :
    q.closer.isCleared = true ∧ q.Emptied ∧ q.roster.jobs.size = p.roster.jobs.size ∧
      ∀ id < p.roster.jobs.size, p.Listed id → q.Listed id := by
  induction h with
  | refl => exact ⟨cleared, hempty, rfl, fun _ _ hlisted => hlisted⟩
  | @snoc q r os o hrun hstep ih =>
    obtain ⟨hcleared, hempty', hsize, hlisted⟩ := ih
    have hshutdown := Run.shutdown hrun hp
    refine ⟨hstep.isCleared hcleared, hstep.emptied hshutdown hcleared hempty', ?_, ?_⟩
    · obtain ⟨hsame, -⟩ | ⟨rfl, -⟩ := hstep.size_eq
      · exact hsame.trans hsize
      · cases hstep with
        | create _ _ _ opened =>
          refine absurd (hshutdown.status fun hcloser => ?_) opened
          cases (congrArg Closer.isCleared hcloser).symm.trans hcleared
    · exact fun id hid h => hstep.listed hshutdown (hsize ▸ hid) (hlisted id hid h)

/-! ### A closed timer -/

/-- When a timer has been closed and all runs that the pool had admitted have come to their end, its
queue is empty and no callback is called any more, provided that no job was on its way into the
queue when the line was dropped. Every job is closed, save that a job which had been left to its
last run is closed only if that run had been admitted by then. -/
theorem Run.finished (hstart : Opened p) (hbefore : Run p os s) (hcleared : Step s .cleared t)
    (enlisted : s.adding = []) (hafter : Run t es q) (done : q.closer = .done)
    (waiting : q.timer.crew.waiting = []) (active : q.timer.crew.active = []) :
    q.timer.queue = .empty ∧
    (∀ id < q.roster.jobs.size,
      (.dismissed id ∈ os → s.Outgoing id ∧ ∀ o ∈ es, (o.call id).sets = false) →
        q.roster.isClosed id = true) ∧
    ∀ fs r, Run q fs r → r.timer.crew.log = q.timer.crew.log := by
  have hs := Run.shutdown hbefore hstart.shutdown
  have ht := hcleared.shutdown hs
  have hq := Run.shutdown hafter ht
  obtain ⟨hdropping, hdraining, hadding, hqueue⟩ : s.closer = .dropping ∧ t.closer = .draining ∧
      t.adding = [] ∧ t.timer.queue = s.timer.queue := by
    cases hcleared with
    | clear dropping => exact ⟨dropping, rfl, enlisted, rfl⟩
  obtain ⟨-, hempty, hsize, hlisted⟩ := Run.cleared hafter ht (by rw [hdraining]; rfl)
    ⟨hadding, by rw [hdraining]; nofun⟩
  refine ⟨hempty.queue (by rw [done]; rfl), fun id hid hdismissed => ?_, fun fs r hfs => ?_⟩
  · rw [hsize] at hid
    have hclosed (h : t.Listed id) : q.roster.isClosed id = true := by
      cases hlisted id hid h with
      | closed closed => exact closed
      | queued closer | listed ids closer => cases done.symm.trans closer
    have hold : id < s.roster.jobs.size := hcleared.lt_size_of_ne nofun hid
    obtain hclosed' | hmem | hspot := Run.placed hbefore hstart hold (by rw [hdropping]; rfl)
    · exact hclosed (.closed (hcleared.isClosed hold hclosed'))
    · obtain ⟨houtgoing, hsets⟩ := hdismissed hmem
      have hafter' := hcleared.outgoing (Array.getElem?_eq_getElem hold) rfl houtgoing
      obtain hclosed' | ⟨task, htask, -⟩ | ⟨st, n, -, -, hle⟩ :=
        Run.outgoing hafter hid hsets hafter'
      · exact hclosed'
      · rw [active] at htask
        exact absurd htask List.not_mem_nil
      · rw [waiting] at hle
        exact absurd hle (Nat.not_succ_le_zero n)
    · -- nothing is about to be queued and nothing is visited, so the job is in the queue
      have hticker : s.ticker = .idle := hs.ticker (by rw [hdropping]; rfl)
      have hplaces : 0 < (s.timer.queue.places id).card := by
        rw [spots, enlisted, hticker] at hspot
        simpa [Ticker.hand?] using hspot
      obtain ⟨tick, htick⟩ := Multiset.card_pos_iff_exists_mem.mp hplaces
      exact hclosed (.queued hdraining ⟨_, hqueue ▸ Queue.mem_places.mp htick, rfl⟩)
  · refine (Run.still hfs ⟨?_, ?_, waiting, active⟩).2
    · exact hq.runner.trans (by rw [done]; rfl)
    · exact hq.dispatcher (by rw [done]; rfl)

/-- A timer is closed while its only job is in the queue. -/
theorem finished_queued : ∃ s t q os es, Run lone os s ∧ Step s .cleared t ∧ Run t es q ∧
    q.closer = .done ∧ q.timer.queue = .empty ∧ q.roster.isClosed 0 = true := by
  have hqueued := (Course.single (step_created false)).append (run_queued false)
  obtain ⟨s, t, hshut, hcleared, hadding, hafter⟩ :=
    run_close (p := queued false) rfl nofun rfl rfl rfl rfl
  have hbefore := hqueued.append hshut
  obtain ⟨hqueue, hclosed, -⟩ :=
    Run.finished opened_lone hbefore hcleared hadding hafter rfl rfl rfl
  exact ⟨s, t, _, _, _, hbefore, hcleared, hafter, rfl, hqueue, hclosed 0 (by decide +kernel) nofun⟩

/-- A timer is closed while the last trigger of a job is pending: the trigger is dropped, and nobody
closes the job. -/
theorem left_open : ∃ s t q os es, Run lone os s ∧ Step s .cleared t ∧ s.adding = [] ∧
    Run t es q ∧ q.closer = .done ∧ q.timer.crew.waiting = [] ∧ q.timer.crew.active = [] ∧
      (∀ o ∈ os ++ es, (o.call 0).sets = false) ∧ q.roster.isClosed 0 = false := by
  obtain ⟨s, t, hshut, hcleared, hadding, hafter⟩ :=
    run_close (p := dismissed .plain) rfl nofun rfl rfl rfl rfl
  have hqueued := (Course.single (step_created false)).append (run_queued false)
  have hvisited := ((hqueued.append (run_visiting false)).snoc (step_looked false)).snoc
    (step_capping false)
  have haccepted := hvisited.append (run_accepted .plain)
  have hbefore := (haccepted.append (run_dismissed .plain)).append hshut
  refine ⟨s, t, _, _, _, hbefore, hcleared, hadding, hafter, rfl, ?_, ?_, ?_, ?_⟩
  all_goals decide +kernel

end Plant

end Metronome
