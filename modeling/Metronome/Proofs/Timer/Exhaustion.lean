import Metronome.Proofs.Timer.Places

/-!
# The end of a job

When the schedule of a job is exhausted, the job leaves the queue. If it is handed to the runner for
the last time, one run is left to it, and that run closes the job when it ends; otherwise the timer
closes it. Between these two steps of the tick thread the budget may be spent by runs for earlier
triggers, which then close the job. If there was nothing left of the budget before, and no run is
about to close the job, the last trigger is accepted and nobody closes the job. That is so only if
the budget was set to nothing: a run that spends the last unit closes the job.

## Main definitions

* `Plant.Awaited` — an accepted trigger of a job has not come to a thread
* `Plant.Live` — the budget is not spent, or the run that has spent it will close the job
* `Plant.Rests` — the runner, the pool and the tick thread are done with a job
* `Plant.Ending` — how far the end of a job has come

## Main results

* `Plant.Run.live` — a budget that was not spent is spent by a run that will close the job
* `Plant.Run.ending` — nothing prevents the end of a job
* `Plant.Run.exhausted_closed` — a job whose schedule was exhausted is closed in the end
-/

namespace Metronome

/-! ### What is left of a budget -/

/-- A budget that is set to something is not spent. -/
theorem CallEvent.budget_of_sets {e : CallEvent} (hsets : e.sets = true)
    (hzero : e ≠ .acted (.setTimes 0)) (b : Budget) : (e.budget b).remaining ≠ some 0 := by
  cases e with
  | acted action =>
    cases action with
    | setTimes n =>
      have hn : n ≠ 0 := fun h => hzero (h ▸ rfl)
      simp only [CallEvent.budget, Budget.ofTimes, Budget.maxRuns, Option.map_some, ne_eq,
        Option.some.injEq]
      omega
    | clearTimes => exact nofun
    | _ => cases hsets
  | _ => cases hsets

namespace CallEvent.Tells

variable {e : CallEvent} {j k : Job} {lasting lasting' : Prop}

theorem lasts_of_open (h : e.Tells j lasting k lasting') (hopen : k.isClosed = false)
    (hlasting : lasting) : lasting' :=
  (h.lasts hlasting).resolve_right
    (Bool.eq_false_iff.mp (Bool.or_eq_false_iff.mp (h.closed.symm.trans hopen)).2)

/-- A budget that is not set to nothing is spent by the last claim only. -/
theorem live (h : e.Tells j lasting k lasting') (hzero : e ≠ .acted (.setTimes 0))
    (hcaps : ∀ limit, e = .capped limit → 1 ≤ limit)
    (hlive : lasting ∨ j.state.budget.remaining ≠ some 0) :
    k.isClosed = true ∨ lasting' ∨ k.state.budget.remaining ≠ some 0 := by
  obtain hlasting | hsome := hlive
  · rw [h.closed, Bool.or_eq_true]
    exact (h.lasts hlasting).elim (fun h => Or.inr (Or.inl h)) fun h => Or.inl (Or.inr h)
  right
  cases hsets : e.sets with
  | true => exact Or.inr (h.budget ▸ CallEvent.budget_of_sets hsets hzero _)
  | false =>
    rw [h.budget]
    obtain ⟨claim, rfl⟩ | ⟨limit, rfl⟩ | ⟨-, -, hkeep⟩ := CallEvent.cases_of_not_sets hsets
    · obtain rfl := h.claim claim rfl
      unfold Budget.claim at h
      rw [CallEvent.budget, Budget.claim]
      split
      · next hnone => exact Or.inr hsome
      · next hzero => exact absurd hzero hsome
      · next n hn =>
        rw [hn] at h
        cases n with
        | zero => exact Or.inl (h.spent rfl)
        | succ n => exact Or.inr (by simp)
    · right
      have hlimit := hcaps limit rfl
      rw [CallEvent.budget, Budget.cap]
      split
      · simp only [Budget.maxRuns, ne_eq, Option.some.injEq]
        omega
      · next n hn =>
        have hn' : n ≠ 0 := fun h => hsome (h ▸ hn)
        simp only [Budget.maxRuns, ne_eq, Option.some.injEq]
        omega
    · rw [hkeep]
      exact Or.inr hsome

/-- The last unit of a budget waits for a claim. -/
theorem last_unit (h : e.Tells j lasting k lasting') (hsets : e.sets = false)
    (hcaps : ∀ limit, e = .capped limit → 1 ≤ limit)
    (hone : j.state.budget.remaining = some 1) :
    e = .claimed (.granted true) ∧ lasting' ∧ k.state.budget.remaining = some 0 ∨
      (∀ claim, e ≠ .claimed claim) ∧ k.state.budget.remaining = some 1 := by
  rw [h.budget]
  obtain ⟨claim, rfl⟩ | ⟨limit, rfl⟩ | ⟨hclaim, -, hkeep⟩ := CallEvent.cases_of_not_sets hsets
  · have hclaim : j.state.budget.claim = (.granted true, ⟨some 0⟩) := by
      rw [Budget.claim, hone]
      rfl
    obtain rfl := h.claim claim rfl
    rw [hclaim] at h ⊢
    exact Or.inl ⟨rfl, h.spent rfl, by rw [CallEvent.budget, hclaim]⟩
  · have hlimit := hcaps limit rfl
    refine Or.inr ⟨nofun, ?_⟩
    rw [CallEvent.budget, Budget.cap, hone]
    simp only [Budget.maxRuns, Option.some.injEq]
    omega
  · rw [hkeep]
    exact Or.inr ⟨hclaim, hone⟩

/-- As long as the job is open, neither the last unit nor the run that has taken it is lost. -/
theorem last (h : e.Tells j lasting k lasting') (hsets : e.sets = false)
    (hcaps : ∀ limit, e = .capped limit → 1 ≤ limit) (hopen : k.isClosed = false)
    (hlast : lasting ∨ j.state.budget.remaining = some 1) :
    lasting' ∨ k.state.budget.remaining = some 1 := by
  obtain hlasting | hone := hlast
  · exact Or.inl (h.lasts_of_open hopen hlasting)
  · exact (h.last_unit hsets hcaps hone).imp (fun h => h.2.1) (fun h => h.2)

end CallEvent.Tells

/-- A budget that is not spent is lowered to its last unit. -/
theorem Budget.remaining_cap_one {b : Budget} (h : b.remaining ≠ some 0) :
    (b.cap 1).remaining = some 1 := by
  unfold cap
  split
  · rfl
  · next n hn =>
    have hn' : n ≠ 0 := fun hzero => h (hzero ▸ hn)
    simp only [maxRuns, Option.some.injEq]
    omega

namespace Plant

variable {p q r : Plant} {id : JobId} {j k : Job} {st : JobState} {o : Occasion}
  {os : List Occasion}

/-! ### Outstanding triggers -/

/-- An accepted trigger of a job has not come to a thread. -/
def Awaited (p : Plant) (id : JobId) : Prop :=
  (∃ st, p.roster.state? id = some st ∧ (p.shift.account id st).Waits) ∨
    0 < p.timer.crew.waiting.count id

theorem Step.event_ne_cleared (h : Step p o q) (ho : o ≠ .cleared) : o.event ≠ .cleared := by
  intro hevent
  cases h with
  | work d s does =>
    cases does with
    | count step counts =>
      obtain rfl : _ = Event.cleared := hevent
      cases counts
    | _ => cases hevent
  | clear => exact ho rfl
  | _ => cases hevent

/-- A trigger that was accepted is awaited until it comes to a thread. -/
theorem Step.awaited (h : Step p o q) (hp : p.Orderly) (hopen : q.roster.isClosed id = false)
    (hkept : o ≠ .cleared) (hbegun : o.event ≠ .begun id) (hawaited : p.Awaited id) :
    q.Awaited id := by
  have hwaiting := h.waiting id
  rw [List.count_singleton, if_neg (by simpa using hbegun)] at hwaiting
  obtain ⟨st, hst, hwaits⟩ | hpool := hawaited
  · by_cases hadmitted : o.event = .admitted id
    · rw [hadmitted, List.count_singleton_self] at hwaiting
      exact Or.inr (by omega)
    · obtain ⟨st', hst', hmove⟩ := h.move hp.line hst
      rw [Roster.isClosed_of_state? hst'] at hopen
      exact Or.inl ⟨st', hst', hmove.waits hopen (h.event_ne_cleared hkept) hadmitted hwaits⟩
  · exact Or.inr (by omega)

/-- The runner, the pool and the tick thread are done with a job. -/
structure Rests (p : Plant) (id : JobId) : Prop where
  line : id ∉ p.timer.crew.runner.line.order
  dispatcher : p.dispatcher.hand? ≠ some id
  pool : p.timer.crew.flying id = 0
  ticker : p.ticker.hand? ≠ some id

theorem Rests.not_awaited (h : p.Rests id) (hp : p.Orderly) : ¬ p.Awaited id := by
  rintro (⟨st, hst, hwaits⟩ | hwaiting)
  · have hqueued : (p.shift.account id st).queued = false := decide_eq_false h.line
    have hheld : (p.shift.account id st).held = false := decide_eq_false h.dispatcher
    have hflying : (p.shift.account id st).flying = 0 := h.pool
    obtain hline | hhand | ⟨-, hpending⟩ := hwaits
    · exact Bool.eq_false_iff.mp hqueued hline
    · exact Bool.eq_false_iff.mp hheld hhand
    · -- a trigger that is held back waits for the end of a run
      obtain hline | ⟨-, hone⟩ := (hp.accounts id st hst).placed hpending
      · exact Bool.eq_false_iff.mp hqueued hline
      · rw [Account.underWay, hheld, hflying] at hone
        cases hone
  · exact Nat.ne_of_gt hwaiting (Nat.eq_zero_of_add_eq_zero_right h.pool)

theorem Rests.not_lasting (h : p.Rests id) : ¬ p.Lasting id := by
  rintro ⟨task, htask, rfl, -⟩
  have hactive : (p.timer.crew.active.map Task.id).count task.id = 0 :=
    Nat.eq_zero_of_add_eq_zero_left h.pool
  exact List.count_eq_zero.mp hactive (List.mem_map_of_mem htask)

/-! ### The end of a job -/

/-- The budget of a job is not spent, or the run that has spent it is in progress or has closed the
job. -/
def Live (p : Plant) (id : JobId) : Prop :=
  p.roster.isClosed id = true ∨ p.Lasting id ∨
    ∃ st, p.roster.state? id = some st ∧ st.budget.remaining ≠ some 0

/-- It stays so unless the budget is set to nothing. -/
theorem Step.live (h : Step p o q) (hzero : o.call id ≠ .acted (.setTimes 0))
    (hj : p.roster.get? id = some j) (hlive : p.Live id) : q.Live id := by
  obtain ⟨k, hk, htells⟩ := h.tells hj
  obtain hclosed | hlive := hlive
  · left
    rw [Roster.isClosed_of_get? hk, htells.closed, ← Roster.isClosed_of_get? hj, hclosed]
    rfl
  · have hunspent : p.Lasting id ∨ j.state.budget.remaining ≠ some 0 := by
      refine hlive.imp_right fun ⟨st, hst, hsome⟩ => ?_
      rwa [Option.some.inj ((congrArg (Option.map Job.state) hj).symm.trans hst)]
    obtain hclosed | hrest := htells.live hzero h.one_le_of_capped hunspent
    · exact Or.inl ((Roster.isClosed_of_get? hk).trans hclosed)
    · exact Or.inr (hrest.imp_right fun hsome => ⟨_, congrArg (Option.map Job.state) hk, hsome⟩)

theorem Run.live (h : Run p os q) (hzero : ∀ o ∈ os, o.call id ≠ .acted (.setTimes 0))
    (hj : p.roster.get? id = some j) (hlive : p.Live id) : q.Live id := by
  suffices h : ∃ k, q.roster.get? id = some k ∧ q.Live id from h.choose_spec.2
  induction h with
  | refl => exact ⟨j, hj, hlive⟩
  | snoc _ hstep ih =>
    simp only [List.mem_append, List.mem_singleton] at hzero
    obtain ⟨k, hk, hlive⟩ := ih fun o ho => hzero o (Or.inl ho)
    obtain ⟨l, hl, -⟩ := hstep.calls hk
    exact ⟨l, hl, hstep.live (hzero _ (Or.inr rfl)) hk hlive⟩

/-- How far the end of a job has come whose schedule was exhausted. If the job is offered to the
runner, the run that has spent its budget will close it, and such a run there will be. -/
inductive Ending (offers : Prop) (p : Plant) (id : JobId) (j : Job) : Prop
  | closed (closed : j.isClosed = true)
  | deciding (sweep : Sweep) (advance : Advance) (exhausted : advance.exhausted = true)
      (ticker : p.ticker = .busy sweep (.deciding id advance) ∨
        p.ticker = .busy sweep (.capping id advance))
      (live : offers → p.Lasting id ∨ j.state.budget.remaining ≠ some 0)
  | offering (sweep : Sweep) (advance : Advance) (exhausted : advance.exhausted = true)
      (ticker : p.ticker = .busy sweep (.offering id advance) ∨
        p.ticker = .busy sweep (.counting id advance))
      (last : offers → p.Lasting id ∨ j.state.budget.remaining = some 1)
  | settling (sweep : Sweep) (advance : Advance) (exhausted : advance.exhausted = true)
      (ticker : p.ticker = .busy sweep (.settling id advance false))
  | final (last : p.Lasting id ∨ j.state.budget.remaining = some 1 ∧ p.Awaited id)

section

variable {offers : Prop} {sweep : Sweep} {advance : Advance}

theorem Step.ending_of_deciding (h : Step p o q)
    (htells : (o.call id).Tells j (p.Lasting id) k (q.Lasting id)) (hopen : k.isClosed = false)
    (hsets : (o.call id).sets = false) (exhausted : advance.exhausted = true)
    (ticker : p.ticker = .busy sweep (.deciding id advance) ∨
      p.ticker = .busy sweep (.capping id advance))
    (live : offers → p.Lasting id ∨ j.state.budget.remaining ≠ some 0) : Ending offers q id k := by
  have hzero : o.call id ≠ .acted (.setTimes 0) := fun h => by rw [h] at hsets; cases hsets
  have hlive (hoffers : offers) : q.Lasting id ∨ k.state.budget.remaining ≠ some 0 :=
    (htells.live hzero h.one_le_of_capped (live hoffers)).resolve_left (Bool.eq_false_iff.mp hopen)
  have hgoes := h.goes
  generalize hq : q.ticker = t at hgoes
  obtain ticker | ticker := ticker
  · rw [ticker] at hgoes
    cases hgoes with
    | stay => exact .deciding sweep advance exhausted (Or.inl hq) hlive
    | capNext => exact .deciding sweep advance exhausted (Or.inr hq) hlive
    | offerNext _ _ _ hopened => exact absurd (hopened.symm.trans exhausted) (by decide)
    | withhold => exact .settling sweep advance exhausted hq
  · rw [ticker] at hgoes
    cases hgoes with
    | stay => exact .deciding sweep advance exhausted (Or.inr hq) hlive
    | cap =>
      refine .offering sweep advance exhausted (Or.inl hq) fun hoffers => ?_
      refine (live hoffers).imp (htells.lasts_of_open hopen) fun hsome => ?_
      rw [htells.budget, Occasion.call, if_pos rfl, CallEvent.budget]
      exact Budget.remaining_cap_one hsome

theorem Step.ending_of_offering (h : Step p o q) (hp : p.Orderly)
    (hj : p.roster.get? id = some j)
    (htells : (o.call id).Tells j (p.Lasting id) k (q.Lasting id)) (hopen : k.isClosed = false)
    (hsets : (o.call id).sets = false) (exhausted : advance.exhausted = true)
    (ticker : p.ticker = .busy sweep (.offering id advance) ∨
      p.ticker = .busy sweep (.counting id advance))
    (last : offers → p.Lasting id ∨ j.state.budget.remaining = some 1)
    (hoffers : ∀ answer, o = .offered id answer → offers) : Ending offers q id k := by
  have hlast (hoffers : offers) : q.Lasting id ∨ k.state.budget.remaining = some 1 :=
    htells.last hsets h.one_le_of_capped hopen (last hoffers)
  have hgoes := h.goes
  generalize hq : q.ticker = t at hgoes
  obtain ticker | ticker := ticker
  · rw [ticker] at hgoes
    cases hgoes with
    | stay => exact .offering sweep advance exhausted (Or.inl hq) hlast
    | turnAway => exact .settling sweep advance exhausted hq
    | check => exact .offering sweep advance exhausted (Or.inr hq) hlast
  · rw [ticker] at hgoes
    cases hgoes with
    | stay => exact .offering sweep advance exhausted (Or.inr hq) hlast
    | count _ _ _ answer =>
      by_cases hanswer : answer = .refused
      · rw [hanswer] at hq
        exact .settling sweep advance exhausted hq
      · -- the trigger was accepted, and is awaited now
        refine .final ((hlast (hoffers answer rfl)).imp_right fun hone => ⟨hone, Or.inl ?_⟩)
        have hst : p.roster.state? id = some j.state := congrArg (Option.map Job.state) hj
        obtain ⟨st', hst', hmove⟩ := h.move hp.line hst
        exact ⟨st', hst', hmove.waits_of_accepted (hp.accounts id _ hst) rfl hanswer⟩

theorem Step.ending_of_final (h : Step p o q) (hp : p.Orderly) (hk : q.roster.get? id = some k)
    (htells : (o.call id).Tells j (p.Lasting id) k (q.Lasting id)) (hopen : k.isClosed = false)
    (hsets : (o.call id).sets = false) (hkept : o ≠ .cleared)
    (last : p.Lasting id ∨ j.state.budget.remaining = some 1 ∧ p.Awaited id) :
    Ending offers q id k := by
  obtain hlasting | ⟨hone, hawaited⟩ := last
  · exact .final (Or.inl (htells.lasts_of_open hopen hlasting))
  obtain ⟨-, hlasting, -⟩ | ⟨hclaim, hone⟩ := htells.last_unit hsets h.one_le_of_capped hone
  · exact .final (Or.inl hlasting)
  · -- without a claim no run has begun, so the trigger is still awaited
    have hafter : q.roster.isClosed id = false := (Roster.isClosed_of_get? hk).trans hopen
    refine .final (Or.inr ⟨hone, h.awaited hp hafter hkept ?_ hawaited⟩)
    intro hbegun
    obtain ⟨claim, hcall⟩ := h.claimed_of_begun hbegun
    exact hclaim claim hcall

/-- No step prevents the end of a job. -/
theorem Step.ending (h : Step p o q) (hp : p.Orderly) (hj : p.roster.get? id = some j)
    (hending : Ending offers p id j) (hsets : (o.call id).sets = false) (hkept : o ≠ .cleared)
    (hoffers : ∀ answer, o = .offered id answer → offers) :
    ∃ k, q.roster.get? id = some k ∧ Ending offers q id k := by
  obtain ⟨k, hk, htells⟩ := h.tells hj
  refine ⟨k, hk, ?_⟩
  cases hopen : k.isClosed with
  | true => exact .closed hopen
  | false =>
    obtain ⟨hbefore, hcloses⟩ := Bool.or_eq_false_iff.mp (htells.closed.symm.trans hopen)
    cases hending with
    | closed hclosed => exact absurd (hbefore.symm.trans hclosed) (by decide)
    | deciding sweep advance exhausted ticker live =>
      exact h.ending_of_deciding htells hopen hsets exhausted ticker live
    | offering sweep advance exhausted ticker last =>
      exact h.ending_of_offering hp hj htells hopen hsets exhausted ticker last hoffers
    | settling sweep advance exhausted ticker =>
      have hgoes := h.goes
      generalize hq : q.ticker = t at hgoes
      rw [ticker] at hgoes
      cases hgoes with
      | stay => exact .settling sweep advance exhausted hq
      | requeue _ _ _ _ hlive => exact absurd (hlive.symm.trans exhausted) (by decide)
      | retire =>
        rw [Occasion.call, if_pos rfl] at hcloses
        cases hcloses
    | final last => exact h.ending_of_final hp hk htells hopen hsets hkept last

end

theorem Run.ending {offers : Prop} (h : Run p os q) (hp : p.Orderly)
    (hj : p.roster.get? id = some j) (hending : Ending offers p id j)
    (unset : ∀ o ∈ os, (o.call id).sets = false) (kept : .cleared ∉ os)
    (hoffers : ∀ answer, .offered id answer ∈ os → offers) :
    ∃ k, q.roster.get? id = some k ∧ Ending offers q id k := by
  induction h with
  | refl => exact ⟨j, hj, hending⟩
  | @snoc _ _ os o hrun hstep ih =>
    simp only [List.mem_append, List.mem_singleton] at unset kept hoffers
    obtain ⟨k, hk, hend⟩ := ih (fun o ho => unset o (Or.inl ho)) (fun h => kept (Or.inl h))
      fun answer ho => hoffers answer (Or.inl ho)
    exact hstep.ending (Run.orderly hrun hp) hk hend (unset o (Or.inr rfl))
      (fun ho => kept (Or.inr ho.symm)) fun answer ho => hoffers answer (Or.inr ho.symm)

/-- The tick thread has looked at a schedule that is exhausted. -/
theorem Step.ending_of_looked {advance : Advance} {offers : Prop}
    (h : Step p (.looked id advance) q) (exhausted : advance.exhausted = true)
    (live : offers → p.Live id) : ∃ k, q.roster.get? id = some k ∧ Ending offers q id k := by
  cases h with
  | look sweep _ j looking found =>
    obtain ⟨k, hk, htells⟩ := (Step.look p sweep id j looking found).tells found
    refine ⟨k, hk, ?_⟩
    cases hclosed : k.isClosed with
    | true => exact .closed hclosed
    | false =>
      refine .deciding sweep _ exhausted (Or.inl rfl) fun hoffers => ?_
      have hopen := (Bool.or_eq_false_iff.mp (htells.closed.symm.trans hclosed)).1
      have hlive : p.Lasting id ∨ j.state.budget.remaining ≠ some 0 := by
        obtain hclosed | hlasting | ⟨st, hst, hsome⟩ := live hoffers
        · exact absurd ((Roster.isClosed_of_get? found).symm.trans hclosed)
            (Bool.eq_false_iff.mp hopen)
        · exact Or.inl hlasting
        · obtain rfl : j.state = st :=
            Option.some.inj ((congrArg (Option.map Job.state) found).symm.trans hst)
          exact Or.inr hsome
      exact (htells.live nofun nofun hlive).resolve_left (Bool.eq_false_iff.mp hclosed)

/-- When everyone is done with a job, its end has come. -/
theorem Ending.closed_of_rests {offers : Prop} (h : Ending offers p id j) (hp : p.Orderly)
    (rests : p.Rests id) : j.isClosed = true := by
  have hbusy {sweep : Sweep} {stage : Stage} (ticker : p.ticker = .busy sweep stage)
      (hand : stage.hand? = some id) : False := rests.ticker (by rw [ticker]; exact hand)
  cases h with
  | closed closed => exact closed
  | deciding sweep advance _ ticker =>
    exact (ticker.elim (hbusy · rfl) (hbusy · rfl)).elim
  | offering sweep advance _ ticker =>
    exact (ticker.elim (hbusy · rfl) (hbusy · rfl)).elim
  | settling sweep advance _ ticker => exact (hbusy ticker rfl).elim
  | final last =>
    obtain hlasting | ⟨-, hawaited⟩ := last
    · exact absurd hlasting rests.not_lasting
    · exact absurd hawaited (rests.not_awaited hp)

/-- The line is dropped by a timer that someone has closed. -/
theorem Step.absent (h : Step p o q) (absent : q.closer = .absent) :
    p.closer = .absent ∧ o ≠ .cleared := by
  cases h with
  | clear | close | shut | drain | closeJob | finish => cases absent
  | _ => exact ⟨absent, nofun⟩

theorem Run.absent (h : Run p os q) (absent : q.closer = .absent) :
    p.closer = .absent ∧ .cleared ∉ os := by
  induction h with
  | refl => exact ⟨absent, List.not_mem_nil⟩
  | snoc _ hstep ih =>
    obtain ⟨hbefore, ho⟩ := hstep.absent absent
    obtain ⟨hstart, hkept⟩ := ih hbefore
    exact ⟨hstart, by simp [hkept, ho.symm]⟩

/-- A job whose schedule was exhausted is closed in the end: by its last run if the job was handed
to the runner, and by the timer otherwise. If it was handed over, its budget must not have been
spent before by a run that has ended without closing the job. -/
theorem Run.exhausted_closed {advance : Advance} (hp : Reachable p)
    (hlook : Step p (.looked id advance) q) (exhausted : advance.exhausted = true)
    (hrun : Run q os r) (unset : ∀ o ∈ os, (o.call id).sets = false) (absent : r.closer = .absent)
    (rests : r.Rests id) (live : (∃ answer, .offered id answer ∈ os) → p.Live id) :
    r.roster.isClosed id = true := by
  have horderly := hlook.orderly hp.orderly
  obtain ⟨j, hj, hstart⟩ := hlook.ending_of_looked exhausted live
  obtain ⟨k, hk, hend⟩ := Run.ending hrun horderly hj hstart unset (Run.absent hrun absent).2
    fun answer ho => ⟨answer, ho⟩
  rw [Roster.isClosed_of_get? hk]
  exact hend.closed_of_rests (Run.orderly hrun horderly) rests

end Plant

/-! ### A job with one occurrence left -/

/-- A job for the last moment, without a limit or with a spent one. -/
def JobOptions.final (spent : Bool) : JobOptions :=
  { spec := .cron "0 0 0 31 12 * 2100"
    callback := some fun _ => {}
    times := if spent then some 0 else none }

def Job.final (spent : Bool) : Job :=
  { name := none
    spec := .cron "0 0 0 31 12 * 2100"
    schedule := .recurrence .final
    callback := fun _ => {}
    state := .new false (if spent then some 0 else none) .ready }

theorem Job.create_final (spent : Bool) :
    create (.final spent) ⟨0, ⟨4133894399900000000⟩, .ofMillis 100, 10⟩ = .ok (final spent) := by
  have hbuild (a : Anchor) : (JobOptions.final spent).spec.build a =
      ScheduleSpec.buildCron a "0 0 0 31 12 * 2100" := by
    rw [JobOptions.final, ScheduleSpec.build]
  rw [create, hbuild, ScheduleSpec.buildCron_final]
  rfl

theorem Job.checkSchedule_final (spent : Bool) :
    ((final spent).checkSchedule 1 (.ofSecs 4133894400)).1 = .final := by
  rw [checkSchedule, final, Schedule.check, Recurrence.check]
  exact Recurrence.probe_final

namespace Plant

/-- A timer with one thread, a tick before the last moment. -/
def lone : Plant :=
  { timer :=
      { config := { workerThreads := 1 }
        crew := { runner := { pool := .new 1 none }, clock := ⟨4133894399900000000⟩ } } }

theorem opened_lone : Opened lone :=
  ⟨rfl, ⟨{ workerThreads := 1 }, 1, ⟨4133894399900000000⟩, rfl⟩, rfl, rfl, rfl⟩

theorem anchor_lone : lone.timer.anchor ⟨4133894399900000000⟩ =
    ⟨0, ⟨4133894399900000000⟩, .ofMillis 100, 10⟩ := by
  have hcap : lone.timer.config.cronRecheckTicks = 10 := by decide +kernel
  rw [Timer.anchor, hcap]
  rfl

/-- The tick of the last moment. -/
def finalSweep : Sweep := ⟨1, .ofSecs 4133894400, true⟩

/-- The job was created. -/
def created (spent : Bool) : Plant :=
  { lone.withRoster (lone.roster.add (.final spent)).2 with adding := [(0, 1)] }

/-- The job is in the queue. -/
def queued (spent : Bool) : Plant :=
  { lone with timer := { lone.timer.withRoster (lone.roster.add (.final spent)).2 with
      queue := lone.timer.queue.push 0 1 } }

/-- The tick has begun. -/
def swept (spent : Bool) : Plant := (queued spent).tickOver 1 (.ofSecs 4133894400)

/-- The job has left the queue. -/
def visiting (spent : Bool) : Plant :=
  { swept spent with
    timer := { (swept spent).timer with queue := .empty }
    ticker := .busy finalSweep (.looking 0) }

/-- The schedule of the job is exhausted. -/
def exhausted (spent : Bool) : Plant :=
  { (visiting spent).withRoster ((visiting spent).roster.update 0 fun j =>
      (j.checkSchedule 1 (.ofSecs 4133894400)).2) with
    ticker := .busy finalSweep (.deciding 0 .final) }

/-- One run is about to be left to the job. -/
def capping (spent : Bool) : Plant :=
  { exhausted spent with ticker := .busy finalSweep (.capping 0 .final) }

/-- Someone triggers the job. -/
def trigger (p : Plant) : Plant :=
  { p with timer := (p.timer.trigger 0).2 }

/-- How the job may stand when its last run is about to be left to it. -/
inductive Eve
  /-- It has no limit, and nobody else has triggered it. -/
  | plain
  /-- Its budget is spent. -/
  | spent
  /-- It has no limit, and two triggers are pending. -/
  | backlog

def Eve.plant : Eve → Plant
  | .plain => capping false
  | .spent => capping true
  | .backlog => trigger (trigger (capping false))

/-- What the last run is answered when it asks for a unit of the budget. -/
def Eve.claim : Eve → RunClaim
  | .spent => .exhausted
  | .plain | .backlog => .granted true

/-- What the job sees when it ends. -/
def Eve.outcome : Eve → CallEvent
  | .spent => .quiet
  | .plain | .backlog => .ended true .proceed

/-- One run is left to the job. -/
def offering (eve : Eve) : Plant :=
  { eve.plant.withRoster (eve.plant.roster.updateState 0 (·.capRuns 1)) with
    ticker := .busy finalSweep (.offering 0 .final) }

/-- The last trigger is not turned away. -/
def counting (eve : Eve) : Plant :=
  { offering eve with checked := [0], ticker := .busy finalSweep (.counting 0 .final) }

/-- The last trigger is accepted. -/
def accepted (eve : Eve) : Plant :=
  { counting eve with
    checked := []
    timer := (counting eve).timer.withRunner ((counting eve).timer.crew.runner.enqueue 0).2
    ticker := .busy finalSweep (.settling 0 .final true) }

/-- The tick is over. -/
def dismissed (eve : Eve) : Plant := { accepted eve with ticker := .idle }

theorem ticker_swept (spent : Bool) : (swept spent).ticker = .busy finalSweep .taking := by
  have hreaped : (queued spent).timer.reaped 1 = { (queued spent).timer with ticks := 1 } := rfl
  have hdue : ¬ (1 : Tick) < (lone.timer.queue.push 0 1).nextPriority := by decide +kernel
  rw [swept, tickOver, hreaped]
  exact (if_neg hdue :
    (if (1 : Tick) < (lone.timer.queue.push 0 1).nextPriority then Ticker.idle
      else .busy finalSweep .taking) = _)

theorem step_created (spent : Bool) : Step lone (.created 0) (created spent) :=
  .create lone (.final spent) ⟨4133894399900000000⟩ (.final spent) nofun
    (anchor_lone ▸ Job.create_final spent)

theorem run_queued (spent : Bool) : Run (created spent) [.quiet] (queued spent) :=
  .single (.enlist (created spent) [] 0 1 [] rfl)

theorem run_visiting (spent : Bool) : Run (queued spent) [.quiet, .quiet] (visiting spent) := by
  have hnext : (1 : Tick).val = (0 : Tick).val + 1 := by decide +kernel
  have hdue : (lone.timer.queue.push 0 1).popDue 1 = some (⟨0, 1⟩, .empty) := by decide +kernel
  have htick := Step.tick (queued spent) 1 (.ofSecs 4133894400) rfl (Or.inl rfl) hnext
  exact (Course.single htick).snoc
    (.take (swept spent) finalSweep ⟨0, 1⟩ .empty (ticker_swept spent) hdue)

theorem reachable_visiting (spent : Bool) : Reachable (visiting spent) :=
  ⟨_, _, opened_lone,
    (Course.single (step_created spent)).append ((run_queued spent).append (run_visiting spent))⟩

theorem step_looked (spent : Bool) :
    Step (visiting spent) (.looked 0 .final) (exhausted spent) := by
  have hstep := Step.look (visiting spent) finalSweep 0 (.final spent) rfl rfl
  have hadvance : ((Job.final spent).checkSchedule finalSweep.tick finalSweep.now).1 = .final :=
    Job.checkSchedule_final spent
  rw [hadvance] at hstep
  exact hstep

theorem step_capping (spent : Bool) : Step (exhausted spent) .quiet (capping spent) := by
  have hfires : (exhausted spent).fires finalSweep 0 .final = true := rfl
  have hstep := Step.decide (exhausted spent) finalSweep 0 .final rfl
  rw [decided, if_pos hfires] at hstep
  exact hstep

theorem step_capped (eve : Eve) : Step eve.plant (.capped 0) (offering eve) := by
  cases eve <;> exact .cap _ finalSweep 0 .final rfl

theorem step_counting (eve : Eve) : Step (offering eve) .quiet (counting eve) := by
  cases eve <;> exact .check _ finalSweep 0 .final rfl rfl

theorem step_offered (eve : Eve) : Step (counting eve) (.offered 0 .queued) (accepted eve) := by
  cases eve <;> exact .count _ finalSweep 0 .final rfl List.mem_cons_self

theorem run_accepted (eve : Eve) :
    Run eve.plant [.capped 0, .quiet, .offered 0 .queued] (accepted eve) :=
  ((Course.single (step_capped eve)).snoc (step_counting eve)).snoc (step_offered eve)

theorem run_dismissed (eve : Eve) : Run (accepted eve) [.dismissed 0, .quiet] (dismissed eve) := by
  have hqueue : (accepted eve).timer.queue = .empty := by cases eve <;> rfl
  have hnone : (Queue.empty : Queue JobId).popDue 1 = none := by decide +kernel
  exact (Course.single (.dismiss (accepted eve) finalSweep 0 .final rfl rfl)).snoc
    (.rest { accepted eve with ticker := .busy finalSweep .taking } finalSweep rfl (hqueue ▸ hnone))

/-! ### The last run -/

/-- The pool has room. -/
def ready (eve : Eve) : Shift := { (dismissed eve).shift with dispatcher := .ready }

/-- The job was taken from the line. -/
def taken (eve : Eve) : Shift :=
  { (ready eve).withRunner (ready eve).runner.pop.2 with dispatcher := .holding 0 }

/-- The run was admitted by the pool. -/
def admitted (eve : Eve) : Shift :=
  { taken eve with
    dispatcher := .idle
    crew := { (taken eve).crew with
      runner := (taken eve).runner.grant { Pool.new 1 none with inFlight := 1, waiting := 1 }
      waiting := (taken eve).crew.waiting ++ [0] } }

/-- The run has a thread. -/
def begun (eve : Eve) : Shift :=
  { admitted eve with crew := (admitted eve).crew.startTask [] 0 [] }

def Eve.task (eve : Eve) : Task := ((begun eve).crew.active[0]?).getD ⟨0, { clock := default }⟩

/-- The run has come to its end. -/
def moved (eve : Eve) : Shift :=
  { begun eve with crew := (begun eve).crew.moveTask [] eve.task [] 1 }

def Eve.result (eve : Eve) : Task := ((begun eve).crew.runTask eve.task fun x j => x.proceed j 1).1

/-- The run is completed. -/
def served (eve : Eve) : Shift :=
  { moved eve with
    leaving := (moved eve).leaving ++ [eve.result.execution.escaped.isSome]
    crew := { (moved eve).crew with
      runner := (moved eve).runner.complete eve.result.id
      active := [] } }

/-- What is seen of the crew when the run takes place, with a unit of the budget or without one. -/
def Eve.deeds (eve : Eve) : List Deed :=
  [.quiet, .counted (.taken 0), .counted (.admitted 0), .begun 0 eve.claim, .called 0 eve.outcome,
    .counted (.completed 0)]

/-- What is seen from the moment when the last run is left to the job until it is completed. -/
def Eve.occasions (eve : Eve) : List Occasion :=
  [.capped 0, .quiet, .offered 0 .queued, .dismissed 0, .quiet] ++ eve.deeds.map .worked

/-- The crew takes the run from the line and brings it to its end. -/
theorem run_served (eve : Eve) : Run (dismissed eve) (eve.deeds.map .worked)
    ((dismissed eve).withShift (served eve)) := by
  have hlook : Shift.Does (dismissed eve).shift .quiet (ready eve) := by
    have hroom : (dismissed eve).shift.runner.pool.freeSlots ≠ 0 := by cases eve <;> decide +kernel
    have hidle : (dismissed eve).shift.dispatcher = .idle := by cases eve <;> rfl
    have hopen : (dismissed eve).shift.runner.closed = false := by cases eve <;> rfl
    exact .rest (.look _ hidle hroom hopen) rfl rfl rfl rfl rfl
  have hpop : Shift.Does (ready eve) (.counted (.taken 0)) (taken eve) := by
    have htaken : (ready eve).runner.pop.1 = .taken 0 := by cases eve <;> decide +kernel
    have hstep := Shift.Step.pop (ready eve) rfl
    rw [htaken] at hstep
    exact .count hstep rfl
  have hgrant : Shift.Does (taken eve) (.counted (.admitted 0)) (admitted eve) := by
    have hpool : (taken eve).runner.pool = .new 1 none := by cases eve <;> decide +kernel
    exact .count (.grant (taken eve) 0 _ rfl (by rw [hpool]; rfl)) rfl
  have hbegin : Shift.Does (admitted eve) (.begun 0 eve.claim) (begun eve) := by
    have hclaim : (admitted eve).claimOf 0 = eve.claim := by cases eve <;> decide +kernel
    have hwaiting : (admitted eve).crew.waiting = [] ++ 0 :: [] := by cases eve <;> decide +kernel
    have hfree : (admitted eve).crew.active.length + (admitted eve).leaving.length <
        (admitted eve).runner.pool.threads := by
      cases eve <;> decide +kernel
    exact hclaim ▸ .begin (admitted eve) [] 0 [] hwaiting hfree
  have hmove : Shift.Does (begun eve) (.called 0 eve.outcome) (moved eve) := by
    have hcall : (begun eve).callOf eve.task = eve.outcome := by cases eve <;> decide +kernel
    have hid : eve.task.id = 0 := by cases eve <;> decide +kernel
    exact hcall ▸ hid ▸ .move (begun eve) [] eve.task [] (by cases eve <;> rfl)
  have hcomplete : Shift.Does (moved eve) (.counted (.completed 0)) (served eve) := by
    have hactive : (moved eve).crew.active = [] ++ eve.result :: [] :=
      Crew.active_moveTask (begun eve).crew [] eve.task [] 1
    have hover : eve.result.execution.isOver = true := by cases eve <;> decide +kernel
    have hid : eve.result.id = 0 := by cases eve <;> decide +kernel
    exact hid ▸ .count (.complete (moved eve) [] eve.result [] hactive hover) rfl
  exact run_work (dismissed eve) ((((((Course.single hlook).snoc hpop).snoc hgrant).snoc
    hbegin).snoc hmove).snoc hcomplete) rfl

theorem run_eve (eve : Eve) :
    Run eve.plant eve.occasions ((dismissed eve).withShift (served eve)) :=
  (run_accepted eve).append ((run_dismissed eve).append (run_served eve))

/-- The last run of a job closes it. -/
theorem exhausted_closed_final : ∃ q r os, Step (visiting false) (.looked 0 .final) q ∧
    Run q os r ∧ r.Rests 0 ∧ r.roster.isClosed 0 = true := by
  have hrun := (Course.single (step_capping false)).append (run_eve .plain)
  have hrests : ((dismissed .plain).withShift (served .plain)).Rests 0 := by
    constructor <;> decide +kernel
  have hlive : (visiting false).Live 0 := Or.inr (Or.inr ⟨_, rfl, nofun⟩)
  exact ⟨_, _, _, step_looked false, hrun, hrests, Run.exhausted_closed (reachable_visiting false)
    (step_looked false) rfl hrun (by decide) rfl hrests fun _ => hlive⟩

/-- A job that may not run at all is not closed by its last trigger, nor by anyone else. -/
theorem exhausted_open_final : ∃ q r os, Reachable (visiting true) ∧
    Step (visiting true) (.looked 0 .final) q ∧ Run q os r ∧ (∀ o ∈ os, (o.call 0).sets = false) ∧
      r.closer = .absent ∧ r.Rests 0 ∧ r.roster.isClosed 0 = false := by
  have hrun := (Course.single (step_capping true)).append (run_eve .spent)
  have hrests : ((dismissed .spent).withShift (served .spent)).Rests 0 := by
    constructor <;> decide +kernel
  exact ⟨_, _, _, reachable_visiting true, step_looked true, hrun, by decide, rfl, hrests,
    by decide +kernel⟩

end Plant

end Metronome
