import Metronome.Proofs.Timer.Closing

/-!
# Triggers at the end of a schedule

When the schedule of a job is exhausted, one run is left to the job before its last trigger is
handed over. The budget does not know for which trigger it is: accepted triggers that have not come
to a thread by then are runs too. Whichever of them comes first takes the last unit of the budget
and closes the job when it ends, and all others are dropped.

## Main definitions

* `CallEvent.isCalm` — nobody closes the job or sets its budget, and its calls ask for nothing
* `Plant.unadmitted`, `Plant.outstanding` — the accepted triggers of a job that have not come to the
  pool, and those that have not come to a thread
* `Plant.Handed` — the tick thread will not close the job

## Main results

* `Plant.Run.calls` — a run of the timer is a run of the calls of each job
* `Plant.Run.accounted` — what was accepted was called or is outstanding, as long as nothing limits
  the job and its triggers can be counted
* `Plant.Run.backlog` — one call is made after the budget was lowered, however many are outstanding
-/

namespace Metronome

/-- Nobody closes the job or sets its budget, and its calls ask for nothing. -/
def CallEvent.isCalm : CallEvent → Bool
  | .acted .close | .acted (.setTimes _) | .acted .clearTimes => false
  | .ended _ outcome => outcome == .proceed
  | _ => true

theorem CallEvent.sets_of_isCalm {e : CallEvent} (h : e.isCalm = true) : e.sets = false := by
  cases e with
  | acted action => cases action <;> first | rfl | cases h
  | _ => rfl

/-- A calm event closes the job only if the run has spent the budget. -/
theorem CallEvent.closes_of_isCalm {e : CallEvent} (h : e.isCalm = true)
    (hcloses : e.closes = true) :
    ∃ outcome, e = .ended true outcome := by
  cases e with
  | ended last outcome =>
    obtain rfl : outcome = .proceed := eq_of_beq h
    obtain rfl : last = true := hcloses
    exact ⟨_, rfl⟩
  | acted action =>
    cases action with
    | close | setTimes => cases h
    | _ => exact absurd hcloses (by decide)
  | _ => cases hcloses

/-- The timer closes a job only when it is about to, and sets no budget. -/
def Occasion.isCalm (id : JobId) : Occasion → Bool
  | .worked d => (d.call id).isCalm
  | _ => true

theorem Occasion.sets_of_isCalm {o : Occasion} {id : JobId} (h : o.isCalm id = true) :
    (o.call id).sets = false := by
  cases o with
  | worked d => exact CallEvent.sets_of_isCalm h
  | capped other | retired other =>
    unfold call
    dsimp only
    split <;> rfl
  | _ => rfl

/-- The triggers of a job that were accepted. -/
def Occasion.acceptedCount (id : JobId) (os : List Occasion) : Nat :=
  (os.map event).count (.answered id .queued)

theorem Occasion.acceptedCount_append (id : JobId) (os es : List Occasion) :
    acceptedCount id (os ++ es) = acceptedCount id os + acceptedCount id es := by
  rw [acceptedCount, List.map_append, List.count_append]
  rfl

/-- A claim is made by a run that begins, or inside a call. -/
theorem Occasion.cases_of_claimed {o : Occasion} {id : JobId} {claim : RunClaim}
    (h : o.call id = .claimed claim) :
    o = .worked (.begun id claim) ∨ o = .worked (.called id (.claimed claim)) := by
  cases o with
  | worked d =>
    cases d with
    | begun other claim' | called other e | acted other action =>
      unfold call Deed.call at h
      dsimp only at h
      split at h <;> grind
    | counted | quiet => cases h
  | capped other | retired other =>
    unfold call at h
    dsimp only at h
    split at h <;> cases h
  | _ => cases h

namespace Plant

variable {p q r s t u v : Plant} {id : JobId} {j k : Job} {st : JobState} {o : Occasion}
  {os es fs gs : List Occasion}

/-! ### Calls in the course of time -/

/-- A run of the timer is a run of the calls of each job. -/
theorem Run.calls (h : Run p os q) (hj : p.roster.get? id = some j) :
    ∃ k, q.roster.get? id = some k ∧
      Calls.Run (p.shift.calls id j) (os.map (Occasion.call id)) (q.shift.calls id k) := by
  induction h with
  | refl => exact ⟨j, hj, .refl _⟩
  | snoc _ hstep ih =>
    obtain ⟨k, hk, hrun⟩ := ih
    obtain ⟨l, hl, hcalls⟩ := hstep.calls hk
    refine ⟨l, hl, ?_⟩
    rw [List.map_append]
    exact hrun.snoc hcalls

/-- The calls of a job are those found in the log. -/
theorem Run.callCount (h : Run p os q) (hj : p.roster.get? id = some j) :
    q.shift.callCount id =
      p.shift.callCount id + (CallEvent.grants (os.map (Occasion.call id))).length := by
  induction h with
  | refl => rfl
  | snoc hrun hstep ih =>
    obtain ⟨k, hk, -⟩ := Run.calls hrun hj
    rw [hstep.callCount hk, ih, List.map_append, CallEvent.grants_append, List.length_append,
      Nat.add_assoc]
    rfl

/-! ### Outstanding triggers -/

/-- The accepted triggers of a job that have not come to the pool. -/
def unadmitted (p : Plant) (id : JobId) : Int :=
  (p.roster.state? id).elim 0 (·.pending.toInt) + (decide (p.dispatcher.hand? = some id)).toNat

/-- The accepted triggers of a job that have not come to a thread. -/
def outstanding (p : Plant) (id : JobId) : Int :=
  p.unadmitted id + p.timer.crew.waiting.count id

theorem unadmitted_eq (hst : p.roster.state? id = some st) :
    p.unadmitted id =
      (p.shift.account id st).pending.toInt + (p.shift.account id st).held.toNat := by
  rw [unadmitted, hst]
  rfl

theorem Run.cleared_not_mem (h : Run p os q) (kept : .cleared ∉ os) :
    .cleared ∉ os.map Occasion.event := by
  induction h with
  | refl => exact List.not_mem_nil
  | snoc _ hstep ih =>
    simp only [List.mem_append, List.mem_singleton, not_or] at kept
    rw [List.map_append, List.mem_append]
    rintro (hmem | hmem)
    · exact ih kept.1 hmem
    · exact hstep.event_ne_cleared (Ne.symm kept.2) (List.mem_singleton.mp hmem).symm

/-- The triggers of a regular job come to the pool one by one, as long as they can be counted. -/
theorem Run.unadmitted_eq {n : Int} (h : Run p os q) (hp : p.Orderly)
    (hst : p.roster.state? id = some st) (regular : st.singleton = false)
    (hfits : Account.Fits id (p.shift.account id st) n (os.map Occasion.event))
    (opened : q.roster.isClosed id = false) (kept : .cleared ∉ os) :
    q.unadmitted id + (os.map Occasion.event).count (.admitted id) =
      p.unadmitted id + Occasion.acceptedCount id os := by
  obtain ⟨st', hst', hmoves⟩ := Run.exists_moves h hp hst
  have hopen : st'.isClosed = false := (Roster.isClosed_of_state? hst').symm.trans opened
  rw [Plant.unadmitted_eq hst, Plant.unadmitted_eq hst']
  exact Account.Moves.unadmitted_eq hmoves (hp.accounts id st hst) hfits hopen
    (Run.cleared_not_mem h kept) fun single => absurd single (Bool.eq_false_iff.mp regular)

theorem Run.waiting (h : Run p os q) (id : JobId) :
    q.timer.crew.waiting.count id + (os.map Occasion.event).count (.begun id) =
      p.timer.crew.waiting.count id + (os.map Occasion.event).count (.admitted id) := by
  induction h with
  | refl => rfl
  | @snoc _ _ os o _ hstep ih =>
    have hlast := hstep.waiting id
    rw [List.map_append, List.count_append, List.count_append]
    change _ + (_ + [o.event].count _) = _ + (_ + [o.event].count _)
    omega

/-! ### Before the budget is lowered -/

/-- Nothing limits the runs of the job. -/
def Unlimited (p : Plant) (id : JobId) : Prop :=
  ¬ p.Lasting id ∧ ∃ st, p.roster.state? id = some st ∧ st.singleton = false ∧
    st.budget.remaining = none

/-- It stays so, and every run that asks for it may go ahead. -/
theorem Step.unlimited (h : Step p o q) (hp : p.Orderly) (hsets : (o.call id).sets = false)
    (huncapped : o ≠ .capped id) (hunlimited : p.Unlimited id) :
    q.Unlimited id ∧ ∀ claim, o.call id = .claimed claim → claim = .granted false := by
  obtain ⟨hlasting, st, hst, hregular, hnone⟩ := hunlimited
  obtain ⟨j, hj, rfl⟩ := Option.map_eq_some_iff.mp hst
  obtain ⟨k, hk, htells⟩ := h.tells hj
  obtain ⟨st', hst', hmove⟩ := h.move hp.line hst
  have hclaim (claim : RunClaim) (hcall : o.call id = .claimed claim) : claim = .granted false := by
    rw [htells.claim claim hcall, Budget.claim_of_none hnone]
  refine ⟨⟨fun hlast => ?_, k.state, congrArg (Option.map Job.state) hk, ?_, ?_⟩, hclaim⟩
  · obtain hlast | hcall := htells.origin hlast
    · exact hlasting hlast
    · cases hclaim _ hcall
  · obtain rfl : st' = k.state :=
      Option.some.inj (hst'.symm.trans (congrArg (Option.map Job.state) hk))
    exact hmove.singleton_eq.trans hregular
  · rw [htells.budget]
    obtain ⟨claim, hcall⟩ | ⟨limit, hcall⟩ | ⟨-, -, hkeep⟩ := CallEvent.cases_of_not_sets hsets
    · rw [hcall, CallEvent.budget, Budget.claim_of_none hnone]
      exact hnone
    · exact absurd (h.capped hcall).1 huncapped
    · rw [hkeep]
      exact hnone

/-- A job that does not run itself is called for the triggers that come to a thread. -/
theorem Step.grants_eq (h : Step p o q)
    (hclaims : ∀ claim, o.call id = .claimed claim → claim = .granted false)
    (alone : ∀ claim, o ≠ .worked (.called id (.claimed claim))) :
    (CallEvent.grants [o.call id]).length = [o.event].count (.begun id) := by
  by_cases hbegun : o.event = .begun id
  · obtain ⟨claim, hcall⟩ := h.claimed_of_begun hbegun
    obtain rfl := hclaims claim hcall
    rw [hcall, hbegun, List.count_singleton_self]
    rfl
  · have hnone : ∀ claim, o.call id ≠ .claimed claim := fun claim hcall => by
      obtain rfl | rfl := Occasion.cases_of_claimed hcall
      · exact hbegun rfl
      · exact alone claim rfl
    rw [CallEvent.grants_of_not_claim hnone, List.count_eq_zero.mpr fun hmem =>
      hbegun (List.mem_singleton.mp hmem).symm]
    rfl

/-- As long as nothing limits a job, it is called for every trigger that comes to a thread. -/
theorem Run.unlimited (h : Run p es q) (hp : p.Orderly) (hunlimited : p.Unlimited id)
    (hsets : ∀ o ∈ es, (o.call id).sets = false) (huncapped : .capped id ∉ es)
    (alone : ∀ claim, .worked (.called id (.claimed claim)) ∉ es) :
    q.Unlimited id ∧ q.shift.callCount id =
      p.shift.callCount id + (es.map Occasion.event).count (.begun id) := by
  induction h with
  | refl => exact ⟨hunlimited, rfl⟩
  | @snoc q r es o hrun hstep ih =>
    simp only [List.mem_append, List.mem_singleton, not_or] at hsets huncapped alone
    obtain ⟨hbefore, heq⟩ :=
      ih (fun o ho => hsets o (Or.inl ho)) huncapped.1 fun claim => (alone claim).1
    obtain ⟨hafter, hclaims⟩ := hstep.unlimited (Run.orderly hrun hp) (hsets o (Or.inr rfl))
      (Ne.symm huncapped.2) hbefore
    have hgrants := hstep.grants_eq hclaims fun claim => Ne.symm (alone claim).2
    obtain ⟨-, st, hst, -, -⟩ := hbefore
    obtain ⟨j, hj, rfl⟩ := Option.map_eq_some_iff.mp hst
    refine ⟨hafter, ?_⟩
    rw [hstep.callCount hj, heq, hgrants, List.map_append, List.count_append, Nat.add_assoc]
    rfl

/-- As long as nothing limits a regular job and its triggers can be counted, what was accepted was
called or is outstanding. -/
theorem Run.accounted {n : Int} (h : Run p es q) (hp : p.Orderly)
    (hst : p.roster.state? id = some st)
    (hfits : Account.Fits id (p.shift.account id st) n (es.map Occasion.event))
    (hunlimited : p.Unlimited id)
    (hsets : ∀ o ∈ es, (o.call id).sets = false) (huncapped : .capped id ∉ es)
    (alone : ∀ claim, .worked (.called id (.claimed claim)) ∉ es) (kept : .cleared ∉ es)
    (opened : q.roster.isClosed id = false) :
    q.outstanding id + q.shift.callCount id =
      p.outstanding id + p.shift.callCount id + Occasion.acceptedCount id es := by
  have hcalls := (Run.unlimited h hp hunlimited hsets huncapped alone).2
  have hwaiting := Run.waiting h id
  obtain ⟨-, st', hst', regular, -⟩ := hunlimited
  obtain rfl : st' = st := Option.some.inj (hst'.symm.trans hst)
  have hunadmitted := Run.unadmitted_eq h hp hst regular hfits opened kept
  rw [outstanding, outstanding]
  omega

/-! ### After the budget was lowered -/

/-- The tick thread does not close the job: the job is closed, or it is about to be handed over, or
it was handed over and has no place any more. -/
inductive Handed (p : Plant) (id : JobId) : Prop
  | closed (closed : p.roster.isClosed id = true)
  | offering (sweep : Sweep) (advance : Advance) (exhausted : advance.exhausted = true)
      (ticker : p.ticker = .busy sweep (.offering id advance) ∨
        p.ticker = .busy sweep (.counting id advance))
  | settling (sweep : Sweep) (advance : Advance) (exhausted : advance.exhausted = true)
      (ticker : p.ticker = .busy sweep (.settling id advance true))
  | gone (nowhere : p.spots id = 0)

/-- An open runner turns away triggers of closed jobs only. -/
theorem Step.isClosed_of_refused (h : Step p o q) (ho : o = .offered id .refused)
    (opened : p.timer.crew.runner.closed = false) : p.roster.isClosed id = true := by
  have hturned (hturned : p.timer.crew.runner.turnsAway id = true) :
      p.roster.isClosed id = true := by
    rwa [Runner.turnsAway, opened, Bool.false_or] at hturned
  cases h with
  | turnAway sweep id' advance offering shut =>
    cases ho
    exact hturned shut
  | count sweep id' advance counting checked =>
    obtain ⟨rfl, hanswer⟩ := Occasion.offered.inj ho
    exact hturned ((Shift.Step.enqueue p.shift id' checked).turnsAway_of_refused
      (congrArg (Event.answered id') hanswer))
  | _ => cases ho

theorem Step.spots_of_dismissed (h : Step p o q) (ho : o = .dismissed id) (hp : p.Orderly) :
    q.spots id = 0 := by
  cases h with
  | dismiss sweep id' advance settling =>
    cases ho
    have hle := hp.spots id
    have hself : p.ticker.hand? = some id := by rw [settling]; rfl
    rw [spots, if_pos hself] at hle
    exact Nat.le_zero.mp (Nat.le_of_succ_le_succ hle)
  | _ => cases ho

/-- A job without a place gets none. -/
theorem Step.spots_of_nowhere (h : Step p o q) (hp : p.Orderly) (hid : id < p.roster.jobs.size)
    (nowhere : p.spots id = 0) : q.spots id = 0 := by
  obtain ⟨gone, heq, -⟩ := h.passes hp.queue id
  have hold : o ≠ .created id := by
    rintro rfl
    obtain ⟨-, hno⟩ | ⟨hnew, -⟩ := h.size_eq
    · exact hno id rfl
    · exact absurd (Occasion.created.inj hnew) (Nat.ne_of_lt hid)
  rw [nowhere, if_neg hold] at heq
  exact Nat.eq_zero_of_add_eq_zero_right heq

theorem Step.handed (h : Step p o q) (hp : p.Orderly) (hid : id < p.roster.jobs.size)
    (opened : p.timer.crew.runner.closed = false) (hhanded : p.Handed id) : q.Handed id := by
  have hgoes := h.goes
  generalize hq : q.ticker = t at hgoes
  cases hhanded with
  | closed closed => exact .closed (h.isClosed hid closed)
  | offering sweep advance exhausted ticker =>
    obtain ticker | ticker := ticker
    · rw [ticker] at hgoes
      cases hgoes with
      | stay => exact .offering sweep advance exhausted (Or.inl hq)
      | turnAway => exact .closed (h.isClosed hid (h.isClosed_of_refused rfl opened))
      | check => exact .offering sweep advance exhausted (Or.inr hq)
    · rw [ticker] at hgoes
      cases hgoes with
      | stay => exact .offering sweep advance exhausted (Or.inr hq)
      | count _ _ _ answer =>
        cases answer with
        | refused => exact .closed (h.isClosed hid (h.isClosed_of_refused rfl opened))
        | queued | coalesced => exact .settling sweep advance exhausted hq
  | settling sweep advance exhausted ticker =>
    rw [ticker] at hgoes
    cases hgoes with
    | stay => exact .settling sweep advance exhausted hq
    | requeue _ _ _ _ live => exact absurd (live.symm.trans exhausted) (by decide)
    | dismiss => exact .gone (h.spots_of_dismissed rfl hp)
  | gone nowhere => exact .gone (h.spots_of_nowhere hp hid nowhere)

/-- The job whose budget is lowered is visited, and it is handed over next. -/
theorem Step.ticker_of_capped (h : Step p o q) (ho : o = .capped id) :
    ∃ sweep advance, p.ticker = .busy sweep (.capping id advance) ∧
      q.ticker = .busy sweep (.offering id advance) := by
  cases h with
  | cap sweep id' advance capping =>
    cases ho
    exact ⟨sweep, advance, capping, rfl⟩
  | _ => cases ho

/-- The budget is lowered for an exhausted schedule only. -/
theorem Reachable.exhausted_of_capping (h : Reachable p) {sweep : Sweep} {advance : Advance}
    (hcapping : p.ticker = .busy sweep (.capping id advance)) : advance.exhausted = true := by
  obtain ⟨start, os, hopened, hrun⟩ := h
  have hstart (sweep : Sweep) (id : JobId) (advance : Advance)
      (hcapping : start.ticker = .busy sweep (.capping id advance)) : advance.exhausted = true := by
    cases hopened.ticker.symm.trans hcapping
  refine hrun.preserves (P := fun q => ∀ sweep id advance,
    q.ticker = .busy sweep (.capping id advance) → advance.exhausted = true)
    ?_ hstart _ _ _ hcapping
  intro q o r hstep hq sweep id advance hcapping
  have hgoes := hstep.goes
  rw [hcapping] at hgoes
  generalize hticker : q.ticker = ticker at hgoes
  cases hgoes with
  | stay => exact hq sweep id advance hticker
  | begin _ nothing => cases nothing
  | capNext _ _ _ exhausted => exact exhausted

/-- A job is left one run once at most: it is not visited any more. -/
theorem Run.handed (h : Run p es q) (hp : Reachable p) (hid : id < p.roster.jobs.size)
    (absent : q.closer = .absent) (hcapped : .capped id ∈ es) : q.Handed id := by
  induction h with
  | refl => exact absurd hcapped List.not_mem_nil
  | @snoc q r es o hrun hstep ih =>
    have hq := hp.run hrun
    have habsent := (hstep.absent absent).1
    have hopened : q.timer.crew.runner.closed = false := hq.shutdown.opened habsent
    by_cases ho : o = .capped id
    · obtain ⟨sweep, advance, hbefore, hafter⟩ := hstep.ticker_of_capped ho
      exact .offering sweep advance (hq.exhausted_of_capping hbefore) (Or.inl hafter)
    · obtain hmem | hmem := List.mem_append.mp hcapped
      · exact hstep.handed hq.orderly (Run.lt_size hrun hid) hopened (ih habsent hmem)
      · exact absurd (List.mem_singleton.mp hmem).symm ho

/-- A job that was left its last run is not left another one while it is open. -/
theorem Run.uncapped (h : Run p es q) (hp : Reachable p) (hid : id < p.roster.jobs.size)
    (absent : q.closer = .absent) (hcapped : Step q (.capped id) r)
    (opened : q.roster.isClosed id = false) : .capped id ∉ es := by
  intro hmem
  obtain ⟨sweep, advance, hticker, -⟩ := hcapped.ticker_of_capped rfl
  cases Run.handed h hp hid absent hmem with
  | closed closed => exact absurd (opened.symm.trans closed) (by decide)
  | offering _ _ _ ticker => obtain ticker | ticker := ticker <;> cases hticker.symm.trans ticker
  | settling _ _ _ ticker => cases hticker.symm.trans ticker
  | gone nowhere =>
    have hself : q.ticker.hand? = some id := by rw [hticker]; rfl
    rw [spots, if_pos hself] at nowhere
    cases nowhere

/-- The tick thread closes no job that it has handed over. -/
theorem Step.isClosed_of_retired (h : Step p o q) (ho : o = .retired id) (hhanded : p.Handed id)
    (absent : p.closer = .absent) : p.roster.isClosed id = true := by
  cases h with
  | retire sweep id' advance settling =>
    cases ho
    cases hhanded with
    | closed closed => exact closed
    | offering _ _ _ ticker => obtain ticker | ticker := ticker <;> cases settling.symm.trans ticker
    | settling _ _ _ ticker => cases settling.symm.trans ticker
    | gone nowhere =>
      have hself : p.ticker.hand? = some id := by rw [settling]; rfl
      rw [spots, if_pos hself] at nowhere
      cases nowhere
  | closeJob _ _ closing => cases absent.symm.trans closing
  | _ => cases ho

/-- Only the run that has spent the budget closes the job. -/
theorem Step.last_of_closed (h : Step p o q) (hj : p.roster.get? id = some j)
    (hhanded : p.Handed id) (absent : p.closer = .absent)
    (calm : o.isCalm id = true)
    (hlast : q.roster.isClosed id = true ∨ q.Lasting id) :
    (p.roster.isClosed id = true ∨ p.Lasting id) ∨ o.call id = .claimed (.granted true) := by
  obtain ⟨k, hk, htells⟩ := h.tells hj
  rw [Roster.isClosed_of_get? hj]
  rw [Roster.isClosed_of_get? hk, htells.closed, Bool.or_eq_true] at hlast
  obtain (hclosed | hcloses) | hlasting := hlast
  · exact Or.inl (Or.inl hclosed)
  · left
    cases o with
    | worked d =>
      obtain ⟨outcome, hended⟩ := CallEvent.closes_of_isCalm calm hcloses
      exact Or.inr (htells.ended outcome hended)
    | retired other =>
      by_cases hid : other = id
      · subst hid
        exact Or.inl ((Roster.isClosed_of_get? hj).symm.trans
          (h.isClosed_of_retired rfl hhanded absent))
      · rw [Occasion.call, if_neg hid] at hcloses
        cases hcloses
    | capped other =>
      unfold Occasion.call at hcloses
      dsimp only at hcloses
      split at hcloses <;> cases hcloses
    | _ => cases hcloses
  · exact (htells.origin hlasting).imp_left Or.inr

/-- A job that is closed in the end was called since the budget was lowered. -/
theorem Run.grants_pos (h : Run p os q) (hp : Reachable p) (hid : id < p.roster.jobs.size)
    (hhanded : p.Handed id) (absent : q.closer = .absent)
    (calm : ∀ o ∈ os, o.isCalm id = true)
    (opened : p.roster.isClosed id = false) (unspent : ¬ p.Lasting id) :
    q.Handed id ∧ (q.roster.isClosed id = true ∨ q.Lasting id →
      0 < (CallEvent.grants (os.map (Occasion.call id))).length) := by
  induction h with
  | refl =>
    refine ⟨hhanded, fun hlast => ?_⟩
    obtain hclosed | hlasting := hlast
    · exact absurd (opened.symm.trans hclosed) (by decide)
    · exact absurd hlasting unspent
  | @snoc q r os o hrun hstep ih =>
    simp only [List.mem_append, List.mem_singleton] at calm
    have hq := hp.run hrun
    have habsent := (hstep.absent absent).1
    have hopened : q.timer.crew.runner.closed = false := hq.shutdown.opened habsent
    have hid' := Run.lt_size hrun hid
    obtain ⟨hhanded', hgrants⟩ := ih habsent fun o ho => calm o (Or.inl ho)
    refine ⟨hstep.handed hq.orderly hid' hopened hhanded', fun hlast => ?_⟩
    rw [List.map_append, CallEvent.grants_append, List.length_append]
    obtain hbefore | hcall := hstep.last_of_closed (Array.getElem?_eq_getElem hid') hhanded' habsent
      (calm o (Or.inr rfl)) hlast
    · have hpos := hgrants hbefore
      omega
    · rw [show List.map (Occasion.call id) [o] = [o.call id] from rfl, hcall]
      exact Nat.lt_of_lt_of_le Nat.one_pos (Nat.le_add_left _ _)

/-- A job that has just been created was not triggered. -/
theorem Step.new_of_created (h : Step p (.created id) q) (hp : p.Orderly)
    (hst : q.roster.state? id = some st) :
    q.shift.account id st = .untouched st.singleton st.isClosed ∧ q.outstanding id = 0 ∧
      q.shift.callCount id = 0 ∧ ¬ q.Lasting id := by
  have hid : p.roster.jobs.size ≤ id := by
    obtain ⟨-, hno⟩ | ⟨hcreated, -⟩ := h.size_eq
    · exact absurd rfl (hno id)
    · exact Nat.le_of_eq (Occasion.created.inj hcreated).symm
  have hnew := h.account_eq hp hid hst
  have hwaiting : q.timer.crew.waiting.count id = 0 :=
    Nat.eq_zero_of_add_eq_zero_right (congrArg Account.flying hnew)
  refine ⟨hnew, ?_, ?_, ?_⟩
  · rw [outstanding, unadmitted_eq hst, hnew, hwaiting]
    rfl
  all_goals
    cases h with
    | create options now job opened made => ?_
  · exact hp.manned.callCount_eq hid
  · rintro ⟨task, htask, hself, -⟩
    exact absurd (hp.manned.active task htask) (hself ▸ Nat.lt_irrefl _)

/-- A job without a limit that is left one run is called once more, and closed. -/
theorem Run.called_once (hp : Reachable p) (hunlimited : p.Unlimited id)
    (opened : p.roster.isClosed id = false) (hcapped : Step p (.capped id) q) (hrun : Run q os r)
    (calm : ∀ o ∈ os, o.isCalm id = true) (absent : r.closer = .absent)
    (rests : r.Rests id) :
    r.roster.isClosed id = true ∧ r.shift.callCount id = p.shift.callCount id + 1 := by
  have hq := hp.run (.single hcapped)
  have hself : Occasion.call id (.capped id) = .capped 1 := if_pos rfl
  have hsets (o : Occasion) (ho : o ∈ os) : (o.call id).sets = false :=
    Occasion.sets_of_isCalm (calm o ho)
  obtain ⟨hunlasting, st, hst, -, hnone⟩ := hunlimited
  obtain ⟨j, hj, rfl⟩ := Option.map_eq_some_iff.mp hst
  obtain ⟨sweep, advance, hcapping, hoffering⟩ := hcapped.ticker_of_capped rfl
  have hexhausted := hp.exhausted_of_capping hcapping
  -- the job is closed in the end
  have hclosed : r.roster.isClosed id = true := by
    have hbefore : Ending True p id j :=
      .deciding sweep advance hexhausted (Or.inr hcapping) fun _ => Or.inr (hnone ▸ nofun)
    obtain ⟨k, hk, hending⟩ := hcapped.ending hp.orderly hj hbefore (by rw [hself]; rfl) nofun
      fun _ _ => trivial
    obtain ⟨l, hl, hending⟩ := Run.ending hrun hq.orderly hk hending hsets
      (Run.absent hrun absent).2 fun _ _ => trivial
    exact (Roster.isClosed_of_get? hl).trans
      (hending.closed_of_rests (Run.orderly hrun hq.orderly) rests)
  -- by its last run, for which one unit was left
  obtain ⟨k, hk, htells⟩ := hcapped.tells hj
  rw [hself] at htells
  have hlasting : ¬ q.Lasting id := fun hlasting => by
    obtain hlasting | hcall := htells.origin hlasting
    · exact hunlasting hlasting
    · cases hcall
  have hopened : q.roster.isClosed id = false := by
    rw [Roster.isClosed_of_get? hk, htells.closed, ← Roster.isClosed_of_get? hj, opened]
    rfl
  have hpos := (Run.grants_pos hrun hq (Array.getElem?_eq_some_iff.mp hk).1
    (.offering sweep advance hexhausted (Or.inl hoffering)) absent calm hopened hlasting).2
    (Or.inl hclosed)
  obtain ⟨l, hl, hcalls⟩ := Run.calls hrun hk
  have hone : k.state.budget.AtMost 1 := htells.budget ▸ Budget.atMost_cap j.state.budget 1
  have hle := (Calls.Run.atMost hcalls (List.forall_mem_map.mpr hsets) hone).1
  have hcount := Run.callCount hrun hk
  have hcount' := hcapped.callCount hj
  rw [hself] at hcount'
  refine ⟨hclosed, ?_⟩
  rw [hcount, hcount', Nat.le_antisymm hle hpos]
  rfl

/-- When the schedule of a regular job without a limit is exhausted, the job is called once more,
however many accepted triggers have not come to a thread by then. So of the triggers that were
accepted, up to the last one of the timer, all but one are lost of those that were outstanding when
the budget was lowered or have been accepted since, if the counter of the job can tell how many
were outstanding. -/
theorem Run.backlog {answer : Submission} (hp : Reachable p) (hcreated : Step p (.created id) q)
    (hst : q.roster.state? id = some st) (regular : st.singleton = false)
    (unlimited : st.budget.remaining = none) (hbefore : Run q es r)
    (hcapped : Step r (.capped id) s) (hafter : Run s fs t)
    (hoffered : Step t (.offered id answer) u) (hrest : Run u gs v)
    (opened : r.roster.isClosed id = false)
    (calm : ∀ o ∈ es ++ fs ++ gs, o.isCalm id = true)
    (alone : ∀ claim, .worked (.called id (.claimed claim)) ∉ es) (absent : v.closer = .absent)
    (rests : v.Rests id) :
    v.roster.isClosed id = true ∧
    v.shift.callCount id = r.shift.callCount id + 1 ∧
    (Event.Within id (es.map Occasion.event) →
      (Occasion.acceptedCount id (es ++ .capped id :: fs ++ [.offered id answer]) : Int) + 1 =
        v.shift.callCount id +
          (r.outstanding id + Occasion.acceptedCount id (fs ++ [.offered id answer]))) := by
  have hq := hp.run (.single hcreated)
  have hid : id < q.roster.jobs.size := Roster.exists_state?_iff.mp ⟨st, hst⟩
  have hrun := (hafter.snoc hoffered).append hrest
  have habsent := (hcapped.absent (Run.absent hrun absent).1).1
  obtain ⟨hnew, houtstanding, hcalls, hlasting⟩ := hcreated.new_of_created hp.orderly hst
  have hstart : q.Unlimited id := ⟨hlasting, st, hst, regular, unlimited⟩
  have hsets (o : Occasion) (ho : o ∈ es) : (o.call id).sets = false :=
    Occasion.sets_of_isCalm (calm o (by simp [ho]))
  have huncapped := Run.uncapped hbefore hq hid habsent hcapped opened
  -- the only call since the budget was lowered
  have hcalm (o : Occasion) (ho : o ∈ fs ++ [.offered id answer] ++ gs) : o.isCalm id = true := by
    simp only [List.mem_append, List.mem_singleton] at ho
    obtain (ho | rfl) | ho := ho
    · exact calm o (by simp [ho])
    · rfl
    · exact calm o (by simp [ho])
  have hunlimited := (Run.unlimited hbefore hq.orderly hstart hsets huncapped alone).1
  obtain ⟨hclosed, hcalled⟩ :=
    Run.called_once (hq.run hbefore) hunlimited opened hcapped hrun hcalm absent rests
  refine ⟨hclosed, hcalled, fun hwithin => ?_⟩
  -- and what was accepted before
  have hfits : Account.Fits id (q.shift.account id st) 0 (es.map Occasion.event) :=
    hnew ▸ Account.fits_untouched (Or.inr hwithin)
  have haccounted := Run.accounted hbefore hq.orderly hst hfits hstart hsets huncapped alone
    (Run.absent hbefore habsent).2 opened
  rw [houtstanding, hcalls] at haccounted
  have hsplit : Occasion.acceptedCount id (es ++ .capped id :: fs ++ [.offered id answer]) =
      Occasion.acceptedCount id es + Occasion.acceptedCount id (fs ++ [.offered id answer]) := by
    rw [List.append_assoc, Occasion.acceptedCount_append, List.cons_append]
    rfl
  rw [hsplit, hcalled]
  omega

/-- The line after the last run: the job in it is closed and dropped. -/
def dropped : Shift :=
  { (served .backlog).withRunner (served .backlog).runner.pop.2 with dispatcher := .idle }

theorem run_dropped : Run ((dismissed .backlog).withShift (served .backlog))
    [.worked .quiet, .worked (.counted (.dropped 0))] ((dismissed .backlog).withShift dropped) := by
  have hlook : Shift.Does (served .backlog) .quiet { served .backlog with dispatcher := .ready } :=
    .rest (.look (served .backlog) rfl (by decide +kernel) (by decide +kernel)) rfl rfl rfl rfl rfl
  have hpop := Shift.Step.pop { served .backlog with dispatcher := .ready } rfl
  rw [show (served .backlog).runner.pop.1 = .dropped 0 by decide +kernel] at hpop
  exact run_work _ ((Course.single hlook).snoc (.count hpop rfl)) rfl

/-- Two triggers are pending when the last one is accepted: one call is made for the three. -/
theorem backlog_lost : ∃ r s t u v es fs gs, Run (created false) es r ∧ Step r (.capped 0) s ∧
    Run s fs t ∧ Step t (.offered 0 .queued) u ∧ Run u gs v ∧ v.roster.isClosed 0 = true ∧
      Occasion.acceptedCount 0 (es ++ .capped 0 :: fs ++ [.offered 0 .queued]) = 3 ∧
      r.outstanding 0 = 2 ∧ v.shift.callCount 0 = 1 := by
  have htriggered : Run (capping false)
      [.worked .quiet, .worked (.counted (.answered 0 .queued)),
        .worked .quiet, .worked (.counted (.answered 0 .queued))]
      (trigger (trigger (capping false))) :=
    (run_trigger (capping false) 0 rfl).append (run_trigger (trigger (capping false)) 0 rfl)
  have hbefore := ((((run_queued false).append (run_visiting false)).snoc (step_looked false)).snoc
    (step_capping false)).append htriggered
  have hrest := ((run_dismissed .backlog).append (run_served .backlog)).append run_dropped
  have hrests : ((dismissed .backlog).withShift dropped).Rests 0 := by
    constructor <;> decide +kernel
  have hlone : Reachable lone := ⟨_, _, opened_lone, .refl lone⟩
  obtain ⟨hclosed, hcalls, hcount⟩ := Run.backlog hlone (step_created false) rfl rfl rfl hbefore
    (step_capped .backlog) (Course.single (step_counting .backlog)) (step_offered .backlog) hrest
    (by decide +kernel) (by decide) (by simp) rfl hrests
  have hone : ((dismissed .backlog).withShift dropped).shift.callCount 0 = 1 :=
    hcalls.trans (by decide +kernel)
  have hlost : ((3 : Nat) : Int) + 1 = _ + (Eve.backlog.plant.outstanding 0 + ((1 : Nat) : Int)) :=
    hcount (Event.within_of_length (by decide))
  rw [hone] at hlost
  have houtstanding : Eve.backlog.plant.outstanding 0 = 2 := by omega
  exact ⟨_, _, _, _, _, _, _, _, hbefore, step_capped .backlog, .single (step_counting .backlog),
    step_offered .backlog, hrest, hclosed, by decide, houtstanding, hone⟩

end Plant

end Metronome
