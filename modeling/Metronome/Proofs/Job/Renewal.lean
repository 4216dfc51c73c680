import Metronome.Proofs.Job.Limit

/-!
# Budgets that are set anew

The budget of a job may be replaced at any time, by those who treat the job and also by one of its
own callbacks. From then on so many runs are granted, whatever was left before and whoever is in
the middle of a run, and the last of them closes the job when it ends.

One run does not learn of the change. Whether a run closes the job is decided when it claims its
unit, and acted on when it ends. So a run that had spent the old budget closes the job all the
same, even if it was its own callback that has set the new one.

## Main results

* `Calls.Run.isClosed_eq` — a job is closed by what is seen of the steps
* `Calls.Run.lasting_origin` — where a run that will close the job comes from
* `Calls.Run.renewed` — the claims after the budget was set, and the end of the job
* `Calls.closed_early` — a callback that sets the budget while it spends the old one
-/

namespace Metronome

namespace CallEvent

variable {es : List CallEvent} {claim : RunClaim}

theorem mem_claims : claim ∈ claims es ↔ .claimed claim ∈ es := by
  rw [claims, List.mem_filterMap]
  constructor
  · rintro ⟨e, he, hclaim⟩
    cases e with
    | claimed claim' =>
      cases hclaim
      exact he
    | _ => cases hclaim
  · exact fun h => ⟨_, h, rfl⟩

/-- If nobody closes the job and no call asks for it, then it is closed by a run that has spent the
budget. -/
theorem closes_iff {e : CallEvent} (hclose : e ≠ .acted .close)
    (hexit : ∀ last, e ≠ .ended last .exit) :
    e.closes = true ↔ ∃ outcome, e = .ended true outcome := by
  cases e with
  | acted action =>
    have haction : action ≠ .close := fun h => hclose (congrArg _ h)
    simp [closes, haction]
  | ended last outcome =>
    have houtcome : outcome ≠ .exit := fun h => hexit last (congrArg _ h)
    simp [closes, houtcome]
  | _ => simp [closes]

end CallEvent

namespace Calls

variable {c c' d : Calls} {es : List CallEvent}

open CallEvent

/-- A job is closed if it was, or if one of the steps has closed it. -/
theorem Run.isClosed_eq (h : Run c es d) :
    d.job.isClosed = (c.job.isClosed || es.any closes) := by
  induction h with
  | refl => simp
  | snoc _ hstep ih => rw [hstep.tells.closed, ih, List.any_append, Bool.or_assoc]; simp

/-- A run that has spent the budget has done so on the way, or was in progress before. -/
theorem Run.lasting_origin (h : Run c es d) (hd : d.Lasting) :
    c.Lasting ∨ .claimed (.granted true) ∈ es := by
  induction h with
  | refl => exact Or.inl hd
  | snoc _ hstep ih =>
    obtain hmid | rfl := hstep.tells.origin hd
    · exact (ih hmid).imp_right (List.mem_append_left _)
    · exact Or.inr (by simp)

/-- After the budget was set to some number of runs, exactly so many of the next claims are granted,
and the last one of these knows that it is. The job is closed by the end of a run that has spent a
budget and by nothing else. This is the run of that last claim, or else a run that had spent the old
budget and was in progress when the new one was set. From the last claim on, such a run is in
progress until the job is closed. -/
theorem Run.renewed {n : Nat} (hset : Step c (.acted (.setTimes n)) c')
    (opened : c.job.isClosed = false) (hn : 1 ≤ n) (h : Run c' es d)
    (hsets : ∀ e ∈ es, e.sets = false) (hcaps : ∀ limit, .capped limit ∉ es)
    (hclose : .acted .close ∉ es) (hexit : ∀ last, .ended last .exit ∉ es) :
    claims es =
      (List.range (claims es).length).map (Budget.answer (min n Budget.maxRuns)) ∧
    (d.job.isClosed = true ↔ ∃ outcome, .ended true outcome ∈ es) ∧
    (∀ fs gs outcome, es = fs ++ .ended true outcome :: gs →
      c.Lasting ∨ .claimed (.granted true) ∈ fs) ∧
    (min n Budget.maxRuns ≤ (claims es).length → d.job.isClosed = true ∨ d.Lasting) := by
  have htells := hset.tells
  have hbudget : c'.job.state.budget.remaining = some (min n Budget.maxRuns) := by
    rw [htells.budget]
    rfl
  obtain ⟨-, hclaims⟩ := Run.claims_eq h hsets hcaps hbudget
  refine ⟨hclaims, ?_, ?_, ?_⟩
  · have hopen : c'.job.isClosed = false := by
      rw [htells.closed, opened]
      rfl
    -- setting the budget leaves the job open, and afterwards only the end of a run closes it
    rw [Run.isClosed_eq h, hopen, Bool.false_or, List.any_eq_true]
    constructor
    · rintro ⟨e, he, hcloses⟩
      obtain ⟨outcome, rfl⟩ := (closes_iff (fun heq => hclose (heq ▸ he))
        fun last heq => hexit last (heq ▸ he)).mp hcloses
      exact ⟨outcome, he⟩
    · rintro ⟨outcome, he⟩
      exact ⟨_, he, Bool.or_true _⟩
  · rintro fs gs outcome rfl
    -- the run that ends has spent a budget on the way, or before the new one was set
    obtain ⟨u, v, hbefore, hend, -⟩ := Course.exists_step _ h
    obtain hlasting | hspent := Run.lasting_origin hbefore (hend.tells.ended outcome rfl)
    · exact Or.inl ((htells.origin hlasting).resolve_right nofun)
    · exact Or.inr hspent
  · intro hall
    -- the claim that reaches the limit is among those that were made
    have hpos : 0 < min n Budget.maxRuns := Nat.lt_min.mpr ⟨hn, by decide⟩
    refine Run.closed_or_lasting h (mem_claims.mp ?_)
    rw [hclaims, List.mem_map]
    refine ⟨min n Budget.maxRuns - 1, List.mem_range.mpr (by omega), ?_⟩
    rw [Budget.answer, if_pos (by omega), Nat.sub_add_cancel hpos, beq_self_eq_true]

/-- A job that may run twice is called once, and meanwhile its budget is set to two runs. Two more
claims are granted, a third one is not, and the end of the second of these runs closes the job. -/
theorem renewed_twice : ∃ c c' d, Step c (.acted (.setTimes 2)) c' ∧
    c.job.isClosed = false ∧ c.job.state.budget.remaining = some 1 ∧
    Run c' [.claimed (.granted false), .claimed (.granted true), .claimed .exhausted,
      .ended true .proceed] d ∧ d.job.isClosed = true := by
  obtain ⟨j, d, hj, hall⟩ : ∃ j d, Job.create twice ⟨0, default, .ofMillis 100, 1⟩ = .ok j ∧
      Run { job := j } [.claimed (.granted false), .acted (.setTimes 2), .claimed (.granted false),
        .claimed (.granted true), .claimed .exhausted, .ended true .proceed] d := by
    obtain ⟨j, hj⟩ : ∃ j, Job.create twice ⟨0, default, .ofMillis 100, 1⟩ = .ok j := ⟨_, rfl⟩
    -- the unit that is claimed last goes to the third thread, and its call ends first
    have hrun := (((((Course.single (Step.begin { job := j } default)).snoc
      (Step.act _ (.setTimes 2))).snoc (Step.begin _ default)).snoc (Step.begin _ default)).snoc
      (Step.begin _ default)).snoc (Step.move _ [_, _] _ [_] default rfl)
    cases hj
    exact ⟨_, _, rfl, hrun⟩
  obtain ⟨c, c', hbefore, hset, hafter⟩ := Course.exists_step [_] hall
  have hopen : c.job.isClosed = false := by
    rw [Run.isClosed_eq hbefore]
    cases hj
    rfl
  have hleft : c.job.state.budget.remaining = some 1 := by
    refine (Run.claims_eq (n := 2) hbefore (by decide) (by simp) ?_).1
    cases hj
    rfl
  obtain ⟨-, hclosed, -, -⟩ := Run.renewed hset hopen (by decide) hafter (by decide) (by simp)
    (by simp) (by simp)
  exact ⟨c, c', d, hset, hopen, hleft, hafter, hclosed.mpr ⟨.proceed, by simp⟩⟩

/-- A job that may run once, and whose first call allows it two more runs. -/
def extending : JobOptions :=
  { spec := .every (.ofMillis 100)
    callback := some fun k => if k = 0 then { actions := [.setTimes 2] } else {}
    times := some 1 }

/-- The call of a job that may run once sets the budget to two more runs. When it ends, both of them
are left and none has been claimed, but the job is closed. -/
theorem closed_early : ∃ j c c' d, Job.create extending ⟨0, default, .ofMillis 100, 1⟩ = .ok j ∧
    Run { job := j } [.claimed (.granted true)] c ∧ c.job.isClosed = false ∧
    Step c (.acted (.setTimes 2)) c' ∧ Run c' [.ended true .proceed] d ∧
    d.job.state.budget.remaining = some 2 ∧ d.job.isClosed = true := by
  obtain ⟨j, d, hj, hall, hleft⟩ : ∃ j d,
      Job.create extending ⟨0, default, .ofMillis 100, 1⟩ = .ok j ∧
      Run { job := j } [.claimed (.granted true), .acted (.setTimes 2), .ended true .proceed] d ∧
      d.job.state.budget.remaining = some 2 := by
    obtain ⟨j, hj⟩ : ∃ j, Job.create extending ⟨0, default, .ofMillis 100, 1⟩ = .ok j := ⟨_, rfl⟩
    have hrun := ((Course.single (Step.begin { job := j } default)).snoc
      (Step.move _ [] _ [] default rfl)).snoc (Step.move _ [] _ [] default rfl)
    cases hj
    exact ⟨_, _, rfl, hrun, rfl⟩
  have hnew : j.isClosed = false := by
    cases hj
    rfl
  obtain ⟨c, c', hbegun, hset, hend⟩ := Course.exists_step [_] hall
  have hopen := Run.isClosed_eq hbegun
  rw [hnew] at hopen
  exact ⟨j, c, c', d, hj, hbegun, hopen, hset, hend, hleft,
    Run.closed_of_ended hall (List.mem_of_getLast? rfl)⟩

end Calls

end Metronome
