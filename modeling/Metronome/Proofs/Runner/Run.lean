import Metronome.Proofs.Runner.Projection

/-!
# Runs of a shift

No step adds a job or reopens a runner, and the dispatch thread has nothing in hand but what stood
in line. Together with the moves of the accounts, this is what is known of every run.

## Main definitions

* `Roster.Ages` — what may become of jobs between two looks at their schedules
* `Runner.Steady` — what all operations leave alone
* `Event.isAdmitted`, `Event.isCoalesced` — what the statistics count
* `Shift.Retired` — the runner is closed, and its dispatch thread has come to its end
* `Shift.Known` — the line and the hand hold jobs of the roster

## Main results

* `Shift.Run.moves` — every run is a course of moves for each job
* `Shift.Reachable.sound` — every account is sound in every state that a runner can come to
* `Shift.Run.not_cleared` — the line of a runner that is not closed is never dropped
-/

namespace Metronome

/-! ### Jobs grow old -/

namespace Roster

variable {r r' r'' : Roster} {id : JobId}

/-- The schedule of a job. -/
def schedule? (r : Roster) (id : JobId) : Option Schedule := (r.get? id).map Job.schedule

theorem state?_eq_none_iff : r.state? id = none ↔ r.jobs.size ≤ id := by
  rw [state?, get?, Option.map_eq_none_iff, Array.getElem?_eq_none_iff]

theorem exists_state?_iff : (∃ st, r.state? id = some st) ↔ id < r.jobs.size := by
  rw [← Option.isSome_iff_exists, ← Option.ne_none_iff_isSome, Ne, state?_eq_none_iff, Nat.not_le]

/-- The jobs are the same and have the same schedules, and the closed ones are still closed. -/
structure Ages (r r' : Roster) : Prop where
  size : r'.jobs.size = r.jobs.size
  schedule : ∀ id, r'.schedule? id = r.schedule? id
  closed : ∀ id, r.isClosed id = true → r'.isClosed id = true

theorem Ages.refl (r : Roster) : Ages r r := ⟨rfl, fun _ => rfl, fun _ h => h⟩

theorem Ages.trans (h : Ages r r') (h' : Ages r' r'') : Ages r r'' :=
  ⟨h'.size.trans h.size, fun id => (h'.schedule id).trans (h.schedule id),
    fun id hid => h'.closed id (h.closed id hid)⟩

theorem size_update (r : Roster) (id : JobId) (f : Job → Job) :
    (r.update id f).jobs.size = r.jobs.size := by
  unfold update updateWith
  split
  · next h => exact Array.size_set h
  · rfl

theorem ages_update {f : Job → Job} (hschedule : ∀ j, (f j).schedule = j.schedule)
    (hclosed : ∀ j : Job, j.isClosed = true → (f j).isClosed = true) (r : Roster) (id : JobId) :
    Ages r (r.update id f) := by
  refine ⟨size_update r id f, fun other => ?_, fun other hother => ?_⟩
  · rw [schedule?, get?_update]
    split
    · rw [Option.map_map]
      exact congrArg (Option.map · _) (funext hschedule)
    · rfl
  · rw [isClosed] at hother ⊢
    rw [get?_update]
    split
    · cases hj : r.get? other with
      | none => rfl
      | some j =>
        rw [hj] at hother
        exact hclosed j hother
    · exact hother

theorem ages_of_keeps {f : Job → Job} (hf : ∀ j : Job, j.Keeps (f j)) (r : Roster) (id : JobId) :
    Ages r (r.update id f) :=
  ages_update (fun j => (hf j).schedule) (fun j => (hf j).closed) r id

theorem ages_updateState {f : JobState → JobState}
    (hf : ∀ s : JobState, (f s).isClosed = s.isClosed) (r : Roster) (id : JobId) :
    Ages r (r.updateState id f) :=
  ages_update (f := fun j => j.withState f) (fun _ => rfl) (fun j hj => (hf j.state).trans hj) r id

end Roster

namespace Runner

variable {r r' r'' : Runner} {id other : JobId}

/-! ### What all operations leave alone -/

/-- The jobs have but grown older, and the flag and the statistics of the runner are as before. -/
structure Steady (r r' : Runner) : Prop where
  roster : r.roster.Ages r'.roster
  closed : r'.closed = r.closed
  dispatched : r'.dispatched = r.dispatched
  coalesced : r'.coalesced = r.coalesced

theorem Steady.refl (r : Runner) : Steady r r := ⟨.refl _, rfl, rfl, rfl⟩

theorem Steady.trans (h : Steady r r') (h' : Steady r' r'') : Steady r r'' :=
  ⟨h.roster.trans h'.roster, h'.closed.trans h.closed, h'.dispatched.trans h.dispatched,
    h'.coalesced.trans h.coalesced⟩

/-- The counters are not what a job grows old by. -/
theorem steady_updateState (r : Runner) (id : JobId) {f : JobState → JobState}
    (hf : ∀ s : JobState, (f s).isClosed = s.isClosed) : Steady r (r.updateState id f) :=
  ⟨Roster.ages_updateState hf _ _, rfl, rfl, rfl⟩

theorem steady_line (r : Runner) (line : Line) : Steady r { r with line := line } :=
  ⟨.refl _, rfl, rfl, rfl⟩

theorem steady_pushBack (r : Runner) (id : JobId) : Steady r (r.pushBack id) := r.steady_line _

/-- A trigger is counted among the coalesced ones exactly if this is the answer. -/
theorem steady_enqueue (r : Runner) (id : JobId) :
    Steady { r with coalesced := r.coalesced + if (r.enqueue id).1 = .coalesced then 1 else 0 }
      (r.enqueue id).2 := by
  cases hst : r.roster.state? id with
  | none =>
    rw [enqueue_none hst]
    exact .refl r
  | some st =>
    obtain ⟨-, -, heq⟩ | ⟨-, -, -, heq⟩ | ⟨-, heq⟩ := enqueue_cases hst
    · rw [heq]
      exact ⟨.refl _, rfl, rfl, rfl⟩
    · rw [heq]
      exact r.steady_updateState id fun _ => rfl
    · rw [heq]
      exact (r.steady_updateState id (f := (·.addPending 1)) fun _ => rfl).trans
        (steady_pushBack _ id)

theorem steady_pop (r : Runner) : Steady r r.pop.2 := by
  obtain heq | ⟨id, line, -, ⟨-, heq⟩ | ⟨st, -, -, heq⟩⟩ := r.pop_cases
  · rw [heq]
    exact .refl r
  · rw [heq]
    exact (r.steady_line line).trans (steady_updateState _ id fun _ => rfl)
  · have hlaunch : Steady r (r.launch id line) :=
      (r.steady_line line).trans (steady_updateState _ id JobState.isClosed_launch)
    rw [heq]
    dsimp only
    split
    · exact hlaunch.trans (steady_pushBack _ id)
    · exact hlaunch

theorem steady_requeue (r : Runner) (id : JobId) : Steady r (r.requeue id) := by
  have hcount : Steady r (r.updateState id (·.addRunning (-1))) :=
    r.steady_updateState id fun s => s.isClosed_addRunning (-1)
  cases hclosed : r.roster.isClosed id with
  | true =>
    rw [requeue_of_closed hclosed]
    exact hcount.trans (steady_updateState _ id fun _ => rfl)
  | false =>
    rw [requeue_of_open hclosed]
    exact (hcount.trans (steady_updateState _ id JobState.isClosed_restore)).trans (steady_line _ _)

theorem steady_takeBack (r : Runner) (id : JobId) (cause : PoolError) (now : Instant) :
    Steady r (r.takeBack id cause now) := by
  have hback : Steady r { r.requeue id with rejected := (r.requeue id).rejected + 1 } :=
    (r.steady_requeue id).trans ⟨.refl _, rfl, rfl, rfl⟩
  exact hback.trans (steady_updateState _ id fun _ => rfl)

theorem steady_complete (r : Runner) (id : JobId) : Steady r (r.complete id) := by
  have hcount : Steady r (r.updateState id (·.addRunning (-1))) :=
    r.steady_updateState id fun s => s.isClosed_addRunning (-1)
  unfold complete
  dsimp only
  split
  · exact hcount.trans (steady_updateState _ id fun _ => rfl)
  · split
    · exact hcount.trans (steady_pushBack _ id)
    · exact hcount

theorem steady_dropLine (r : Runner) : Steady r r.dropLine := by
  suffices h : ∀ (order : List JobId) (r : Runner),
      Steady r (order.foldl (fun r id => r.updateState id (·.clearPending)) r) from
    (h r.line.order r).trans (steady_line _ _)
  intro order
  induction order with
  | nil => exact .refl
  | cons head order ih =>
    exact fun r => (r.steady_updateState head (f := (·.clearPending)) fun _ => rfl).trans (ih _)

/-! ### Who can be in line -/

theorem mem_line_enqueue (hr : r.line.Sound) (h : other ∈ (r.enqueue id).2.line.order) :
    other ∈ r.line.order ∨ other < r.roster.jobs.size := by
  by_cases hid : id = other
  · subst hid
    cases hst : r.roster.state? id with
    | none =>
      rw [enqueue_none hst] at h
      exact Or.inl h
    | some st => exact Or.inr (Roster.exists_state?_iff.mp ⟨st, hst⟩)
  · exact Or.inl ((alike_enqueue hr hid).line.mp h)

theorem mem_line_pop (hr : r.line.Sound) (h : other ∈ r.pop.2.line.order) :
    other ∈ r.line.order := by
  obtain heq | ⟨head, line, hline, hcases⟩ := r.pop_cases
  · rwa [heq] at h
  · rw [Line.order_of_popFront hline]
    by_cases hid : head = other
    · exact hid ▸ List.mem_cons_self
    · refine List.mem_cons_of_mem _ ?_
      obtain ⟨-, heq⟩ | ⟨st, -, -, heq⟩ := hcases
      · rwa [heq] at h
      · rw [heq] at h
        dsimp only at h
        split at h
        · exact (alike_pushBack (hr.popFront hline) hid).line.mp h
        · exact h

theorem mem_line_complete (hr : r.line.Sound) (h : other ∈ (r.complete id).line.order) :
    other ∈ r.line.order ∨ other < r.roster.jobs.size := by
  by_cases hid : id = other
  · subst hid
    cases hst : r.roster.state? id with
    | none =>
      have hclosed : r.roster.isClosed id = true := by
        rw [Roster.isClosed_eq, hst]
        rfl
      rw [complete_of_closed hclosed] at h
      exact Or.inl h
    | some st => exact Or.inr (Roster.exists_state?_iff.mp ⟨st, hst⟩)
  · exact Or.inl ((alike_complete hr hid).line.mp h)

end Runner

/-- Whether the event is the admission of a run. -/
def Event.isAdmitted : Event → Bool
  | .admitted _ => true
  | _ => false

/-- Whether the event is the coalescing of a trigger. -/
def Event.isCoalesced : Event → Bool
  | .answered _ .coalesced => true
  | _ => false

namespace Shift

variable {s t : Shift} {id : JobId} {st : JobState} {e : Event} {es : List Event}

/-- What the steps do to the jobs at large, to the flag and to the statistics. -/
structure Step.Effect (s : Shift) (e : Event) (t : Shift) : Prop where
  roster : s.runner.roster.Ages t.runner.roster
  closed : s.runner.closed = true → t.runner.closed = true
  dispatched : t.runner.dispatched = s.runner.dispatched + [e].countP Event.isAdmitted
  coalesced : t.runner.coalesced = s.runner.coalesced + [e].countP Event.isCoalesced

/-- Most steps leave all of that alone. -/
theorem Step.Effect.of_steady (h : Runner.Steady s.runner t.runner)
    (hadmitted : e.isAdmitted = false) (hcoalesced : e.isCoalesced = false) : Effect s e t := by
  refine ⟨h.roster, fun hs => h.closed.trans hs, ?_, ?_⟩
  · rw [h.dispatched, List.countP_singleton, hadmitted]
    rfl
  · rw [h.coalesced, List.countP_singleton, hcoalesced]
    rfl

theorem Step.effect (h : Step s e t) : Effect s e t := by
  cases h with
  | turnAway | check | look | refuse | release | leave | tune | pass =>
    exact .of_steady ⟨.refl _, rfl, rfl, rfl⟩ rfl rfl
  | enqueue id' =>
    have hsteady := s.runner.steady_enqueue id'
    refine ⟨hsteady.roster, fun hs => hsteady.closed.trans hs, hsteady.dispatched, ?_⟩
    refine hsteady.coalesced.trans ?_
    cases (s.runner.enqueue id').1 <;> rfl
  | pop =>
    refine .of_steady s.runner.steady_pop ?_ ?_ <;> cases s.runner.pop.1 <;> rfl
  | grant => exact ⟨.refl _, id, rfl, rfl⟩
  | takeBack => exact .of_steady (Runner.steady_takeBack _ _ _ _) rfl rfl
  | begin =>
    refine .of_steady ⟨?_, rfl, rfl, rfl⟩ rfl rfl
    unfold Crew.startTask
    dsimp only [runner]
    rw [Crew.roster_runTask]
    exact Roster.ages_of_keeps (fun j => (Execution.keeps_begin _ j).1) _ _
  | advance =>
    refine .of_steady ⟨?_, rfl, rfl, rfl⟩ rfl rfl
    unfold Crew.moveTask
    dsimp only [runner]
    rw [Crew.roster_runTask]
    exact Roster.ages_of_keeps (fun j => Execution.keeps_proceed _ j _) _ _
  | complete => exact .of_steady (Runner.steady_complete _ _) rfl rfl
  | act id' action =>
    exact .of_steady ⟨Roster.ages_of_keeps (fun j => j.keeps_perform action) _ _, rfl, rfl, rfl⟩
      rfl rfl
  | shut => exact ⟨.refl _, fun _ => rfl, rfl, rfl⟩
  | clear => exact .of_steady ((Runner.steady_dropLine _).trans ⟨.refl _, rfl, rfl, rfl⟩) rfl rfl

theorem Run.size_eq (h : Run s es t) :
    t.runner.roster.jobs.size = s.runner.roster.jobs.size :=
  h.preserves (P := fun u => u.runner.roster.jobs.size = s.runner.roster.jobs.size)
    (fun hstep hu => hstep.effect.roster.size.trans hu) rfl

/-- A closed runner stays closed. -/
theorem Run.closed (h : Run s es t) (hs : s.runner.closed = true) : t.runner.closed = true :=
  h.preserves (P := fun u => u.runner.closed = true) (fun hstep => hstep.effect.closed) hs

theorem Run.dispatched (h : Run s es t) :
    t.runner.dispatched = s.runner.dispatched + es.countP Event.isAdmitted := by
  induction h with
  | refl => rfl
  | snoc _ hstep ih => rw [hstep.effect.dispatched, ih, List.countP_append, Nat.add_assoc]

theorem Run.coalesced (h : Run s es t) :
    t.runner.coalesced = s.runner.coalesced + es.countP Event.isCoalesced := by
  induction h with
  | refl => rfl
  | snoc _ hstep ih => rw [hstep.effect.coalesced, ih, List.countP_append, Nat.add_assoc]

theorem Run.line_sound (h : Run s es t) (hs : s.runner.line.Sound) : t.runner.line.Sound :=
  h.preserves (P := fun u => u.runner.line.Sound) (fun hstep => hstep.line_sound) hs

/-! ### Accounts -/

/-- Every run is a course of moves for each job. -/
theorem Run.exists_moves (h : Run s es t) (hs : s.runner.line.Sound)
    (hst : s.runner.roster.state? id = some st) :
    ∃ st', t.runner.roster.state? id = some st' ∧
      Account.Moves id (s.account id st) es (t.account id st') := by
  induction h with
  | refl => exact ⟨st, hst, .refl _⟩
  | snoc hrun hstep ih =>
    obtain ⟨st₁, hst₁, hmoves⟩ := ih
    obtain ⟨st₂, hst₂, hmove⟩ := hstep.move (Run.line_sound hrun hs) hst₁
    exact ⟨st₂, hst₂, hmoves.snoc hmove⟩

/-- The jobs at the end of a run are those at its beginning. -/
theorem Run.moves {st' : JobState} (h : Run s es t) (hs : s.runner.line.Sound)
    (hst' : t.runner.roster.state? id = some st') :
    ∃ st, s.runner.roster.state? id = some st ∧
      Account.Moves id (s.account id st) es (t.account id st') := by
  have hsize : id < s.runner.roster.jobs.size := by
    rw [← Run.size_eq h]
    exact Roster.exists_state?_iff.mp ⟨st', hst'⟩
  obtain ⟨st, hst⟩ := Roster.exists_state?_iff.mpr hsize
  obtain ⟨st₁, hst₁, hmoves⟩ := Run.exists_moves h hs hst
  obtain rfl : st₁ = st' := Option.some.inj (hst₁.symm.trans hst')
  exact ⟨st, hst, hmoves⟩

theorem Fresh.line_sound (h : Fresh s) : s.runner.line.Sound := by
  rw [h.line]
  exact Line.sound_empty

/-- The account of a job that has not been triggered. -/
theorem Fresh.account_eq (h : Fresh s) (hst : s.runner.roster.state? id = some st) :
    s.account id st = .untouched st.singleton st.isClosed := by
  rw [account, h.pending id st hst, h.running id st hst, h.line, h.dispatcher, Crew.flying,
    h.waiting, h.active]
  rfl

theorem Fresh.sound (h : Fresh s) (hst : s.runner.roster.state? id = some st) :
    (s.account id st).Sound := by
  rw [h.account_eq hst]
  exact Account.sound_untouched _ _

theorem Reachable.line_sound (h : Reachable s) : s.runner.line.Sound := by
  obtain ⟨start, es, hfresh, hrun⟩ := h
  exact Run.line_sound hrun hfresh.line_sound

theorem Fresh.fits (h : Fresh s) (hst : s.runner.roster.state? id = some st)
    (hfits : st.singleton = true ∨ Event.Within id es) :
    Account.Fits id (s.account id st) 0 es := by
  rw [h.account_eq hst]
  exact Account.fits_untouched hfits

/-- As long as the triggers of a job can be counted, none of its counters wraps around. -/
theorem Run.ample (h : Run s es t) (hs : s.Fresh) (hst : t.runner.roster.state? id = some st)
    (hfits : st.singleton = true ∨ Event.Within id es) : (t.account id st).Ample 2147483647 := by
  obtain ⟨st₀, hst₀, hmoves⟩ := Run.moves h hs.line_sound hst
  have hsingle : st.singleton = st₀.singleton := Account.Moves.singleton_eq hmoves
  exact Account.Moves.ample hmoves (hs.sound hst₀) (hs.fits hst₀ (hsingle ▸ hfits))

/-- Every account is sound in every state that a runner can come to. -/
theorem Reachable.sound (h : Reachable s) (hst : s.runner.roster.state? id = some st) :
    (s.account id st).Sound := by
  obtain ⟨start, es, hfresh, hrun⟩ := h
  obtain ⟨st₀, hst₀, hmoves⟩ := Run.moves hrun hfresh.line_sound hst
  exact Account.Moves.sound hmoves (hfresh.sound hst₀)

theorem Reachable.run (h : Reachable s) (hrun : Run s es t) : Reachable t := by
  obtain ⟨start, fs, hfresh, hrun'⟩ := h
  exact ⟨start, fs ++ es, hfresh, hrun'.append hrun⟩

/-! ### The runner as a whole -/

/-- The line is yet to be dropped only while the runner is closed. -/
theorem Step.closing (h : Step s e t) (ht : t.closing = true) :
    s.closing = true ∨ t.runner.closed = true := by
  cases h with
  | shut => exact Or.inr rfl
  | clear => cases ht
  | _ => exact Or.inl ht

theorem Run.closing (h : Run s es t) (hs : s.closing = true → s.runner.closed = true) :
    t.closing = true → t.runner.closed = true :=
  h.preserves (P := fun u => u.closing = true → u.runner.closed = true)
    (fun hstep hu ht => (hstep.closing ht).elim (fun h => hstep.effect.closed (hu h)) (fun h => h))
    hs

/-- The line is dropped when the dispatch thread of the closed runner has come to its end. -/
theorem Step.of_cleared (h : Step s e t) (he : e = .cleared) :
    s.closing = true ∧ s.dispatcher = .idle ∧
      t = { s.withRunner s.runner.clear with closing := false } := by
  cases h with
  | clear closing idle => exact ⟨closing, idle, rfl⟩
  | pop =>
    revert he
    cases s.runner.pop.1 <;> nofun
  | _ => cases he

theorem Step.closing_of_cleared (h : Step s e t) (he : e = .cleared) : s.closing = true :=
  (h.of_cleared he).1

theorem Step.holding_of_admitted (h : Step s e t) (he : e = .admitted id) :
    s.dispatcher = .holding id := by
  cases h with
  | grant id' pool holding =>
    cases he
    exact holding
  | pop =>
    revert he
    cases s.runner.pop.1 <;> nofun
  | _ => cases he

/-- The line of a runner that is not closed is never dropped. -/
theorem Run.not_cleared (h : Run s es t) (hs : s.closing = true → s.runner.closed = true)
    (opened : t.runner.closed = false) : .cleared ∉ es := by
  induction h with
  | refl => exact List.not_mem_nil
  | snoc hrun hstep ih =>
    -- the runner was open before the last step, since it is open after it
    have hopen := Bool.eq_false_iff.mpr fun h =>
      Bool.eq_false_iff.mp opened (hstep.effect.closed h)
    rw [List.mem_append, List.mem_singleton]
    rintro (hmem | he)
    · exact ih hopen hmem
    · have hclosed := Run.closing hrun hs (hstep.closing_of_cleared he.symm)
      exact Bool.eq_false_iff.mp hopen hclosed

theorem Reachable.closing (h : Reachable s) : s.closing = true → s.runner.closed = true := by
  obtain ⟨start, es, hfresh, hrun⟩ := h
  exact Run.closing hrun (by simp [hfresh.closing])

/-- The runner is closed, and its dispatch thread has come to its end. -/
def Retired (s : Shift) : Prop := s.runner.closed = true ∧ s.dispatcher = .idle

/-- Nothing is handed to the pool any more. -/
theorem Step.retired (h : Step s e t) (hs : s.Retired) : t.Retired ∧ ∀ id, e ≠ .admitted id := by
  obtain ⟨hclosed, hidle⟩ := hs
  refine ⟨⟨h.effect.closed hclosed, ?_⟩, fun id he => ?_⟩
  · cases h with
    | look _ _ opened =>
      rw [hclosed] at opened
      cases opened
    | pop ready => cases hidle.symm.trans ready
    | refuse _ _ holding => cases hidle.symm.trans holding
    | grant | takeBack => rfl
    | _ => exact hidle
  · cases hidle.symm.trans (h.holding_of_admitted he)

theorem Step.retired_of_cleared (h : Step s e t) (hs : Reachable s) (he : e = .cleared) :
    t.Retired := by
  obtain ⟨hclosing, hidle, rfl⟩ := h.of_cleared he
  exact ⟨h.effect.closed (hs.closing hclosing), hidle⟩

/-! ### Triggers that are turned away -/

theorem exists_state?_of_open (h : s.runner.turnsAway id = false) :
    s.runner.closed = false ∧ ∃ st, s.runner.roster.state? id = some st ∧ st.isClosed = false := by
  rw [Runner.turnsAway, Bool.or_eq_false_iff, Roster.isClosed_eq] at h
  refine ⟨h.1, ?_⟩
  cases hst : s.runner.roster.state? id with
  | none =>
    rw [hst] at h
    cases h.2
  | some st =>
    rw [hst] at h
    exact ⟨st, rfl, h.2⟩

/-- Neither a runner nor a job opens again. -/
theorem Run.turnsAway_of_end (h : Run s es t) (hs : s.runner.line.Sound)
    (opened : t.runner.turnsAway id = false) : s.runner.turnsAway id = false := by
  obtain ⟨hopen, st', hst', hclosed'⟩ := exists_state?_of_open opened
  obtain ⟨st, hst, hmoves⟩ := Run.moves h hs hst'
  have hrunner : s.runner.closed = false := Bool.eq_false_iff.mpr fun hs =>
    Bool.eq_false_iff.mp hopen (Run.closed h hs)
  have hjob : st.isClosed = false := Bool.eq_false_iff.mpr fun hs =>
    Bool.eq_false_iff.mp hclosed' (Account.Moves.closed hmoves hs)
  rw [Runner.turnsAway, hrunner, Roster.isClosed_of_state? hst, hjob]
  rfl

theorem Step.turnsAway_of_refused (h : Step s e t) (he : e = .answered id .refused) :
    s.runner.turnsAway id = true := by
  cases h with
  | turnAway id' shut =>
    cases he
    exact shut
  | enqueue id' =>
    cases hst : s.runner.roster.state? id' with
    | none =>
      rw [Event.answered.injEq] at he
      rw [← he.1, Runner.turnsAway, Roster.isClosed_eq, hst]
      exact Bool.or_true _
    | some st =>
      obtain ⟨-, -, heq⟩ | ⟨-, -, -, heq⟩ | ⟨-, heq⟩ := Runner.enqueue_cases hst
      all_goals
        rw [heq] at he
        cases he
  | pop =>
    revert he
    cases s.runner.pop.1 <;> nofun
  | _ => cases he

/-- As long as runner and job are open, no trigger is turned away. -/
theorem Run.not_turned_away (h : Run s es t) (hs : s.runner.line.Sound)
    (opened : t.runner.turnsAway id = false) : .answered id .refused ∉ es := by
  induction h with
  | refl => exact List.not_mem_nil
  | snoc hrun hstep ih =>
    -- what is open after the step was open before it, so the step has turned nothing away
    have hopen := Run.turnsAway_of_end (Course.single hstep) (Run.line_sound hrun hs) opened
    rw [List.mem_append, List.mem_singleton]
    rintro (hmem | he)
    · exact ih hopen hmem
    · rw [hstep.turnsAway_of_refused he.symm] at hopen
      cases hopen

/-! ### Jobs of the roster -/

/-- The line and the hand of the dispatch thread hold jobs of the roster. -/
structure Known (s : Shift) : Prop where
  line : ∀ id ∈ s.runner.line.order, id < s.runner.roster.jobs.size
  hand : ∀ id, s.dispatcher.hand? = some id → id < s.runner.roster.jobs.size

theorem Step.known (h : Step s e t) (hsound : s.runner.line.Sound) (hs : s.Known) : t.Known := by
  have hsize := h.effect.roster.size
  constructor
  · intro other hother
    rw [hsize]
    cases h with
    | enqueue id' => exact (Runner.mem_line_enqueue hsound hother).elim (hs.line other) (fun h => h)
    | pop => exact hs.line other (Runner.mem_line_pop hsound hother)
    | takeBack id' cause refused =>
      by_cases hid : id' = other
      · exact hs.hand other (by rw [refused, hid]; rfl)
      · exact hs.line other ((Runner.alike_takeBack hsound hid _ _).line.mp hother)
    | complete => exact (Runner.mem_line_complete hsound hother).elim (hs.line other) (fun h => h)
    | clear => cases hother
    | _ => exact hs.line other hother
  · intro other hother
    rw [hsize]
    cases h with
    | look | grant | takeBack => cases hother
    | pop ready =>
      -- what comes into the hand has been at the head of the line
      refine hs.line other ?_
      obtain heq | ⟨head, line, hline, ⟨-, heq⟩ | ⟨st, -, -, heq⟩⟩ := s.runner.pop_cases
      · rw [heq] at hother
        cases hother
      · rw [heq] at hother
        cases hother
      · rw [heq] at hother
        obtain rfl : head = other := Option.some.inj hother
        rw [Line.order_of_popFront hline]
        exact List.mem_cons_self
    | refuse id' cause holding => exact hs.hand other (by rw [holding]; exact hother)
    | _ => exact hs.hand other hother

/-- Only jobs of the roster are handed to the pool. -/
theorem Run.admitted_lt (h : Run s es t) (hsound : s.runner.line.Sound) (hs : s.Known) :
    t.Known ∧ ∀ id, .admitted id ∈ es → id < s.runner.roster.jobs.size := by
  induction h with
  | refl => exact ⟨hs, fun _ h => absurd h List.not_mem_nil⟩
  | snoc hrun hstep ih =>
    refine ⟨hstep.known (Run.line_sound hrun hsound) ih.1, fun id hid => ?_⟩
    rw [List.mem_append, List.mem_singleton] at hid
    obtain hmem | he := hid
    · exact ih.2 id hmem
    · rw [← Run.size_eq hrun]
      refine ih.1.hand id ?_
      rw [hstep.holding_of_admitted he.symm]
      rfl

theorem Fresh.known (h : Fresh s) : s.Known := by
  constructor
  · rw [h.line]
    exact fun id hid => absurd hid List.not_mem_nil
  · rw [h.dispatcher]
    exact fun id hid => by cases hid

theorem Reachable.known (h : Reachable s) : s.Known := by
  obtain ⟨start, es, hfresh, hrun⟩ := h
  exact (Run.admitted_lt hrun hfresh.line_sound hfresh.known).1

end Shift

end Metronome
