import Metronome.Proofs.Runner.Bookkeeping
import Metronome.Proofs.Runner.Rounds

/-!
# What a closed runner leaves behind

When a runner is closed, the triggers in line are dropped. Its runs in the pool come to their end,
and with them, one would think, everything that the runner has kept. But a singleton that was
triggered while its run was in the pool does not stand in line: the trigger is held back, and the
end of the run puts the job in line. The line of a closed runner is not dropped a second time, and
nobody takes a job from it, so that such a trigger is pending for good, unless the job is closed
before its run ends.

No other trigger is left behind. What there is at the end is known exactly from the state in which
the line was dropped.

## Main definitions

* `Event.isFinal` — what can be seen of a runner that has been closed
* `Shift.Over` — the runner is closed, its line is dropped, and no trigger is on its way
* `Account.Left` — what becomes of a job from then on

## Main results

* `Account.Moves.left` — the account of a job when only runs come to their end
* `Shift.Reachable.left_behind` — the triggers that a closed runner leaves behind
* `Shift.not_all_dropped` — a singleton that stands in the line of a closed runner for good
-/

namespace Metronome

/-- What can be seen of a runner that has been closed: triggers are turned away, and the runs in the
pool come to their end. -/
def Event.isFinal : Event → Bool
  | .answered _ .refused | .begun _ | .completed _ | .quiet => true
  | _ => false

/-! ### Accounts -/

namespace Account

variable {id : JobId} {a b c : Account} {e : Event} {es : List Event}

/-- What becomes of the account of a job that is not in line and has nothing in hand, when only runs
come to their end. -/
structure Left (a b : Account) : Prop where
  /-- Only a singleton comes into line, with a trigger. -/
  queued : b.queued = true → b.singleton = true ∧ 0 < b.pending
  singleton : b.singleton = a.singleton
  pending : b.pending = a.pending ∨ b.pending = 0
  /-- Triggers are only dropped with a job that is closed. -/
  opened : b.closed = false → b.pending = a.pending
  /-- The end of a run of a closed job drops its triggers. -/
  closed : a.closed = true → b.pending = 0 ∨ b.flying = a.flying

theorem Left.refl (h : a.queued = false) : Left a a where
  queued hqueued := absurd hqueued (by rw [h]; decide)
  singleton := rfl
  pending := Or.inl rfl
  opened _ := rfl
  closed _ := Or.inr rfl

theorem Move.left (h : Move id b e c) (he : e.isFinal = true) (hb : b.Sound) (hab : Left a b)
    (hclosed : a.closed = true → b.closed = true) : Left a c := by
  cases h with
  | other | turnAway | begin => exact hab
  | close => exact { hab with opened := nofun }
  | finishClosed flying closed =>
    refine ⟨fun hqueued => ?_, hab.singleton, Or.inr rfl, fun hopen => ?_, fun _ => Or.inl rfl⟩
    · -- a singleton in line has no run in the pool, so this job is not in line
      have hnone := hb.single_queued (hab.queued hqueued).1 hqueued
      rw [underWay] at hnone
      omega
    · rw [show b.closed = false from hopen] at closed
      cases closed
  | finish flying opened =>
    -- this is how a singleton comes into line, with the trigger that was held back
    refine ⟨fun hqueued => ?_, hab.singleton, hab.pending, hab.opened, fun ha => ?_⟩
    · obtain hbefore | hback := (Bool.or_eq_true _ _).mp hqueued
      · exact hab.queued hbefore
      · rwa [Bool.and_eq_true, decide_eq_true_eq] at hback
    · rw [hclosed ha] at opened
      cases opened
  | _ => cases he

theorem Moves.left (h : Moves id a es b) (hes : ∀ e ∈ es, e.isFinal = true) (ha : a.Sound)
    (hqueued : a.queued = false) : Left a b := by
  induction h with
  | refl => exact .refl hqueued
  | snoc hmoves hmove ih =>
    exact hmove.left (hes _ (by simp)) (Moves.sound hmoves ha)
      (ih fun e he => hes e (List.mem_append_left _ he)) (Moves.closed hmoves)

/-- Only a job in line loses its triggers when the line is dropped. -/
theorem Move.of_cleared (h : Move id a .cleared b) (hqueued : b.queued = false) :
    b = { a with pending := if a.queued then 0 else a.pending, queued := false } := by
  generalize he : Event.cleared = e at h
  cases h with
  | other =>
    rw [if_neg (Bool.eq_false_iff.mp hqueued), ← hqueued]
  | clear queued => rw [if_pos queued]
  | _ => cases he

/-- The triggers that are there when the last run has ended are those that were held back behind
the run of a singleton when the line was dropped. -/
theorem Left.held_back
    (h : Left { a with pending := if a.queued then 0 else a.pending, queued := false } b)
    (ha : a.Sound) (hb : b.Sound) (hand : a.held = false) (hand' : b.held = false)
    (landed : b.flying = 0) :
    b.running = 0 ∧ (b.queued = true ↔ 0 < b.pending) ∧
      (0 < b.pending → b.pending = 1 ∧
        a.singleton = true ∧ a.pending = 1 ∧ a.running = 1 ∧ a.closed = false) ∧
      (b.closed = false → a.singleton = true → a.pending = 1 → a.running = 1 → b.pending = 1) := by
  have hnone : b.underWay = 0 := by rw [underWay, landed, hand', Bool.toNat_false]
  have hrunning : b.running = 0 := by
    rw [hb.running_eq, hnone]
    rfl
  refine ⟨hrunning, ⟨fun hqueued => (h.queued hqueued).2, fun hpending => ?_⟩, fun hpending => ?_,
    fun hopen hsingle hone hbusy => ?_⟩
  · exact (hb.placed hpending).resolve_right fun hbusy =>
      absurd (hnone.symm.trans hbusy.2) (by decide)
  · have hsame : b.pending = if a.queued then 0 else a.pending :=
      h.pending.resolve_right (Int32.ne_of_lt hpending).symm
    have hout : a.queued = false := Bool.eq_false_iff.mpr fun hqueued => by
      rw [if_pos hqueued] at hsame
      exact (Int32.ne_of_lt hpending).symm hsame
    rw [if_neg (Bool.eq_false_iff.mp hout)] at hsame
    -- the trigger was not in line, so it was held back
    obtain ⟨hsingle, hbusy⟩ := (ha.placed (hsame ▸ hpending)).resolve_left (by rw [hout]; decide)
    have hone := ha.pending_eq_one hsingle (hsame ▸ hpending)
    refine ⟨hsame.trans hone, hsingle, hone, ha.running_eq_one hbusy,
      Bool.eq_false_iff.mpr fun hclosed => ?_⟩
    -- the run of a job that was closed at once would have dropped the trigger when it ended
    obtain hdropped | hflying := h.closed hclosed
    · exact (Int32.ne_of_lt hpending).symm hdropped
    · rw [underWay, hand, ← show b.flying = a.flying from hflying, landed] at hbusy
      cases hbusy
  · have hout : a.queued = false := Bool.eq_false_iff.mpr fun hqueued => by
      have hidle := (ha.running_eq_zero_iff hsingle).mpr (ha.single_queued hsingle hqueued)
      exact absurd (hidle.symm.trans hbusy) (by decide)
    have hsame : b.pending = if a.queued then 0 else a.pending := h.opened hopen
    rw [hsame, if_neg (Bool.eq_false_iff.mp hout), hone]

end Account

namespace Shift

variable {s t u : Shift} {id : JobId} {st : JobState} {e : Event} {es : List Event}

/-! ### Runners that have been closed -/

/-- The runner is closed, its line was dropped, and no trigger is on its way. -/
structure Over (s : Shift) : Prop where
  retired : s.Retired
  closing : s.closing = false
  checked : s.checked = []

/-- From then on only runs come to their end. -/
theorem Step.over (h : Step s e t) (hs : s.Over) : t.Over ∧ e.isFinal = true := by
  obtain ⟨hretired, hclosing, hchecked⟩ := hs
  have hretired' := (h.retired hretired).1
  have hidle := hretired.2
  -- no trigger comes in, the dispatch thread has ended, and the line is not dropped again
  cases h with
  | check id opened =>
    rw [Runner.turnsAway, hretired.1] at opened
    cases opened
  | enqueue id checked =>
    rw [hchecked] at checked
    cases checked
  | look _ _ opened | shut opened =>
    rw [hretired.1] at opened
    cases opened
  | pop ready => cases hidle.symm.trans ready
  | grant _ _ holding | refuse _ _ holding => cases hidle.symm.trans holding
  | takeBack _ _ refused => cases hidle.symm.trans refused
  | clear closing =>
    rw [hclosing] at closing
    cases closing
  | _ => exact ⟨⟨hretired', hclosing, hchecked⟩, rfl⟩

theorem Run.over (h : Run s es t) (hs : s.Over) : t.Over ∧ ∀ e ∈ es, e.isFinal = true := by
  induction h with
  | refl => exact ⟨hs, fun e he => absurd he List.not_mem_nil⟩
  | snoc _ hstep ih =>
    obtain ⟨hover, hfinal⟩ := hstep.over ih.1
    refine ⟨hover, fun e he => ?_⟩
    obtain he | he := List.mem_append.mp he
    · exact ih.2 e he
    · exact List.mem_singleton.mp he ▸ hfinal

theorem Step.over_of_cleared (h : Step s .cleared t) (hs : Reachable s)
    (hchecked : s.checked = []) :
    t.Over ∧ t.runner.line.order = [] ∧ s.dispatcher = .idle := by
  have hretired := h.retired_of_cleared hs rfl
  obtain ⟨-, hidle, rfl⟩ := h.of_cleared rfl
  exact ⟨⟨hretired, rfl, hchecked⟩, rfl, hidle⟩

/-- When the line of a closed runner was dropped and all runs in the pool have been completed, with
no trigger on its way, then nothing runs any more, and the jobs in line are those with a pending
trigger. Such a trigger was held back when the line was dropped, and its job, a singleton, was
open. If the job is still open, then the trigger is there. -/
theorem Reachable.left_behind (hs : Reachable s) (hclear : Step s .cleared t)
    (hchecked : s.checked = []) (h : Run t es u) (hwaiting : u.crew.waiting = [])
    (hactive : u.crew.active = []) (hst : s.runner.roster.state? id = some st) :
    ∃ st', u.runner.roster.state? id = some st' ∧ st'.running = 0 ∧
      (id ∈ u.runner.line.order ↔ 0 < st'.pending) ∧
      (0 < st'.pending → st'.pending = 1 ∧
        st.singleton = true ∧ st.pending = 1 ∧ st.running = 1 ∧ st.isClosed = false) ∧
      (st'.isClosed = false → st.singleton = true → st.pending = 1 → st.running = 1 →
        st'.pending = 1) := by
  have ht : Reachable t := hs.run (.single hclear)
  obtain ⟨hover, hempty, hidle⟩ := hclear.over_of_cleared hs hchecked
  obtain ⟨st₁, hst₁, hmove⟩ := hclear.move hs.line_sound hst
  obtain ⟨st', hst', hmoves⟩ := Run.exists_moves h ht.line_sound hst₁
  obtain ⟨hover', hfinal⟩ := Run.over h hover
  have hqueued : (t.account id st₁).queued = false := by
    rw [account, hempty]
    rfl
  have hleft := Account.Moves.left hmoves hfinal (ht.sound hst₁) hqueued
  rw [hmove.of_cleared hqueued] at hleft
  have hand : (s.account id st).held = false := by
    rw [account, hidle]
    rfl
  have hand' : (u.account id st').held = false := by
    rw [account, hover'.retired.2]
    rfl
  have landed : (u.account id st').flying = 0 := by
    rw [account, Crew.flying, hwaiting, hactive]
    rfl
  obtain ⟨hrunning, hline, hpending, hback⟩ :=
    hleft.held_back (hs.sound hst) ((ht.run h).sound hst') hand hand' landed
  exact ⟨st', hst', hrunning, queued_account.symm.trans hline, hpending, hback⟩

/-- A singleton that was triggered while its run is in the pool. -/
def heldBack : Crew :=
  let c := (ofJobs #[singletonJob] 1).crew
  let c := { c with runner := (c.runner.submit 0).2 }.dispatch
  { c with runner := (c.runner.submit 0).2 }

/-- The runner was closed, and the run has come to its end. -/
def workedOff : Shift := { crew := { heldBack with runner := heldBack.runner.shut.clear }.work }

/-- The first of these states leads to the second one, and the line is dropped in between. -/
theorem exists_run_heldBack : ∃ s t es, Reachable s ∧ s.checked = [] ∧
    s.runner.roster.state? 0 =
      some { JobState.new true none .ready with pending := 1, running := 1 } ∧
    Step s .cleared t ∧ Run t es workedOff ∧
    workedOff.crew.waiting = [] ∧ workedOff.crew.active = [] := by
  let c := (ofJobs #[singletonJob] 1).crew
  have hfirst := (leads_submit c 0).trans (leads_dispatch _)
  have hagain := hfirst.trans (leads_submit _ 0)
  have hreach : Reachable { crew := heldBack } :=
    Reachable.leads ⟨_, [], fresh_singleton, .refl _⟩ hagain
  have hshut := Step.shut { crew := heldBack } (by decide +kernel)
  have hclear := Step.clear
    { closing := true, crew := { heldBack with runner := heldBack.runner.shut } } rfl rfl
  obtain ⟨es, hwork⟩ := leads_work { heldBack with runner := heldBack.runner.shut.clear }
  refine ⟨_, _, es, hreach.leads hshut.leads, rfl, by decide +kernel, hclear, hwork,
    by decide +kernel, ?_⟩
  rw [← List.length_eq_zero_iff]
  decide +kernel

/-- A singleton is triggered while its run is in the pool, and then the runner is closed. When the
run has ended, the job stands in line with a trigger. -/
theorem left_behind_heldBack : ∃ s t es, Reachable s ∧ Step s .cleared t ∧ s.checked = [] ∧
    Run t es workedOff ∧ workedOff.crew.waiting = [] ∧ workedOff.crew.active = [] ∧
    ∃ st, workedOff.runner.roster.state? 0 = some st ∧ st.running = 0 ∧ st.pending = 1 ∧
      0 ∈ workedOff.runner.line.order := by
  obtain ⟨s, t, es, hs, hchecked, hst, hclear, hrun, hwaiting, hactive⟩ := exists_run_heldBack
  have hopen : workedOff.runner.roster.isClosed 0 = false := by decide +kernel
  obtain ⟨st, hst', hrunning, hline, -, hback⟩ :=
    Reachable.left_behind hs hclear hchecked hrun hwaiting hactive hst
  rw [Roster.isClosed_of_state? hst'] at hopen
  have hpending := hback hopen rfl rfl rfl
  exact ⟨s, t, es, hs, hclear, hchecked, hrun, hwaiting, hactive, st, hst', hrunning, hpending,
    hline.mpr (by rw [hpending]; decide)⟩

/-- Not all triggers are dropped when a runner is closed. -/
theorem not_all_dropped :
    ¬ ∀ (s t u : Shift) (es : List Event) (id : JobId) (st : JobState), Reachable s →
      Step s .cleared t → s.checked = [] → Run t es u → u.crew.waiting = [] →
      u.crew.active = [] → u.runner.roster.state? id = some st →
      u.runner.line.order = [] ∧ st.pending = 0 ∧ st.running = 0 := by
  intro h
  obtain ⟨s, t, es, hs, hchecked, -, hclear, hrun, hwaiting, hactive⟩ := exists_run_heldBack
  have hpending : (workedOff.runner.roster.state? 0).map JobState.pending = some 1 := by
    decide +kernel
  obtain ⟨st, hst, hone⟩ := Option.map_eq_some_iff.mp hpending
  have hzero := (h s t _ es 0 st hs hclear hchecked hrun hwaiting hactive hst).2.1
  exact absurd (hzero.symm.trans hone) (by decide)

end Shift

end Metronome
