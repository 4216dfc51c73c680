import Metronome.Job.Execution
import Metronome.Job.Roster

/-!
# Runs on one thread

A job can be run without a timer, on the thread of whoever asks for it.

## Main definitions

* `Roster.runOnce` — one run of a job
* `Roster.runTimes` — several runs, one after the other, with all calls and panics
-/

namespace Metronome

/-- What several runs on one thread have left behind. -/
structure RunRecord where
  /-- The point in time at which the last one was over. -/
  clock : Instant
  /-- The calls that were made, in order. -/
  log : List CallRecord := []
  /-- The panics that left a run, in order. -/
  panics : List TracedError := []

namespace Roster

/-- One run of a job. -/
def runOnce (r : Roster) (id : JobId) (now : Instant) : Option Execution × Roster :=
  r.updateWith id fun j =>
    let (j, x) := j.runOnce now
    (x, j)

/-- Several runs of a job, one after the other, from a point in time on. -/
def runTimes (r : Roster) (id : JobId) (now : Instant) : (times : Nat) → RunRecord × Roster
  | 0 => ({ clock := now }, r)
  | times + 1 =>
    match r.runOnce id now with
    | (none, r) => ({ clock := now }, r)
    | (some x, r) =>
      let (rest, r) := r.runTimes id x.clock times
      ({ rest with
          log := x.log ++ rest.log
          panics := x.escaped.toList ++ rest.panics }, r)

end Roster

end Metronome
