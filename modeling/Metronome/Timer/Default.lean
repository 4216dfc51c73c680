import Metronome.Timer.Basic

/-!
# The default timer

A process can have one default timer. Once it is set it stays, even after it was closed.

## Main definitions

* `DefaultTimer` — the place for the default timer
* `DefaultTimer.init` — creates the default timer, which succeeds exactly once
-/

namespace Metronome

/-- The place for the default timer of a process. -/
structure DefaultTimer where
  timer : Option Timer := none

namespace DefaultTimer

/-- Creates the default timer. -/
def init (d : DefaultTimer) (config : TimerConfig) (parallelism : Nat) (now : Instant) :
    Except SchedulerError (Timer × DefaultTimer) :=
  match d.timer with
  | some _ => .error .alreadyInitialized
  | none =>
    match Timer.new config parallelism now with
    | .error e => .error e
    | .ok timer => .ok (timer, ⟨some timer⟩)

/-- Closes the default timer, if there is one. -/
def close (d : DefaultTimer) : DefaultTimer := ⟨d.timer.map Timer.close⟩

end DefaultTimer

end Metronome
