import Metronome.Text.Quoted

/-!
# Statuses

A job is ready, running, stopped or closed; a timer is running, stopped or closed. A status is
kept as a byte, and every byte beyond the last status counts as closed.

## Main definitions

* `JobStatus`, `TimerStatus` — the statuses, with their bytes and texts
-/

namespace Metronome

/-- The status of a job. -/
inductive JobStatus
  /-- Scheduled and idle. -/
  | ready
  /-- A callback is executing. -/
  | running
  /-- Keeps its place in the schedule without running. -/
  | stopped
  /-- Over for good. -/
  | closed
deriving DecidableEq, Repr, Inhabited

namespace JobStatus

/-- The byte of a status. -/
def toByte : JobStatus → Nat
  | .ready => 0
  | .running => 1
  | .stopped => 2
  | .closed => 3

/-- The status of a byte. -/
def ofByte : Nat → JobStatus
  | 0 => .ready
  | 1 => .running
  | 2 => .stopped
  | _ => .closed

/-- The name of a status. -/
def text : JobStatus → String
  | .ready => "ready"
  | .running => "running"
  | .stopped => "stopped"
  | .closed => "closed"

/-- The status of a name. -/
def ofText? : String → Option JobStatus
  | "ready" => some .ready
  | "running" => some .running
  | "stopped" => some .stopped
  | "closed" => some .closed
  | _ => none

/-- The name as it is shown to a developer. -/
def debug : JobStatus → String
  | .ready => "Ready"
  | .running => "Running"
  | .stopped => "Stopped"
  | .closed => "Closed"

theorem ofByte_toByte (s : JobStatus) : ofByte s.toByte = s := by cases s <;> rfl

theorem ofText?_text (s : JobStatus) : ofText? s.text = some s := by cases s <;> rfl

end JobStatus

/-- The status of a timer. -/
inductive TimerStatus
  | running
  /-- Ticks go on and schedules advance, but nothing is run. -/
  | stopped
  /-- Over for good. -/
  | closed
deriving DecidableEq, Repr, Inhabited

namespace TimerStatus

/-- The byte of a status. -/
def toByte : TimerStatus → Nat
  | .running => 0
  | .stopped => 1
  | .closed => 2

/-- The status of a byte. -/
def ofByte : Nat → TimerStatus
  | 0 => .running
  | 1 => .stopped
  | _ => .closed

/-- The name of a status. -/
def text : TimerStatus → String
  | .running => "running"
  | .stopped => "stopped"
  | .closed => "closed"

/-- The name as it is shown to a developer. -/
def debug : TimerStatus → String
  | .running => "Running"
  | .stopped => "Stopped"
  | .closed => "Closed"

theorem ofByte_toByte (s : TimerStatus) : ofByte s.toByte = s := by cases s <;> rfl

end TimerStatus

/-- A cell that holds a status, as it is shown to a developer. -/
def statusCell (name : String) : String := Text.call "StatusCell" name

end Metronome
