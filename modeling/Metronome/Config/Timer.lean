import Metronome.Document
import Metronome.EnvFile
import Metronome.Error
import Metronome.Text.Numeral
import Metronome.Time.Span

/-!
# Timer settings

The settings of a timer are the width of a tick, the number of worker threads, the number of
callbacks that may be in flight, and how long a recurrence may go without a look at the clock.
They are unsigned numbers of 64 bits. Each can be overridden by the environment.

## Main definitions

* `TimerConfig` — the settings, with their default values
* `TimerConfig.validate` — what is wrong with the settings
* `TimerConfig.withEnvironment` — the settings with the overrides of an environment
* `TimerConfig.cronRecheckTicks` — the longest wait of a recurrence in ticks
-/

namespace Metronome

/-- The settings of a timer. -/
structure TimerConfig where
  /-- The width of a tick in milliseconds. -/
  intervalMs : Nat := 100
  /-- The number of worker threads; zero stands for as many as the machine offers. -/
  workerThreads : Nat := 0
  /-- The greatest number of callbacks in flight; zero stands for no limit. -/
  maxInFlight : Nat := 0
  /-- The longest time in milliseconds that a recurrence waits for a look at the clock. -/
  cronRecheckMs : Nat := 1000
deriving DecidableEq, Inhabited

namespace TimerConfig

/-- The settings with ticks of the given width and default values otherwise. Widths are whole
milliseconds, at least one, and only their lowest 64 bits are kept. -/
def withInterval (d : Span) : TimerConfig :=
  { intervalMs := max d.millis 1 % 18446744073709551616 }

/-- The width of a tick. -/
def interval (c : TimerConfig) : Span := .ofMillis c.intervalMs

/-- The greatest number of callbacks in flight, if there is a limit. -/
def capacity (c : TimerConfig) : Option Nat :=
  if 0 < c.maxInFlight then some c.maxInFlight else none

/-- The longest wait of a recurrence in ticks, at least one. A number beyond the range of ticks
wraps around to a negative one. -/
def cronRecheckTicks (c : TimerConfig) : Nat :=
  let ticks := Int.bmod (c.cronRecheckMs / max c.intervalMs 1 : Nat) 18446744073709551616
  max ticks.toNat 1

/-- A tick has to have a width, and a recurrence has to wait for at least one tick. -/
def validate (c : TimerConfig) : Except ConfigError Unit :=
  if c.intervalMs = 0 then .error (.invalid .zeroInterval)
  else if c.cronRecheckMs < c.intervalMs then
    .error (.invalid (.recheckBelowInterval c.cronRecheckMs c.intervalMs))
  else .ok ()

/-- The settings that a document writes, read strictly or not. -/
def ofDocument (strict : Bool) (d : Document) : Option TimerConfig := do
  let r ← d.record? strict 4
  return {
    intervalMs := ← r.defaulted 0 "interval_ms" 100 Document.word?
    workerThreads := ← r.defaulted 1 "worker_threads" 0 Document.word?
    maxInFlight := ← r.defaulted 2 "max_in_flight" 0 Document.word?
    cronRecheckMs := ← r.defaulted 3 "cron_recheck_ms" 1000 Document.word? }

/-- The value of a name, or `current` when the name has no value, an empty one, or one that is no
unsigned number of 64 bits. Blanks around the number do not count. -/
def override (env : Environment) (name : String) (current : Nat) : Nat :=
  match env.get? name with
  | some value => (Text.Numeral.readWord? (Text.trimChars value.toList)).getD current
  | none => current

/-- The settings with the overrides of an environment. -/
def withEnvironment (c : TimerConfig) (env : Environment) : TimerConfig :=
  { intervalMs := override env "CADENCE_TIMER_INTERVAL_MS" c.intervalMs
    workerThreads := override env "CADENCE_TIMER_WORKER_THREADS" c.workerThreads
    maxInFlight := override env "CADENCE_TIMER_MAX_IN_FLIGHT" c.maxInFlight
    cronRecheckMs := override env "CADENCE_TIMER_CRON_RECHECK_MS" c.cronRecheckMs }

/-- The settings that an environment and perhaps an environment file give. -/
def ofEnvironment (env : Environment) (file : Option String) : Except ConfigError TimerConfig :=
  let env := match file with
    | some text => env.load text
    | none => env
  let config := ({} : TimerConfig).withEnvironment env
  config.validate.map fun _ => config

end TimerConfig

end Metronome
