/-!
# Errors

What can go wrong, by cause, and the wording of each cause.

## Main definitions

* `PoolError` — why a pool does not admit a task
* `ConfigError` — why a configuration cannot be used
* `SchedulerError` — why the scheduler refuses a request
-/

namespace Metronome

/-- Why a pool does not admit a task. -/
inductive PoolError
  /-- As many tasks as the capacity allows are in flight. -/
  | full (capacity : Nat)
  | closed
deriving DecidableEq

/-- The wording of a pool error. -/
def PoolError.message : PoolError → String
  | .full capacity => "pool at capacity (" ++ toString capacity ++ " in flight)"
  | .closed => "pool is closed"

/-- Why a setting or a job entry is unusable. -/
inductive InvalidConfig
  | zeroInterval
  /-- The longest wait of a cron entry is shorter than a tick. -/
  | recheckBelowInterval (recheck interval : Nat)
  | blankName
  | blankCommand (job : String)
  | zeroTimes (job : String)
  | badDuration (job every : String)
  | fieldCount (job cron : String)
  | bothSchedules (job : String)
  | noSchedule (job : String)
  | duplicateName (job : String)
deriving DecidableEq

/-- The wording of an unusable setting or entry. -/
def InvalidConfig.message : InvalidConfig → String
  | .zeroInterval => "timer.interval_ms must be greater than zero"
  | .recheckBelowInterval recheck interval =>
    "timer.cron_recheck_ms (" ++ toString recheck ++ ") must be at least one tick (" ++
      toString interval ++ " ms)"
  | .blankName => "job name must not be empty"
  | .blankCommand job => "job '" ++ job ++ "' has an empty command"
  | .zeroTimes job => "job '" ++ job ++ "' has times = 0 and would never run"
  | .badDuration job every => "job '" ++ job ++ "' has invalid duration '" ++ every ++ "'"
  | .fieldCount job cron =>
    "job '" ++ job ++ "' cron '" ++ cron ++ "' must have 5, 6 or 7 fields"
  | .bothSchedules job => "job '" ++ job ++ "' sets both 'every' and 'cron'"
  | .noSchedule job => "job '" ++ job ++ "' needs either 'every' or 'cron'"
  | .duplicateName job => "duplicate job name '" ++ job ++ "'"

/-- Why a configuration cannot be used. -/
inductive ConfigError
  | missingFile
  | invalidUtf8
  /-- The text is no document, or a document of another shape. -/
  | parse
  | invalid (cause : InvalidConfig)
deriving DecidableEq

/-- The wording of a configuration error. -/
def ConfigError.message : ConfigError → String
  | .missingFile => "config I/O error: No such file or directory (os error 2)"
  | .invalidUtf8 => "config I/O error: stream did not contain valid UTF-8"
  | .parse => "config parse error"
  | .invalid cause => "invalid config: " ++ cause.message

/-- Why the scheduler refuses a request. -/
inductive SchedulerError
  | invalidCron (pattern : String)
  | cronExhausted (pattern : String)
  | zeroInterval
  /-- The interval of a job entry is no duration. -/
  | badInterval (job every : String)
  /-- A job entry has no schedule or two of them. -/
  | notOneSchedule (job : String)
  | emptyGroup
  | missingCallback (job : String)
  | pool (cause : PoolError)
  | closed
  | alreadyInitialized
  | config (cause : ConfigError)
deriving DecidableEq

/-- The wording of a scheduler error. -/
def SchedulerError.message : SchedulerError → String
  | .invalidCron pattern =>
    "invalid cron pattern '" ++ pattern ++ "': Invalid expression: Invalid cron expression."
  | .cronExhausted pattern => "cron pattern '" ++ pattern ++ "' has no upcoming occurrence"
  | .zeroInterval => "invalid interval: interval must be greater than zero"
  | .badInterval job every =>
    "invalid interval: job '" ++ job ++ "': every = '" ++ every ++ "'"
  | .notOneSchedule job =>
    "invalid interval: job '" ++ job ++ "' must set exactly one of `every` or `cron`"
  | .emptyGroup => "schedule group must contain at least one schedule"
  | .missingCallback job => "job '" ++ job ++ "' has no callback"
  | .pool cause => "worker pool error: " ++ cause.message
  | .closed => "timer is closed"
  | .alreadyInitialized => "default timer already initialized"
  | .config cause => cause.message

end Metronome
