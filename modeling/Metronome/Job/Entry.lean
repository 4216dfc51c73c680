import Metronome.Config.Job
import Metronome.Job.Basic

/-!
# Jobs from entries

A job entry of a configuration becomes the description of a job. The callback is supplied by
whoever runs it.

## Main definitions

* `JobEntry.options` — the description of the job of an entry
-/

namespace Metronome

/-- The description of the job of an entry, which must have either a duration or a pattern. The
pattern is not read before the job is created. -/
def JobEntry.options (e : JobEntry) : Except SchedulerError JobOptions :=
  let withSpec (spec : ScheduleSpec) : JobOptions :=
    { name := some e.name
      spec := spec
      singleton := e.singleton
      times := e.times
      paused := e.paused }
  match e.every, e.cron with
  | some every, none =>
    match e.everySpan with
    | some d => .ok (withSpec (.every d))
    | none => .error (.badInterval e.name every)
  | none, some pattern => .ok (withSpec (.cron pattern))
  | _, _ => .error (.notOneSchedule e.name)

end Metronome
