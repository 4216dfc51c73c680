import Metronome.Document
import Metronome.Error
import Metronome.Text.Blank
import Metronome.Time.Duration

/-!
# Job entries

A job entry describes a job that runs a command: its name, its schedule, which is either a
duration or a cron pattern, and how often and in which way it runs.

## Main definitions

* `JobEntry` — a job of a configuration
* `JobEntry.validate` — the first thing that is wrong with an entry
* `JobEntry.ofDocument` — the entry that a document writes
-/

namespace Metronome

/-- A job of a configuration. -/
structure JobEntry where
  name : String
  /-- The interval between runs, as a written duration. -/
  every : Option String := none
  /-- The cron pattern. -/
  cron : Option String := none
  command : String
  args : List String := []
  /-- Runs of the job do not overlap. -/
  singleton : Bool := false
  /-- The number of runs, if it is limited. -/
  times : Option Nat := none
  /-- The job has to be started before it runs. -/
  paused : Bool := false
deriving DecidableEq, Inhabited

namespace JobEntry

/-- The interval between runs, if there is one that makes sense. -/
def everySpan (e : JobEntry) : Option Span := e.every.bind Span.parse

/-- An entry needs a name, a command, at least one run, and either a duration or a pattern with
five to seven words. -/
def validate (e : JobEntry) : Except ConfigError Unit :=
  let invalid (cause : InvalidConfig) : Except ConfigError Unit := .error (.invalid cause)
  if (Text.trimChars e.name.toList).isEmpty then invalid .blankName
  else if (Text.trimChars e.command.toList).isEmpty then invalid (.blankCommand e.name)
  else if e.times = some 0 then invalid (.zeroTimes e.name)
  else
    match e.every, e.cron with
    | some every, none =>
      if e.everySpan.isNone then invalid (.badDuration e.name every) else .ok ()
    | none, some cron =>
      let fields := Text.wordCount cron
      if 5 ≤ fields ∧ fields ≤ 7 then .ok () else invalid (.fieldCount e.name cron)
    | some _, some _ => invalid (.bothSchedules e.name)
    | none, none => invalid (.noSchedule e.name)

/-- The entry that a document writes, read strictly or not. -/
def ofDocument (strict : Bool) (d : Document) : Option JobEntry := do
  let r ← d.record? strict 8
  return {
    name := ← r.required 0 "name" Document.text?
    every := ← r.optional 1 "every" Document.text?
    cron := ← r.optional 2 "cron" Document.text?
    command := ← r.required 3 "command" Document.text?
    args := ← r.defaulted 4 "args" [] (Document.list? Document.text?)
    singleton := ← r.defaulted 5 "singleton" false Document.boolean?
    times := ← r.optional 6 "times" Document.word?
    paused := ← r.defaulted 7 "paused" false Document.boolean? }

end JobEntry

end Metronome
