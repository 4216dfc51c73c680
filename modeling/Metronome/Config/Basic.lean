import Metronome.Config.Job
import Metronome.Config.Timer
import Metronome.Toml.Parser

/-!
# Configurations

A configuration consists of the settings of a timer and of the jobs to run on it. It is read
from TOML, and the environment may override the settings.

## Main definitions

* `Config` — the settings and the jobs
* `Config.validate` — the first thing that is wrong with a configuration
* `Config.ofToml`, `Config.ofFile` — the configuration of a text or a file
-/

namespace Metronome

/-- The settings of a timer and the jobs to run on it. -/
structure Config where
  timer : TimerConfig := {}
  jobs : List JobEntry := []
deriving DecidableEq, Inhabited

namespace Config

/-- Every entry has to be valid, and its name must be none of those seen before. -/
def validateJobs (seen : List String) : List JobEntry → Except ConfigError Unit
  | [] => .ok ()
  | e :: es =>
    match e.validate with
    | .error cause => .error cause
    | .ok () =>
      if seen.contains e.name then .error (.invalid (.duplicateName e.name))
      else validateJobs (e.name :: seen) es

/-- The settings and all entries have to be valid, and names must differ. -/
def validate (c : Config) : Except ConfigError Unit :=
  match c.timer.validate with
  | .error cause => .error cause
  | .ok () => validateJobs [] c.jobs

/-- The configuration that a document writes, read strictly or not. -/
def ofDocument (strict : Bool) (d : Document) : Option Config := do
  let r ← d.record? strict 2
  return {
    timer := ← r.defaulted 0 "timer" {} (TimerConfig.ofDocument strict)
    jobs := ← r.defaulted 1 "jobs" [] (Document.list? (JobEntry.ofDocument strict)) }

/-- The configuration of a TOML text, with the overrides of an environment. -/
def ofToml (env : Environment) (text : String) : Except ConfigError Config :=
  match (Document.ofToml text).bind (ofDocument false) with
  | none => .error .parse
  | some config =>
    let config := { config with timer := config.timer.withEnvironment env }
    config.validate.map fun _ => config

/-- The configuration of a file, given by its bytes if the file exists. -/
def ofFile (env : Environment) (file : Option ByteArray) : Except ConfigError Config :=
  match file with
  | none => .error .missingFile
  | some bytes =>
    match String.fromUTF8? bytes with
    | none => .error .invalidUtf8
    | some text => ofToml env text

end Config

end Metronome
