import Mathlib.Data.List.DropRight
import Metronome.Config.Basic
import Metronome.Job.Entry
import Metronome.Timer.Basic

/-!
# Configurations that were read can be used

A configuration is checked once, when it has been read and the environment has had its say about
the settings. Those who use it later check parts of it again: the timer its settings, the
description of a job its entry, and the schedule its interval. None of these checks fails, whatever
the text and the environment were.

A cron pattern is only counted when it is read, so that its schedule may still turn out to make no
sense.

## Main definitions

* `TimerConfig.Sound`, `JobEntry.Sound`, `Config.Sound` — what the checks ask for
* `JobEntry.Describes` — a description says of a job what its entry says
* `Config.Usable` — settings and entries make sense to those who use them

## Main results

* `TimerConfig.validate_eq_ok`, `JobEntry.validate_eq_ok`, `Config.validate_eq_ok` — the checks
* `Config.Sound.usable`, `Config.Sound.exists_timer` — what they are good for
* `Config.usable_of_loaded` — every configuration that was read
-/

namespace Metronome

/-! ### Texts and lengths of time -/

/-- A text is blank exactly if nothing is left of it without the blanks at its ends. -/
theorem Text.isEmpty_trimChars (cs : List Char) :
    (trimChars cs).isEmpty = false ↔ ∃ c ∈ cs, isBlank c = false := by
  have hnil : trimChars cs = [] ↔ ∀ c ∈ cs, isBlank c = true := by
    rw [show trimChars cs = (cs.dropWhile isBlank).rdropWhile isBlank from rfl,
      List.rdropWhile_eq_nil_iff]
    refine ⟨fun h c hc => ?_, fun h c hc => h c ((List.dropWhile_sublist isBlank).mem hc)⟩
    -- a blank in front goes as well
    rw [← List.takeWhile_append_dropWhile (p := isBlank) (l := cs), List.mem_append] at hc
    exact hc.elim List.mem_takeWhile_imp (h c)
  rw [← not_iff_not, Bool.not_eq_false, List.isEmpty_iff, hnil]
  simp only [not_exists, not_and, Bool.not_eq_false]

/-- A written duration is not zero. -/
theorem Span.isZero_of_parse {s : String} {d : Span} (h : Span.parse s = some d) :
    d.isZero = false := by
  unfold parse at h
  split at h
  · next ms _ =>
    split at h
    · next hms =>
      cases h
      exact beq_false_of_ne (Nat.ne_of_gt (Nat.mul_pos hms.1 (by decide)))
    · cases h
  · cases h

/-! ### Settings -/

namespace TimerConfig

/-- Settings that make sense. -/
structure Sound (c : TimerConfig) : Prop where
  interval : 0 < c.intervalMs
  recheck : c.intervalMs ≤ c.cronRecheckMs

theorem validate_eq_ok (c : TimerConfig) : c.validate = .ok () ↔ c.Sound := by
  unfold validate
  split
  · next hzero => exact iff_of_false nofun fun h => absurd hzero (Nat.pos_iff_ne_zero.mp h.interval)
  · next hpos =>
    split
    · next hbelow => exact iff_of_false nofun fun h => absurd h.recheck (Nat.not_le.mpr hbelow)
    · next hrecheck =>
      exact iff_of_true rfl ⟨Nat.pos_of_ne_zero hpos, Nat.not_lt.mp hrecheck⟩

end TimerConfig

/-! ### Entries -/

namespace JobEntry

variable {e : JobEntry}

/-- An entry has either a duration that makes sense or a pattern with five to seven words. -/
inductive Scheduled (e : JobEntry) : Prop
  | every {every : String} {d : Span} (h : e.every = some every) (none : e.cron = none)
      (length : e.everySpan = some d)
  | cron {pattern : String} (h : e.cron = some pattern) (none : e.every = none)
      (words : 5 ≤ Text.wordCount pattern ∧ Text.wordCount pattern ≤ 7)

/-- An entry that makes sense. -/
structure Sound (e : JobEntry) : Prop where
  name : ∃ c ∈ e.name.toList, Text.isBlank c = false
  command : ∃ c ∈ e.command.toList, Text.isBlank c = false
  times : e.times ≠ some 0
  scheduled : e.Scheduled

theorem sound_of_validate (h : e.validate = .ok ()) : e.Sound := by
  unfold validate at h
  dsimp only at h
  split at h
  · cases h
  next hname =>
  split at h
  · cases h
  next hcommand =>
  split at h
  · cases h
  next htimes =>
  refine ⟨(Text.isEmpty_trimChars _).mp (Bool.not_eq_true _ ▸ hname),
    (Text.isEmpty_trimChars _).mp (Bool.not_eq_true _ ▸ hcommand), htimes, ?_⟩
  split at h
  · next every hevery hcron =>
    split at h
    · cases h
    · next hspan =>
      obtain ⟨d, hd⟩ := Option.ne_none_iff_exists'.mp (mt Option.isNone_iff_eq_none.mpr hspan)
      exact .every hevery hcron hd
  · next pattern hevery hcron =>
    split at h
    · next hwords => exact .cron hcron hevery hwords
    · cases h
  · cases h
  · cases h

theorem validate_eq_ok (e : JobEntry) : e.validate = .ok () ↔ e.Sound := by
  refine ⟨sound_of_validate, fun h => ?_⟩
  have hname : ¬ (Text.trimChars e.name.toList).isEmpty = true :=
    Bool.eq_false_iff.mp ((Text.isEmpty_trimChars _).mpr h.name)
  have hcommand : ¬ (Text.trimChars e.command.toList).isEmpty = true :=
    Bool.eq_false_iff.mp ((Text.isEmpty_trimChars _).mpr h.command)
  unfold validate
  dsimp only
  rw [if_neg hname, if_neg hcommand, if_neg h.times]
  cases h.scheduled with
  | every hevery hcron hd =>
    rw [hevery, hcron, hd]
    rfl
  | cron hcron hevery hwords =>
    rw [hevery, hcron]
    exact if_pos hwords

/-- A description says of a job what its entry says, and its schedule, if it is an interval, can be
built wherever it is anchored. -/
structure Describes (e : JobEntry) (o : JobOptions) : Prop where
  name : o.name = some e.name
  singleton : o.singleton = e.singleton
  times : o.times = e.times
  status : o.status = if e.paused then .stopped else .ready
  spec : (∃ pattern, e.cron = some pattern ∧ o.spec = .cron pattern) ∨
    ∃ d, e.everySpan = some d ∧ o.spec = .every d ∧ ∀ a, ∃ s, o.spec.build a = .ok s

/-- An entry that makes sense is accepted by those who describe its job. -/
theorem Sound.describes (h : e.Sound) : ∃ o, e.options = .ok o ∧ e.Describes o := by
  unfold options
  dsimp only
  cases h.scheduled with
  | every hevery hcron hd =>
    obtain ⟨every, -, hparse⟩ := Option.bind_eq_some_iff.mp hd
    rw [hevery, hcron, hd]
    refine ⟨_, rfl, rfl, rfl, rfl, rfl, Or.inr ⟨_, hd, rfl, fun a => ?_⟩⟩
    rw [ScheduleSpec.build, Span.isZero_of_parse hparse]
    exact ⟨_, rfl⟩
  | cron hcron hevery hwords =>
    rw [hevery, hcron]
    exact ⟨_, rfl, rfl, rfl, rfl, rfl, Or.inl ⟨_, hcron, rfl⟩⟩

end JobEntry

/-! ### Configurations -/

namespace Config

variable {c : Config} {env : Environment}

/-- All entries are checked, and each name is met once. -/
theorem validateJobs_eq_ok (seen : List String) (es : List JobEntry) :
    validateJobs seen es = .ok () ↔
      (∀ e ∈ es, e.Sound) ∧ (es.map JobEntry.name).Nodup ∧ ∀ e ∈ es, e.name ∉ seen := by
  induction es generalizing seen with
  | nil => simp [validateJobs]
  | cons e es ih =>
    unfold validateJobs
    cases hentry : e.validate with
    | error cause =>
      refine iff_of_false nofun fun h => ?_
      have hok := e.validate_eq_ok.mpr (h.1 e List.mem_cons_self)
      cases hentry.symm.trans hok
    | ok =>
      have hsound : e.Sound := e.validate_eq_ok.mp hentry
      dsimp only
      split
      · next hseen =>
        refine iff_of_false nofun fun h => ?_
        exact h.2.2 e List.mem_cons_self (List.contains_iff_mem.mp hseen)
      · next hnew =>
        have hnew : e.name ∉ seen := mt List.contains_iff_mem.mpr hnew
        rw [ih]
        simp only [List.map_cons, List.nodup_cons, List.mem_map, List.mem_cons, forall_eq_or_imp]
        grind

/-- A configuration that makes sense. -/
structure Sound (c : Config) : Prop where
  timer : c.timer.Sound
  entries : ∀ e ∈ c.jobs, e.Sound
  names : (c.jobs.map JobEntry.name).Nodup

theorem validate_eq_ok (c : Config) : c.validate = .ok () ↔ c.Sound := by
  unfold validate
  cases htimer : c.timer.validate with
  | error cause =>
    refine iff_of_false nofun fun h => ?_
    cases htimer.symm.trans (c.timer.validate_eq_ok.mpr h.timer)
  | ok =>
    refine (validateJobs_eq_ok [] c.jobs).trans ⟨fun h => ?_, fun h => ?_⟩
    · exact ⟨c.timer.validate_eq_ok.mp htimer, h.1, h.2.1⟩
    · exact ⟨h.entries, h.names, fun _ _ => List.not_mem_nil⟩

/-- The settings and the entries make sense to all those who use them. -/
structure Usable (c : Config) : Prop where
  interval : 0 < c.timer.intervalMs
  recheck : c.timer.intervalMs ≤ c.timer.cronRecheckMs
  named : ∀ e ∈ c.jobs, ∃ ch ∈ e.name.toList, Text.isBlank ch = false
  names : (c.jobs.map JobEntry.name).Nodup
  described : ∀ e ∈ c.jobs, ∃ o, e.options = .ok o ∧ e.Describes o ∧ o.times ≠ some 0

theorem Sound.usable (h : c.Sound) : c.Usable where
  interval := h.timer.interval
  recheck := h.timer.recheck
  named e he := (h.entries e he).name
  names := h.names
  described e he := by
    obtain ⟨o, hoptions, hdescribes⟩ := (h.entries e he).describes
    exact ⟨o, hoptions, hdescribes, hdescribes.times ▸ (h.entries e he).times⟩

/-- A timer accepts the settings. -/
theorem Sound.exists_timer (h : c.Sound) (parallelism : Nat) (now : Instant) :
    ∃ t, Timer.new c.timer parallelism now = .ok t ∧ t.config = c.timer := by
  unfold Timer.new
  rw [c.timer.validate_eq_ok.mpr h.timer]
  exact ⟨_, rfl, rfl⟩

/-- What is read is checked after the environment has overridden the settings. -/
theorem ofToml_eq_ok {text : String} (h : ofToml env text = .ok c) :
    ∃ d, (Document.ofToml text).bind (ofDocument false) = some d ∧
      c = { d with timer := d.timer.withEnvironment env } ∧ c.Sound := by
  unfold ofToml at h
  split at h
  · cases h
  · next d hdocument =>
    dsimp only at h
    cases hvalid : validate { d with timer := d.timer.withEnvironment env } with
    | error cause =>
      rw [hvalid] at h
      cases h
    | ok =>
      rw [hvalid] at h
      cases h
      exact ⟨d, hdocument, rfl, (validate_eq_ok _).mp hvalid⟩

theorem ofFile_eq_ok {file : Option ByteArray} (h : ofFile env file = .ok c) :
    ∃ text, ofToml env text = .ok c := by
  unfold ofFile at h
  split at h
  · cases h
  · split at h
    · cases h
    · next text _ => exact ⟨text, h⟩

/-- Every configuration that was read from a text or a file, with the overrides of whatever
environment, can be used. -/
theorem usable_of_loaded
    (h : (∃ text, ofToml env text = .ok c) ∨ ∃ file, ofFile env file = .ok c) :
    ∃ text d, (Document.ofToml text).bind (ofDocument false) = some d ∧
      c = { d with timer := d.timer.withEnvironment env } ∧ c.Usable := by
  obtain ⟨text, htext⟩ : ∃ text, ofToml env text = .ok c :=
    h.elim id fun ⟨_, hfile⟩ => ofFile_eq_ok hfile
  obtain ⟨d, hdocument, hc, hsound⟩ := ofToml_eq_ok htext
  exact ⟨text, d, hdocument, hc, hsound.usable⟩

/-- A configuration with two jobs. -/
def backup : Config where
  timer := { intervalMs := 50 }
  jobs :=
    [{ name := "backup", every := some "90", command := "tar", singleton := true, times := some 3 },
      { name := "report", cron := some "0 6 * * *", command := "mail", paused := true }]

/-- A text with these jobs, and with settings that make no sense unless they are overridden. -/
def backupText : String :=
  "\n".intercalate
    ["[timer]", "interval_ms = 0",
      "[[jobs]]", "name = 'backup'", "every = '90'", "command = 'tar'", "singleton = true",
      "times = 3",
      "[[jobs]]", "name = 'report'", "cron = '0 6 * * *'", "command = 'mail'", "paused = true"]

theorem ofToml_backup :
    ofToml [("CADENCE_TIMER_INTERVAL_MS", " 50 ")] backupText = .ok backup := by
  decide +kernel

/-- The configuration with the overridden settings can be used. -/
theorem usable_backup :
    ofToml [("CADENCE_TIMER_INTERVAL_MS", " 50 ")] backupText = .ok backup ∧ backup.Usable := by
  obtain ⟨-, -, -, -, husable⟩ := usable_of_loaded (Or.inl ⟨backupText, ofToml_backup⟩)
  exact ⟨ofToml_backup, husable⟩

end Config

end Metronome
