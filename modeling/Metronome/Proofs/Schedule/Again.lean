import Metronome.Proofs.Schedule.Forward
import Metronome.Proofs.Schedule.Probe

/-!
# Looking twice

A look moves a schedule beyond the tick at which it is made. The schedule asks for a later tick, and
in a group, and in all groups within it, no child is left under that tick or an earlier one.
Whatever was due has been answered for, since a recurrence goes on to wait for an occurrence that is
later than the reading of the clock. So a second look, at the same tick and with the same reading,
finds nothing that is due and leaves everything as it is.

## Main definitions

* `Schedule.KeysAfter` — the children of a group, and theirs in turn, wait under later ticks

## Main results

* `Recurrence.nextTick_probe_le` — a recurrence is looked at once in as many ticks as its cap says
* `Recurrence.check_again`, `Schedule.Sound.check_again` — a second look
* `Schedule.Sound.keysAfter_check` — where the children of a group wait after a look
* `Schedule.Reachable.looks_ahead` — all of this for schedules that come from descriptions
-/

namespace Metronome

variable {t tick : Tick} {now : Instant}

/-- Nothing is taken from a queue that comes after a tick. -/
theorem Queue.popAllDue_of_later {α : Type} {q : Queue α}
    (h : ∀ e ∈ q.entries, tick < e.priority) : q.popAllDue tick = ([], q) := by
  unfold popAllDue
  split
  · rfl
  · next e rest hpop =>
    obtain ⟨hq, rfl, -, hle⟩ := popDue_eq_some hpop
    exact absurd hle (Tick.not_le.mpr (h _ (Array.getElem_mem hq)))

theorem Interval.check_again (s : Interval) (h : tick < .last) :
    (s.check tick).2.probe tick = { (s.check tick).1 with due := false } := by
  -- the interval is not due before the tick that it asks for, which is later now
  have hlater : ¬ (s.probe tick).nextTick ≤ tick := Tick.not_le.mpr (s.lt_nextTick_probe h)
  unfold check probe at *
  simp [hlater]

namespace Recurrence

theorem ticksTo_le (s : Recurrence) (now target : Instant) : s.ticksTo now target ≤ s.cap :=
  Nat.max_le.mpr ⟨s.cap_pos, Nat.min_le_right _ _⟩

/-- A recurrence asks for a tick that is not later than its cap allows. -/
theorem nextTick_probe_le (s : Recurrence) (tick : Tick) (now : Instant) :
    (s.probe tick now).nextTick.val ≤ tick.val + s.cap := by
  have hadd (n : Nat) (hn : n ≤ s.cap) : (tick + n).val ≤ tick.val + s.cap := by
    rw [Tick.val_add]
    omega
  unfold probe
  split
  · exact hadd _ (Nat.le_refl _)
  · dsimp only
    split
    · split
      · exact hadd _ (s.ticksTo_le now _)
      · exact hadd _ (Nat.le_refl _)
    · exact hadd _ (s.ticksTo_le now _)

theorem min_min_self (u start : Instant) : min u (min u start) = min u start := by
  obtain ⟨hmin, -⟩ | ⟨hmin, -⟩ := u.min_cases start
  · rw [hmin]
    exact if_pos (Int.le_refl _)
  · rw [hmin, hmin]

/-- A recurrence that was looked at waits for an occurrence that is later than the reading, or for
none any more. -/
theorem check_again (s : Recurrence) (tick : Tick) (now : Instant) :
    (s.check tick now).2.probe tick now = { (s.check tick now).1 with due := false } := by
  cases hstart : s.nextStart with
  | none => simp [check, probe, hstart]
  | some start =>
    cases hfresh : s.pattern.next? now with
    | none =>
      by_cases hdue : start ≤ now
      · simp [check, probe, nextAfter, hstart, hfresh, hdue]
      · simp [check, probe, nextAfter, ticksTo, hstart, hfresh, hdue]
    | some next =>
      have hnext : ¬ next ≤ now := Int.not_le.mpr (Cron.Pattern.lt_of_next? hfresh)
      by_cases hdue : start ≤ now
      · have hself : min next next = next := if_pos (Int.le_refl _)
        simp [check, probe, nextAfter, ticksTo, hstart, hfresh, hdue, hnext, hself]
      · have hmin : ¬ min next start ≤ now := by
          obtain ⟨hmin, -⟩ | ⟨hmin, -⟩ := next.min_cases start <;> rwa [hmin]
        simp [check, probe, nextAfter, ticksTo, hstart, hfresh, hdue, hmin, min_min_self]

end Recurrence

namespace Schedule

variable {s : Schedule} {q : Queue Schedule}

/-! ### Where the children wait -/

/-- The children of a schedule, and theirs in turn, wait under later ticks than the given one. -/
inductive KeysAfter (t : Tick) : Schedule → Prop
  | interval (s : Interval) : KeysAfter t (.interval s)
  | recurrence (s : Recurrence) : KeysAfter t (.recurrence s)
  | group (q : Queue Schedule) (keys : ∀ e ∈ q.entries, t < e.priority)
      (children : ∀ e ∈ q.entries, KeysAfter t e.value) : KeysAfter t (.group q)

/-- A group that asks for a later tick has no child that asks for an earlier one. -/
theorem Sound.keysAfter (hs : s.Sound) (ht : t < .last) (h : t < s.nextTick) : s.KeysAfter t := by
  induction hs with
  | interval s => exact .interval s
  | recurrence s => exact .recurrence s
  | group q keyed children ih =>
    have hkeys := (keyed.wf.lt_next_iff ht).mp h
    refine .group q hkeys fun e he => ih e he ?_
    rw [← keyed.priority e he]
    exact hkeys e he

/-- Whatever is left of a schedule after a look asks for a later tick, and if that is nothing, for
the last tick of all. -/
theorem Sound.lt_nextTick_after (hs : s.Sound) (h : tick < .last) :
    tick < (s.check tick now).2.nextTick := by
  cases hs with
  | interval s =>
    rw [Schedule.check]
    exact s.lt_nextTick_probe h
  | recurrence s =>
    rw [Schedule.check]
    exact s.lt_nextTick_probe now h
  | group q keyed children =>
    cases hexhausted : ((Schedule.group q).check tick now).1.exhausted with
    | false =>
      rw [nextTick_check _ tick now hexhausted]
      exact (Sound.group q keyed children).lt_nextTick_check h
    | true =>
      rw [check_group] at hexhausted ⊢
      rw [nextTick, (wf_checkAll keyed.wf tick now).next_of_empty (Array.isEmpty_iff.mp hexhausted)]
      exact h

/-- After a look, the children that are left wait under later ticks, at any depth. -/
theorem Sound.keysAfter_check (hs : s.Sound) (h : tick < .last) :
    (s.check tick now).2.KeysAfter tick :=
  (hs.check tick now).keysAfter h (hs.lt_nextTick_after h)

/-! ### The second look -/

/-- Nothing is looked at in a group whose children wait under later ticks. -/
theorem checkAll_of_later (h : ∀ e ∈ q.entries, tick < e.priority) : checkAll tick now q = q := by
  rw [checkAll, Queue.popAllDue_of_later h]
  rfl

/-- A second look finds nothing that is due, and nothing to change. -/
theorem Sound.check_again (hs : s.Sound) (h : tick < .last) :
    (s.check tick now).2.check tick now =
      ({ (s.check tick now).1 with due := false }, (s.check tick now).2) := by
  cases hs with
  | interval s =>
    rw [Schedule.check, Schedule.check, Interval.check, s.check_again h]
    rfl
  | recurrence s =>
    rw [Schedule.check, Schedule.check, Recurrence.check, s.check_again tick now]
    rfl
  | group q keyed children =>
    have hkeys : ((Schedule.group q).check tick now).2.KeysAfter tick :=
      (Sound.group q keyed children).keysAfter_check h
    rw [check_group] at hkeys ⊢
    cases hkeys with
    | group _ hlater _ =>
      rw [check_group, checkAll_of_later hlater, Queue.popAllDue_of_later hlater]
      rfl

/-- Whatever a schedule that comes from a description is looked at for, it then asks for a later
tick, and a recurrence for one that its cap allows. No child of a group is left under the tick of
the look or an earlier one, at any depth. A second look at the same tick and reading is not due; its
answer is the first one apart from that, and it leaves the schedule as it is. When it was built, the
schedule has asked for a later tick than that of its anchor. -/
theorem Reachable.looks_ahead (hs : s.Reachable) (h : tick < .last) (now : Instant) :
    tick < (s.check tick now).1.nextTick ∧
    (∀ r, s = .recurrence r → (s.check tick now).1.nextTick.val ≤ tick.val + r.cap) ∧
    (s.check tick now).2.KeysAfter tick ∧
    (s.check tick now).2.check tick now =
      ({ (s.check tick now).1 with due := false }, (s.check tick now).2) ∧
    ∀ (a : Anchor) (spec : ScheduleSpec), a.tick < .last → spec.build a = .ok s →
      a.tick < s.nextTick := by
  refine ⟨hs.sound.lt_nextTick_check h, ?_, hs.sound.keysAfter_check h, hs.sound.check_again h, ?_⟩
  · rintro r rfl
    rw [Schedule.check]
    exact r.nextTick_probe_le tick now
  · intro a spec ha hbuild
    exact lt_nextTick_of_build hbuild ha

/-- The recurrence of the inner group has come, and is gone at the second look. -/
theorem looks_ahead_nested : nested.Reachable ∧ (1 : Tick) < .last ∧
    (nested.check 1 (.ofSecs 4133894400)).1 = ⟨true, 2, none, false⟩ ∧
    (nested.check 1 (.ofSecs 4133894400)).2.KeysAfter 1 ∧
    (nested.check 1 (.ofSecs 4133894400)).2.check 1 (.ofSecs 4133894400) =
      (⟨false, 2, none, false⟩, (nested.check 1 (.ofSecs 4133894400)).2) ∧
    (0 : Tick) < nested.nextTick := by
  have hreachable : nested.Reachable := .build _ _ _ build_nest
  have hbefore : (1 : Tick) < .last := by decide
  have hcheck : (nested.check 1 (.ofSecs 4133894400)).1 = ⟨true, 2, none, false⟩ := by
    decide +kernel
  obtain ⟨-, -, hkeys, hagain, hbuilt⟩ :=
    hreachable.looks_ahead hbefore (.ofSecs 4133894400)
  rw [hcheck] at hagain
  exact ⟨hreachable, hbefore, hcheck, hkeys, hagain, hbuilt _ _ (by decide) build_nest⟩

end Schedule

end Metronome
