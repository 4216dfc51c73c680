import Metronome.Proofs.Schedule.Position

/-!
# Schedules look ahead

Whatever kind of schedule it is, it asks to be looked at under a later tick than that of its last
look, and of its start. That there is a later tick is all that this takes.

## Main results

* `Schedule.lt_nextTick_of_build` — a new schedule asks for a later tick than that of its anchor
* `Schedule.Sound.lt_nextTick_check` — and a schedule that was looked at, for a later one than that
-/

namespace Metronome

variable {t tick : Tick} {now : Instant} {n : Nat}

theorem Tick.lt_add (h : t < last) (hn : 1 ≤ n) : t < t + n := by
  rw [lt_def] at h ⊢
  rw [val_add]
  omega

/-- The tick after one that is not the last is up to all later ones. -/
theorem Tick.add_one_le_iff (h : t < last) {u : Tick} : t + 1 ≤ u ↔ t < u := by
  rw [lt_def] at h ⊢
  rw [le_def, val_add]
  omega

theorem Tick.max_add_one (h : t < last) {u : Tick} (hu : t < u) : max u (t + 1) = u := by
  ext
  rw [lt_def] at h hu
  rw [val_max, val_add]
  omega

/-- The queue comes after a tick if all of its entries do. -/
theorem Queue.WF.lt_next_iff {α : Type} {q : Queue α} (h : q.WF) (ht : t < .last) :
    t < q.nextPriority ↔ ∀ e ∈ q.entries, t < e.priority := by
  simp only [← Tick.add_one_le_iff ht, h.le_next_iff]

theorem Interval.lt_nextTick_probe (s : Interval) (h : tick < .last) :
    tick < (s.probe tick).nextTick := by
  unfold probe
  dsimp only
  split
  · exact Tick.lt_add h s.period_pos
  · next hlater => exact Int.not_le.mp hlater

namespace Recurrence

theorem one_le_ticksTo (s : Recurrence) (now target : Instant) : 1 ≤ s.ticksTo now target :=
  Nat.le_max_left 1 _

theorem lt_nextTick_probe (s : Recurrence) (now : Instant) (h : tick < .last) :
    tick < (s.probe tick now).nextTick := by
  unfold probe
  -- all answers name a number of ticks that is at least one
  split
  · exact Tick.lt_add h s.cap_pos
  · dsimp only
    split
    · split
      · exact Tick.lt_add h (s.one_le_ticksTo now _)
      · exact Tick.lt_add h s.cap_pos
    · exact Tick.lt_add h (s.one_le_ticksTo now _)

end Recurrence

namespace Schedule

variable {s : Schedule} {q : Queue Schedule}

/-- A schedule that was looked at asks for a later tick. -/
theorem Sound.lt_nextTick_check (hs : s.Sound) (h : tick < .last) :
    tick < (s.check tick now).1.nextTick := by
  induction hs with
  | interval s =>
    rw [Schedule.check]
    exact s.lt_nextTick_probe h
  | recurrence s =>
    rw [Schedule.check]
    exact s.lt_nextTick_probe now h
  | group q keyed children ih =>
    rw [check_group]
    dsimp only
    split
    · exact Tick.lt_add h (Nat.le_refl 1)
    · rw [(wf_checkAll keyed.wf tick now).lt_next_iff h]
      intro e he
      -- a child comes back with its answer, or has not asked for the tick
      obtain ⟨c, hc, hplace⟩ := (mem_checkAll keyed.wf).mp he
      obtain ⟨-, rfl⟩ := place?_eq_some_iff.mp hplace
      unfold checkChild
      split
      · exact ih c hc
      · next hlater => exact Int.not_le.mp hlater

theorem exists_nextTick_group? {ss : List Schedule} (hgroup : group? ss = some s)
    (hss : ∀ s ∈ ss, ∃ n, 1 ≤ n ∧ s.nextTick = t + n) : ∃ n, 1 ≤ n ∧ s.nextTick = t + n := by
  obtain ⟨hne, q, rfl, hkeyed, hcontents⟩ := group?_eq_some hgroup
  have hentries : q.entries ≠ #[] := by
    intro hempty
    rw [Queue.contents, hempty, Multiset.coe_eq_coe, List.nil_perm, List.map_eq_nil_iff]
      at hcontents
    exact hne hcontents
  -- the group asks for a tick that one of its children asks for
  obtain ⟨e, he, hleast⟩ := (hkeyed.wf.isLeast_next hentries).1
  rw [← Queue.mem_contents, hcontents, Multiset.mem_coe, List.mem_map] at he
  obtain ⟨s, hs, rfl⟩ := he
  obtain ⟨n, hn, hnext⟩ := hss s hs
  exact ⟨n, hn, hleast.symm.trans hnext⟩

theorem exists_nextTick_of_buildCron {a : Anchor} {pattern : String}
    (hcron : ScheduleSpec.buildCron a pattern = .ok s) :
    ∃ n, 1 ≤ n ∧ s.nextTick = a.tick + n := by
  unfold ScheduleSpec.buildCron at hcron
  split at hcron
  · next r hr =>
    obtain ⟨-, first, -, -, -, hnext⟩ := Recurrence.start?_eq_ok hr
    cases hcron
    exact ⟨_, r.one_le_ticksTo a.now first, hnext⟩
  · cases hcron
  · cases hcron

/-- A new schedule asks to be looked at a number of ticks after that of its anchor. -/
theorem exists_nextTick_of_build {a : Anchor} {spec : ScheduleSpec}
    (hbuild : spec.build a = .ok s) : ∃ n, 1 ≤ n ∧ s.nextTick = a.tick + n := by
  refine build_induction (P := fun s => ∃ n, 1 ≤ n ∧ s.nextTick = a.tick + n) ?_ ?_ ?_ spec s hbuild
  · intro length
    exact ⟨_, Nat.le_max_right _ 1, rfl⟩
  · intro pattern s hcron
    exact exists_nextTick_of_buildCron hcron
  · intro ss s hgroup hss
    exact exists_nextTick_group? hgroup hss

/-- A new schedule asks for a later tick than that of its anchor. -/
theorem lt_nextTick_of_build {a : Anchor} {spec : ScheduleSpec} (hbuild : spec.build a = .ok s)
    (h : a.tick < .last) : a.tick < s.nextTick := by
  obtain ⟨n, hn, hnext⟩ := exists_nextTick_of_build hbuild
  rw [hnext]
  exact Tick.lt_add h hn

end Schedule

end Metronome
