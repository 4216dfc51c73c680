import Metronome.Proofs.Schedule.Check

/-!
# Looking without moving on

A schedule can be asked what it would answer, and it can be looked at. For a group these are two
ways of going about it: the one goes through the children as they stand in the heap and puts their
answers together, the other takes out the children that are to be looked at, puts back what is left
of them, and reads its answer off the heap. Both say the same, for groups inside groups as well.

## Main results

* `unite_checkChild` — the heap of a group after a look says what the answers of its children say
* `Sound.probe_eq` — the answer without moving on is the answer of a look
* `Reachable.probe_eq_check` — this of schedules that come from descriptions, which then are where
  the answer says
-/

namespace Metronome.Schedule

variable {q : Queue Schedule} {s : Schedule} {tick : Tick} {now : Instant}

/-- The answers of the children of a group, as they stand in the heap. -/
def answers (tick : Tick) (now : Instant) (q : Queue Schedule) : List Advance :=
  q.scan.map fun e => (checkChild tick now e).1

theorem mem_answers {a : Advance} :
    a ∈ answers tick now q ↔ ∃ e ∈ q.entries, (checkChild tick now e).1 = a := by
  rw [answers, List.mem_map, Queue.scan]
  simp only [Array.mem_toList_iff]

theorem due_unite (h : q.WF) :
    (unite tick (answers tick now q)).due = ((group q).check tick now).1.due := by
  rw [Bool.eq_iff_iff, due_check_group h, unite, List.any_eq_true]
  simp only [mem_answers]
  constructor
  · rintro ⟨_, ⟨e, he, rfl⟩, hdue⟩
    exact ⟨e, he, hdue⟩
  · rintro ⟨e, he, hdue⟩
    exact ⟨_, ⟨e, he, rfl⟩, hdue⟩

theorem exhausted_unite (h : q.WF) (tick : Tick) (now : Instant) :
    (unite tick (answers tick now q)).exhausted = ((group q).check tick now).1.exhausted := by
  rw [Bool.eq_iff_iff, exhausted_check_group h, unite, List.isEmpty_iff, List.filter_eq_nil_iff]
  simp only [mem_answers, Bool.not_eq_true', Bool.not_eq_false]
  constructor
  · intro hall e he
    exact hall _ ⟨e, he, rfl⟩
  · rintro hall _ ⟨e, he, rfl⟩
    exact hall e he

/-- The least tick under which a child waits is the least one that an answer names. -/
theorem le_nextPriority_checkAll_iff (h : q.WF) {t : Tick} :
    t ≤ (checkAll tick now q).nextPriority ↔
      ∀ a ∈ (answers tick now q).filter (fun a => !a.exhausted), t ≤ a.nextTick := by
  rw [(wf_checkAll h tick now).le_next_iff]
  simp only [mem_checkAll h, place?_eq_some_iff, List.mem_filter, mem_answers, Bool.not_eq_true']
  constructor
  · rintro hall _ ⟨⟨e, he, rfl⟩, hlive⟩
    exact hall _ ⟨e, he, hlive, rfl⟩
  · rintro hall _ ⟨e, he, hlive, rfl⟩
    exact hall _ ⟨⟨e, he, rfl⟩, hlive⟩

theorem nextTick_unite (h : q.WF) :
    (unite tick (answers tick now q)).nextTick = ((group q).check tick now).1.nextTick := by
  have hempty : ((answers tick now q).filter fun a => !a.exhausted).isEmpty =
      (checkAll tick now q).isEmpty := by
    have hexhausted := exhausted_unite h tick now
    rwa [check_group] at hexhausted
  rw [check_group]
  simp only [unite, hempty]
  split
  · rfl
  · refine Tick.eq_of_forall_le_iff fun t => ?_
    -- the fold begins with the last tick, which is no bound
    rw [le_foldl_min_iff, le_nextPriority_checkAll_iff h]
    exact and_iff_right t.le_last

/-- The children that a look leaves in a group fire next when the answers say. Those that it drops
do not fire again. -/
theorem nextStart_unite (h : q.WF) :
    (unite tick (answers tick now q)).nextStart = ((group q).check tick now).1.nextStart := by
  rw [check_group, nextStart_group, unite]
  refine earliest_congr fun t => ?_
  simp only [List.mem_map, mem_answers, Queue.scan, Array.mem_toList_iff, mem_checkAll h,
    place?_eq_some_iff]
  constructor
  · rintro ⟨_, ⟨e, he, rfl⟩, hstart⟩
    have hlive : (checkChild tick now e).1.exhausted = false := by
      by_contra hexhausted
      rw [nextStart_checkChild_of_exhausted (Bool.eq_true_of_not_eq_false hexhausted)] at hstart
      cases hstart
    exact ⟨_, ⟨e, he, hlive, rfl⟩, (nextStart_checkChild tick now e).trans hstart⟩
  · rintro ⟨_, ⟨e, he, -, rfl⟩, hstart⟩
    exact ⟨_, ⟨e, he, rfl⟩, (nextStart_checkChild tick now e).symm.trans hstart⟩

/-- The heap of a group after a look says what the answers of its children say. -/
theorem unite_checkChild (h : q.WF) :
    unite tick (answers tick now q) = ((group q).check tick now).1 :=
  Advance.ext (due_unite h) (nextTick_unite h) (nextStart_unite h) (exhausted_unite h tick now)

/-- What a schedule would answer is what it answers. -/
theorem Sound.probe_eq (h : s.Sound) : s.probe tick now = (s.check tick now).1 := by
  induction h with
  | interval s =>
    rw [probe, Schedule.check]
    rfl
  | recurrence s =>
    rw [probe, Schedule.check]
    rfl
  | group q keyed children ih =>
    rw [probe_group, ← unite_checkChild keyed.wf]
    congr 1
    refine List.map_congr_left fun e he => ?_
    -- a child that has not asked for a look is not asked either
    unfold checkChild
    split
    · exact ih e (Array.mem_toList_iff.mp he)
    · rfl

/-- Whatever a schedule that comes from a description would answer at a tick is what it answers when
it is looked at. Unless it is exhausted, it then asks for the tick and fires at the point that the
answer names. -/
theorem Reachable.probe_eq_check (h : s.Reachable) (tick : Tick) (now : Instant) :
    s.probe tick now = (s.check tick now).1 ∧
      ((s.check tick now).1.exhausted = false →
        (s.check tick now).2.nextTick = (s.check tick now).1.nextTick ∧
          (s.check tick now).2.nextStart = (s.check tick now).1.nextStart) :=
  ⟨h.sound.probe_eq, fun hlive =>
    ⟨s.nextTick_check tick now hlive, s.nextStart_check tick now⟩⟩

/-- A group in a group, for every other tick, for every third one, and for the last moment of which
patterns speak. -/
def nest : ScheduleSpec :=
  .any [.every (.ofMillis 200), .any [.every (.ofMillis 300), .cron "0 0 0 31 12 * 2100"]]

/-- What it is built into a tick before that moment. -/
def nested : Schedule :=
  let inner := [interval (.starting 3 0), recurrence .final]
  let outer :=
    [interval (.starting 2 0), group (inner.foldl (fun q s => q.push s s.nextTick) .empty)]
  group (outer.foldl (fun q s => q.push s s.nextTick) .empty)

theorem build_nest : nest.build ⟨0, ⟨4133894399900000000⟩, .ofMillis 100, 10⟩ = .ok nested := by
  simp only [nest, ScheduleSpec.build, ScheduleSpec.buildAll, ScheduleSpec.buildCron_final]
  rfl

/-- The recurrence of the inner group is due for the last time, and the intervals remain. -/
theorem probe_eq_check_nested : nested.Reachable ∧
    nested.probe 1 (.ofSecs 4133894400) = ⟨true, 2, none, false⟩ ∧
    (nested.check 1 (.ofSecs 4133894400)).2.nextTick = 2 ∧
    (nested.check 1 (.ofSecs 4133894400)).2.nextStart = none := by
  have hreachable : nested.Reachable := .build _ _ _ build_nest
  have hcheck : (nested.check 1 (.ofSecs 4133894400)).1 = ⟨true, 2, none, false⟩ := by
    decide +kernel
  obtain ⟨hprobe, hplace⟩ := hreachable.probe_eq_check 1 (.ofSecs 4133894400)
  rw [hcheck] at hprobe hplace
  exact ⟨hreachable, hprobe, hplace rfl⟩

end Metronome.Schedule
