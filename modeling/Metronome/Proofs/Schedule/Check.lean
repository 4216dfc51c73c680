import Metronome.Proofs.Queue.Contents
import Metronome.Proofs.Schedule.Advance
import Metronome.Schedule.Spec

/-!
# Looking at a schedule

A look at a group takes out the children that have asked for it, looks at them, and puts those back
that are not exhausted. The heap makes no difference to what comes of this: each child is treated on
its own, and then waits where its answer says. The queues of a group, and of all the groups in it,
are in order from the moment when a description has become a schedule.

## Main definitions

* `checkChild`, `place?`, `checkAll` — what a look at a group makes of a child, and of all of them
* `Keyed` — the children of a group wait under the ticks that they ask for
* `Sound` — this holds of a schedule and of all the schedules in it
* `Reachable` — the schedules that come from descriptions

## Main results

* `nextTick_check`, `nextStart_check` — a schedule is where its answer says
* `contents_checkAll` — a look at a group treats each child on its own
* `Keyed.checkAll` — and leaves each under the tick that it asks for
* `Reachable.sound` — all schedules that come from descriptions are in order
-/

namespace Metronome

theorem Recurrence.nextStart_of_exhausted (s : Recurrence) {tick : Tick} {now : Instant}
    (h : (s.probe tick now).exhausted = true) : (s.probe tick now).nextStart = none := by
  unfold probe at h ⊢
  split
  · rfl
  · next start hstart =>
    rw [hstart] at h
    dsimp only at h ⊢
    split
    · next hle =>
      rw [if_pos hle] at h
      split
      · next next hnext =>
        rw [hnext] at h
        cases h
      · rfl
    · next hle =>
      rw [if_neg hle] at h
      cases h

namespace Schedule

variable {q : Queue Schedule} {e : Entry Schedule} {s : Schedule}
  {ss : List Schedule} {tick : Tick} {now : Instant}

/-! ### Where a schedule is after a look -/

/-- A schedule that goes on asks for the tick that its answer names. -/
theorem nextTick_check (s : Schedule) (tick : Tick) (now : Instant)
    (h : (s.check tick now).1.exhausted = false) :
    (s.check tick now).2.nextTick = (s.check tick now).1.nextTick := by
  cases s with
  | interval s =>
    rw [check]
    rfl
  | recurrence s =>
    rw [check]
    rfl
  | group children =>
    rw [check] at h ⊢
    dsimp only at h ⊢
    rw [if_neg (Bool.eq_false_iff.mp h), nextTick]

/-- A schedule fires next when its answer says. -/
theorem nextStart_check (s : Schedule) (tick : Tick) (now : Instant) :
    (s.check tick now).2.nextStart = (s.check tick now).1.nextStart := by
  cases s with
  | interval s =>
    rw [check, nextStart]
    rfl
  | recurrence s =>
    rw [check, nextStart]
    rfl
  | group children => rw [check]

/-! ### Looking at a group -/

/-- What a look at a group makes of a child: one that has asked for it is looked at, and one that
has not is not due and stays where it is. -/
def checkChild (tick : Tick) (now : Instant) (e : Entry Schedule) : Advance × Schedule :=
  if e.priority ≤ tick then e.value.check tick now
  else
    ({ due := false, nextTick := e.priority, nextStart := e.value.nextStart, exhausted := false },
      e.value)

/-- The place of a child in the queue, unless it is exhausted. -/
def place? (c : Advance × Schedule) : Option (Entry Schedule) :=
  if c.1.exhausted then none else some ⟨c.2, c.1.nextTick⟩

/-- The children of a group after a look at it. -/
def checkAll (tick : Tick) (now : Instant) (q : Queue Schedule) : Queue Schedule :=
  putBack (q.popAllDue tick).2 ((q.popAllDue tick).1.map fun e => e.value.check tick now)

theorem nextStart_group (q : Queue Schedule) :
    (group q).nextStart = earliest (q.scan.map fun e => e.value.nextStart) := by
  rw [nextStart]
  simp only [Array.toList_attach, List.map_subtype, List.unattach_attachWith]
  rfl

theorem probe_group (q : Queue Schedule) (tick : Tick) (now : Instant) :
    (group q).probe tick now = unite tick (q.scan.map fun e =>
      if e.priority ≤ tick then e.value.probe tick now
      else
        { due := false, nextTick := e.priority, nextStart := e.value.nextStart,
          exhausted := false }) := by
  rw [probe]
  simp only [Array.toList_attach, List.map_subtype, List.unattach_attachWith]
  rfl

theorem check_group (q : Queue Schedule) (tick : Tick) (now : Instant) :
    (group q).check tick now =
      ({ due := (q.popAllDue tick).1.any fun e => (e.value.check tick now).1.due
         nextTick :=
          if (checkAll tick now q).isEmpty then tick + 1 else (checkAll tick now q).nextPriority
         nextStart := (group (checkAll tick now q)).nextStart
         exhausted := (checkAll tick now q).isEmpty },
        group (checkAll tick now q)) := by
  rw [check]
  simp only [List.map_subtype, List.unattach_attach, List.any_map]
  rfl

theorem contents_putBack (q : Queue Schedule) (cs : List (Advance × Schedule)) :
    (putBack q cs).contents = cs.filterMap place? + q.contents := by
  unfold putBack
  induction cs generalizing q with
  | nil => simp
  | cons c cs ih =>
    cases hc : c.1.exhausted with
    | true => simpa [hc, place?] using ih q
    | false =>
      have hplace : place? c = some ⟨c.2, c.1.nextTick⟩ := by simp [place?, hc]
      rw [List.filter_cons_of_pos (by simp [hc]), List.foldl_cons, ih, Queue.contents_push,
        List.filterMap_cons_some hplace, Multiset.add_cons, ← Multiset.cons_coe, Multiset.cons_add]

theorem wf_putBack (h : q.WF) (cs : List (Advance × Schedule)) : (putBack q cs).WF := by
  unfold putBack
  induction cs.filter (fun c => !c.1.exhausted) generalizing q with
  | nil => exact h
  | cons c cs ih => exact ih (h.push _ _)

theorem wf_checkAll (h : q.WF) (tick : Tick) (now : Instant) : (checkAll tick now q).WF :=
  wf_putBack (h.popAllDue tick) _

/-- A look at a group treats each child on its own. -/
theorem contents_checkAll (h : q.WF) (tick : Tick) (now : Instant) :
    (checkAll tick now q).contents =
      q.contents.filterMap fun e => place? (checkChild tick now e) := by
  -- the children that have asked for the look are checked, and the others stay as they are
  have hasked : (q.popAllDue tick).1.filterMap (fun e => place? (e.value.check tick now)) =
      (q.popAllDue tick).1.filterMap fun e => place? (checkChild tick now e) := by
    refine List.filterMap_congr fun e he => ?_
    rw [checkChild, if_pos (h.mem_popAllDue.mp he).2]
  have hwaiting : (q.popAllDue tick).2.entries.toList.filterMap
      (fun e => place? (checkChild tick now e)) = (q.popAllDue tick).2.entries.toList := by
    refine (List.filterMap_congr fun e he => ?_).trans List.filterMap_some
    have hlater := (h.mem_entries_popAllDue.mp (Array.mem_toList_iff.mp he)).2
    rw [checkChild, if_neg hlater, place?]
    rfl
  calc (checkAll tick now q).contents
      = ((q.popAllDue tick).1.filterMap fun e => place? (e.value.check tick now)) +
          (q.popAllDue tick).2.contents := by
        rw [checkAll, contents_putBack, List.filterMap_map]
        rfl
    _ = ((q.popAllDue tick).1 : Multiset (Entry Schedule)).filterMap
            (fun e => place? (checkChild tick now e)) +
          (q.popAllDue tick).2.contents.filterMap fun e => place? (checkChild tick now e) := by
        rw [hasked, Queue.contents, Multiset.filterMap_coe, Multiset.filterMap_coe, hwaiting]
    _ = q.contents.filterMap fun e => place? (checkChild tick now e) := by
        rw [← Multiset.filterMap_add, h.coe_popAllDue, h.contents_popAllDue,
          Multiset.filter_add_not]

theorem mem_checkAll (h : q.WF) :
    e ∈ (checkAll tick now q).entries ↔
      ∃ c ∈ q.entries, place? (checkChild tick now c) = some e := by
  rw [← Queue.mem_contents, contents_checkAll h, Multiset.mem_filterMap]
  simp only [Queue.mem_contents]

theorem place?_eq_some_iff {c : Advance × Schedule} :
    place? c = some e ↔ c.1.exhausted = false ∧ ⟨c.2, c.1.nextTick⟩ = e := by
  unfold place?
  cases c.1.exhausted <;> simp

/-- A group is due if one of its children is. -/
theorem due_check_group (h : q.WF) :
    ((group q).check tick now).1.due = true ↔
      ∃ e ∈ q.entries, (checkChild tick now e).1.due = true := by
  rw [check_group, List.any_eq_true]
  constructor
  · rintro ⟨e, he, hdue⟩
    obtain ⟨hmem, hasked⟩ := h.mem_popAllDue.mp he
    refine ⟨e, hmem, ?_⟩
    rwa [checkChild, if_pos hasked]
  · rintro ⟨e, he, hdue⟩
    -- a child that has not asked for the look is not due
    by_cases hasked : e.priority ≤ tick
    · rw [checkChild, if_pos hasked] at hdue
      exact ⟨e, h.mem_popAllDue.mpr ⟨he, hasked⟩, hdue⟩
    · rw [checkChild, if_neg hasked] at hdue
      cases hdue

/-- A group is exhausted if all its children are. -/
theorem exhausted_check_group (h : q.WF) :
    ((group q).check tick now).1.exhausted = true ↔
      ∀ e ∈ q.entries, (checkChild tick now e).1.exhausted = true := by
  rw [check_group, Queue.isEmpty_iff, contents_checkAll h, Multiset.eq_zero_iff_forall_notMem]
  simp only [Multiset.mem_filterMap, Queue.mem_contents, place?_eq_some_iff]
  constructor
  · intro hnone e he
    by_contra hlive
    exact hnone _ ⟨e, he, Bool.eq_false_iff.mpr hlive, rfl⟩
  · rintro hall e' ⟨e, he, hlive, -⟩
    rw [hall e he] at hlive
    cases hlive

/-- Nothing that is exhausted fires again. -/
theorem nextStart_of_exhausted (s : Schedule) (h : (s.check tick now).1.exhausted = true) :
    (s.check tick now).1.nextStart = none := by
  cases s with
  | interval s =>
    rw [check] at h
    cases h
  | recurrence s =>
    rw [check] at h ⊢
    exact s.nextStart_of_exhausted h
  | group q =>
    rw [check_group] at h ⊢
    rw [Queue.isEmpty, Array.isEmpty_iff] at h
    rw [nextStart_group, Queue.scan, h]
    rfl

/-- A child fires next when its answer says. -/
theorem nextStart_checkChild (tick : Tick) (now : Instant) (e : Entry Schedule) :
    (checkChild tick now e).2.nextStart = (checkChild tick now e).1.nextStart := by
  unfold checkChild
  split
  · exact e.value.nextStart_check tick now
  · rfl

/-- A child that is dropped does not fire again. -/
theorem nextStart_checkChild_of_exhausted (h : (checkChild tick now e).1.exhausted = true) :
    (checkChild tick now e).1.nextStart = none := by
  unfold checkChild at h ⊢
  split
  · next hasked =>
    rw [if_pos hasked] at h
    exact e.value.nextStart_of_exhausted h
  · next hasked =>
    rw [if_neg hasked] at h
    cases h

/-! ### Children that wait under the ticks that they ask for -/

/-- The queue of a group is in order, and each child waits under the tick that it asks for. -/
structure Keyed (q : Queue Schedule) : Prop where
  wf : q.WF
  priority : ∀ e ∈ q.entries, e.priority = e.value.nextTick

theorem keyed_empty : Keyed .empty :=
  ⟨Queue.wf_empty, fun e he => absurd he (Array.not_mem_empty e)⟩

theorem Keyed.push (h : Keyed q) (s : Schedule) : Keyed (q.push s s.nextTick) := by
  refine ⟨h.wf.push _ _, fun e he => ?_⟩
  rcases Queue.mem_push.mp he with hmem | rfl
  · exact h.priority e hmem
  · rfl

/-- A child waits where its answer says, and so under the tick that it now asks for. -/
theorem Keyed.checkAll (h : Keyed q) (tick : Tick) (now : Instant) :
    Keyed (checkAll tick now q) := by
  refine ⟨wf_checkAll h.wf tick now, fun e he => ?_⟩
  obtain ⟨c, hc, hplace⟩ := (mem_checkAll h.wf).mp he
  obtain ⟨hlive, rfl⟩ := place?_eq_some_iff.mp hplace
  unfold checkChild at hlive ⊢
  split
  · next hasked =>
    rw [if_pos hasked] at hlive
    exact (c.value.nextTick_check tick now hlive).symm
  · exact h.priority c hc

/-- A group that is put together from schedules. -/
theorem keyed_foldl_push (h : Keyed q) (ss : List Schedule) :
    Keyed (ss.foldl (fun q s => q.push s s.nextTick) q) ∧
      (ss.foldl (fun q s => q.push s s.nextTick) q).contents =
        (ss.map fun s => ⟨s, s.nextTick⟩ : List (Entry Schedule)) + q.contents := by
  induction ss generalizing q with
  | nil => exact ⟨h, (Multiset.zero_add _).symm⟩
  | cons s ss ih =>
    obtain ⟨hkeyed, hcontents⟩ := ih (h.push s)
    refine ⟨hkeyed, ?_⟩
    rw [List.foldl_cons, hcontents, Queue.contents_push, List.map_cons, Multiset.add_cons,
      ← Multiset.cons_coe, Multiset.cons_add]

theorem group?_eq_some (h : group? ss = some s) :
    ss ≠ [] ∧ ∃ q, s = group q ∧ Keyed q ∧
      q.contents = (ss.map fun s => ⟨s, s.nextTick⟩ : List (Entry Schedule)) := by
  unfold group? at h
  split at h
  · cases h
  · next hne =>
    cases h
    obtain ⟨hkeyed, hcontents⟩ := keyed_foldl_push keyed_empty ss
    refine ⟨fun hnil => hne (List.isEmpty_iff.mpr hnil), _, rfl, hkeyed, ?_⟩
    rw [hcontents]
    exact Multiset.add_zero _

/-! ### Schedules that come from descriptions -/

/-- The children of a schedule, and theirs in turn, wait under the ticks that they ask for. -/
inductive Sound : Schedule → Prop
  | interval (s : Interval) : Sound (.interval s)
  | recurrence (s : Recurrence) : Sound (.recurrence s)
  | group (q : Queue Schedule) (keyed : Keyed q) (children : ∀ e ∈ q.entries, Sound e.value) :
      Sound (.group q)

/-- A schedule that comes from a description, and may have been looked at since. -/
inductive Reachable : Schedule → Prop
  | build (a : Anchor) (spec : ScheduleSpec) (s : Schedule) (built : spec.build a = .ok s) :
      Reachable s
  | check (tick : Tick) (now : Instant) {s : Schedule} (reachable : Reachable s) :
      Reachable (s.check tick now).2

theorem Sound.check (h : s.Sound) (tick : Tick) (now : Instant) : (s.check tick now).2.Sound := by
  induction h with
  | interval s =>
    rw [Schedule.check]
    exact .interval _
  | recurrence s =>
    rw [Schedule.check]
    exact .recurrence _
  | group q keyed children ih =>
    rw [check_group]
    refine .group _ (keyed.checkAll tick now) fun e he => ?_
    -- whatever is in the queue now has been in it before, looked at since or not
    obtain ⟨c, hc, hplace⟩ := (mem_checkAll keyed.wf).mp he
    obtain ⟨-, rfl⟩ := place?_eq_some_iff.mp hplace
    unfold checkChild
    split
    · exact ih c hc
    · exact children c hc

theorem sound_group? (h : group? ss = some s) (hss : ∀ t ∈ ss, t.Sound) : s.Sound := by
  obtain ⟨-, q, rfl, hkeyed, hcontents⟩ := group?_eq_some h
  refine .group q hkeyed fun e he => ?_
  rw [← Queue.mem_contents, hcontents, Multiset.mem_coe, List.mem_map] at he
  obtain ⟨t, ht, rfl⟩ := he
  exact hss t ht

/-- The recurrence of a pattern is a schedule of its own. -/
theorem sound_of_buildCron {a : Anchor} {pattern : String}
    (h : ScheduleSpec.buildCron a pattern = .ok s) : s.Sound := by
  unfold ScheduleSpec.buildCron at h
  split at h
  · next r _ =>
    cases h
    exact .recurrence r
  · cases h
  · cases h

/-- What holds of the schedules of single descriptions, and of a group if it holds of its parts,
holds of whatever a description is built into. -/
theorem build_induction {a : Anchor} {P : Schedule → Prop}
    (every : ∀ length, P (.interval (.starting (a.ticksFor length) a.tick)))
    (cron : ∀ pattern s, ScheduleSpec.buildCron a pattern = .ok s → P s)
    (group : ∀ ss s, group? ss = some s → (∀ t ∈ ss, P t) → P s) (spec : ScheduleSpec) :
    ∀ s, spec.build a = .ok s → P s := by
  -- a description and a list of descriptions are built by the same recursion
  refine ScheduleSpec.build.induct a (fun spec => ∀ s, spec.build a = .ok s → P s)
    (fun specs => ∀ ss, ScheduleSpec.buildAll a specs = .ok ss → ∀ s ∈ ss, P s)
    ?zero ?every ?cron ?partError ?any ?noPart ?nil ?firstError ?restError ?cons spec
  case zero =>
    intro length hzero s h
    rw [ScheduleSpec.build, if_pos hzero] at h
    cases h
  case every =>
    intro length hpos s h
    rw [ScheduleSpec.build, if_neg hpos] at h
    cases h
    exact every length
  case cron =>
    intro pattern s h
    rw [ScheduleSpec.build] at h
    exact cron pattern s h
  case partError =>
    intro specs e hall _ s h
    simp only [ScheduleSpec.build, hall] at h
    cases h
  case any =>
    intro specs ss hall t hgroup ih s h
    simp only [ScheduleSpec.build, hall, hgroup] at h
    cases h
    exact group ss t hgroup (ih ss hall)
  case noPart =>
    intro specs ss hall hgroup _ s h
    simp only [ScheduleSpec.build, hall, hgroup] at h
    cases h
  case nil =>
    intro ss h
    rw [ScheduleSpec.buildAll] at h
    cases h
    exact fun s hs => absurd hs List.not_mem_nil
  case firstError =>
    intro spec specs e hfirst _ ss h
    simp only [ScheduleSpec.buildAll, hfirst] at h
    cases h
  case restError =>
    intro spec specs s hfirst e hrest _ _ ss h
    simp only [ScheduleSpec.buildAll, hfirst, hrest] at h
    cases h
  case cons =>
    intro spec specs s hfirst rest hrest ihfirst ihrest ss h
    simp only [ScheduleSpec.buildAll, hfirst, hrest] at h
    cases h
    intro t ht
    rcases List.mem_cons.mp ht with rfl | ht
    · exact ihfirst t hfirst
    · exact ihrest rest hrest t ht

/-- What a description is built into is in order, part by part. -/
theorem sound_of_build (a : Anchor) (spec : ScheduleSpec) :
    ∀ s, spec.build a = .ok s → s.Sound :=
  build_induction (fun _ => .interval _) (fun _ _ => sound_of_buildCron)
    (fun _ _ => sound_group?) spec

theorem Reachable.sound (h : s.Reachable) : s.Sound := by
  induction h with
  | build a spec s built => exact sound_of_build a spec s built
  | check tick now _ ih => exact ih.check tick now

end Schedule

/-! ### A recurrence with one occurrence left -/

/-- A recurrence that waits for the last moment of which patterns speak, a tick ahead. -/
def Recurrence.final : Recurrence :=
  { text := "0 0 0 31 12 * 2100"
    pattern := ⟨[0], [0], [0], [31], [12], [1, 2, 3, 4, 5, 6, 7], [2100]⟩
    cap := 10
    tickWidth := .ofMillis 100
    nextStart := some (.ofSecs 4133894400)
    nextTick := 1
    cap_pos := by decide }

/-- What it answers when the moment has come. -/
def Advance.final : Advance := { due := true, nextTick := 11, nextStart := none, exhausted := true }

theorem Recurrence.start?_final :
    start? "0 0 0 31 12 * 2100" 10 (.ofMillis 100) 0 ⟨4133894399900000000⟩ = .ok final := by
  decide +kernel

theorem ScheduleSpec.buildCron_final :
    buildCron ⟨0, ⟨4133894399900000000⟩, .ofMillis 100, 10⟩ "0 0 0 31 12 * 2100" =
      .ok (.recurrence .final) := by
  unfold buildCron
  dsimp only
  rw [Recurrence.start?_final]

theorem Recurrence.probe_final : final.probe 1 (.ofSecs 4133894400) = .final := by
  decide +kernel

end Metronome
