import Metronome.Proofs.Schedule.Lone

/-!
# A group as a union

A group is looked at when it asks for it, and looks at those of its children that have asked for it.
If each of the children is driven on its own instead, the same is due at the same ticks: the group
asks for the least of the ticks that they ask for, is due if one of them is, holds those that are
not exhausted, each where it would be on its own, and is exhausted with the last of them.

## Main definitions

* `look`, `drive`, `reports` — a schedule that is looked at whenever it has asked for it
* `IsUnion` — what a group has to do with schedules that are driven on their own

## Main results

* `Joins.look` — what one evaluation of a group keeps, and what is answered at it
* `isUnion_drive` — a group is the union of its children at all times
-/

namespace Metronome.Schedule

/-- One evaluation of a schedule, which is looked at if it has asked for it by this tick: its
answer, and the schedule afterwards. -/
def look (s : Schedule) (tick : Tick) (now : Instant) : Option Advance × Schedule :=
  if s.nextTick ≤ tick then
    let (advance, s) := s.check tick now
    (some advance, s)
  else (none, s)

/-- The schedule after a sequence of evaluations. -/
def drive (s : Schedule) : List (Tick × Instant) → Schedule
  | [] => s
  | (tick, now) :: es => (s.look tick now).2.drive es

/-- What a schedule has answered at a sequence of evaluations. -/
def reports (s : Schedule) : List (Tick × Instant) → List (Option Advance)
  | [] => []
  | (tick, now) :: es => (s.look tick now).1 :: (s.look tick now).2.reports es

/-- What a group has to do with schedules that are driven on their own. -/
structure IsUnion (g : Schedule) (ls : List Lone) : Prop where
  /-- Its children are those that are not exhausted, where they are on their own. -/
  children : ∃ q, g = group q ∧ q.contents.map Entry.value = (Lone.survivors ls : Multiset Schedule)
  /-- It asks for the least of the ticks that they ask for. -/
  nextTick : Lone.survivors ls ≠ [] →
    IsLeast {t | ∃ s ∈ Lone.survivors ls, s.nextTick = t} g.nextTick
  /-- If there are none, it asks for the last tick of all. -/
  nextTick_nil : Lone.survivors ls = [] → g.nextTick = Tick.last
  /-- It fires next at the earliest of the points at which they do. -/
  nextStart : ∀ t, g.nextStart = some t ↔
    IsLeast {u | ∃ s ∈ Lone.survivors ls, s.nextStart = some u} t

variable {q : Queue Schedule} {ls : List Lone} {ss : List Schedule} {tick : Tick} {now : Instant}
  {es : List (Tick × Instant)}

/-- The children of a group wait under the ticks that they ask for, and are those of several
schedules that are not exhausted. -/
structure Joins (q : Queue Schedule) (ls : List Lone) : Prop extends Keyed q where
  values : q.contents.map Entry.value = (Lone.survivors ls : Multiset Schedule)

theorem Joins.mem_iff (h : Joins q ls) {s : Schedule} :
    s ∈ Lone.survivors ls ↔ ∃ e ∈ q.entries, e.value = s := by
  rw [← Multiset.mem_coe, ← h.values, Multiset.mem_map]
  simp only [Queue.mem_contents]

theorem Joins.entries_eq_empty_iff (h : Joins q ls) :
    q.entries = #[] ↔ Lone.survivors ls = [] := by
  rw [← Array.isEmpty_iff, ← Queue.isEmpty, Queue.isEmpty_iff,
    ← Multiset.map_eq_zero (f := Entry.value), h.values, Multiset.coe_eq_zero]

theorem Joins.isUnion (h : Joins q ls) : IsUnion (group q) ls := by
  have hnext (hne : q.entries ≠ #[]) :
      IsLeast {t | ∃ s ∈ Lone.survivors ls, s.nextTick = t} q.nextPriority := by
    have hticks : {t | ∃ s ∈ Lone.survivors ls, s.nextTick = t} =
        {p | ∃ e ∈ q.entries, e.priority = p} := by
      ext t
      simp only [Set.mem_ofPred_eq, h.mem_iff]
      constructor
      · rintro ⟨_, ⟨e, he, rfl⟩, rfl⟩
        exact ⟨e, he, h.priority e he⟩
      · rintro ⟨e, he, rfl⟩
        exact ⟨_, ⟨e, he, rfl⟩, (h.priority e he).symm⟩
    rw [hticks]
    exact h.wf.isLeast_next hne
  have hpoints : points (q.scan.map fun e => e.value.nextStart) =
      {u | ∃ s ∈ Lone.survivors ls, s.nextStart = some u} := by
    ext u
    simp only [points, Set.mem_ofPred_eq, h.mem_iff, Queue.scan, List.mem_map, Array.mem_toList_iff]
    constructor
    · rintro ⟨e, he, hstart⟩
      exact ⟨_, ⟨e, he, rfl⟩, hstart⟩
    · rintro ⟨_, ⟨e, he, rfl⟩, hstart⟩
      exact ⟨e, he, hstart⟩
  refine ⟨⟨q, rfl, h.values⟩, fun hne => ?_, fun hnil => ?_, fun t => ?_⟩
  · rw [Schedule.nextTick]
    exact hnext (mt h.entries_eq_empty_iff.mp hne)
  · rw [Schedule.nextTick]
    exact h.wf.next_of_empty (h.entries_eq_empty_iff.mpr hnil)
  · rw [nextStart_group, earliest_eq_some_iff, hpoints]

/-- The children of a group after a look are what is left of the schedules after a tick. -/
theorem Joins.checkAll (h : Joins q ls) (tick : Tick) (now : Instant) :
    Joins (checkAll tick now q) (ls.map fun l => l.tick tick now) := by
  refine ⟨h.toKeyed.checkAll tick now, ?_⟩
  -- a child waits under the tick that it asks for, so it is looked at when it would be on its own
  have hchild : (q.contents.filterMap fun e => (place? (checkChild tick now e)).map Entry.value) =
      q.contents.filterMap fun e => Lone.next? tick now e.value := by
    rw [Queue.contents, Multiset.filterMap_coe, Multiset.filterMap_coe]
    congr 1
    refine List.filterMap_congr fun e he => ?_
    rw [Lone.next?, ← h.priority e (Array.mem_toList_iff.mp he), checkChild]
    split
    · unfold place?
      split <;> rfl
    · rfl
  calc (Schedule.checkAll tick now q).contents.map Entry.value
      = q.contents.filterMap fun e => (place? (checkChild tick now e)).map Entry.value := by
        rw [contents_checkAll h.wf, Multiset.map_filterMap]
    _ = (q.contents.map Entry.value).filterMap (Lone.next? tick now) := by
        rw [hchild, Multiset.filterMap_map]
        rfl
    _ = (Lone.survivors (ls.map fun l => l.tick tick now) : Multiset Schedule) := by
        rw [h.values, Multiset.filterMap_coe, Lone.survivors_tick]

/-! ### One evaluation -/

/-- The answer of a group at an evaluation agrees with schedules that are driven on their own. -/
structure Agrees (answer : Option Advance) (ls : List Lone) (tick : Tick) (now : Instant) :
    Prop where
  /-- It is due if one of them is. -/
  due : (∃ a, answer = some a ∧ a.due = true) ↔ ∃ l ∈ ls, l.due tick now = true
  /-- It is exhausted if none of them is left. -/
  exhausted : ∀ a, answer = some a →
    (a.exhausted = true ↔ Lone.survivors (ls.map fun l => l.tick tick now) = [])
  /-- There is an answer if one of them is looked at. -/
  asked : answer = none → ∀ l ∈ ls, l.asks tick = false

/-- A group asks for a look if one of its children does. -/
theorem Joins.quiet (h : Joins q ls) (hlater : ¬ q.nextPriority ≤ tick) :
    ∀ l ∈ ls, l.asks tick = false := by
  intro l hl
  refine Bool.eq_false_iff.mpr fun hasks => ?_
  obtain ⟨hlive, hle⟩ := Lone.asks_iff.mp hasks
  obtain ⟨e, he, hvalue⟩ := h.mem_iff.mp (Lone.mem_survivors.mpr ⟨l, hl, hlive, rfl⟩)
  have hmin := h.wf.le_next_iff.mp (Tick.le_def.mpr (Int.le_refl _)) e he
  rw [h.priority e he, hvalue] at hmin
  exact hlater (Tick.le_def.mpr (Int.le_trans hmin hle))

/-- A group is due at a look if one of its children is due on its own. -/
theorem Joins.due_check (h : Joins q ls) :
    ((group q).check tick now).1.due = true ↔ ∃ l ∈ ls, l.due tick now = true := by
  rw [due_check_group h.wf]
  constructor
  · rintro ⟨e, he, hdue⟩
    obtain ⟨l, hl, hlive, hschedule⟩ := Lone.mem_survivors.mp (h.mem_iff.mpr ⟨e, he, rfl⟩)
    refine ⟨l, hl, Lone.due_iff.mpr ?_⟩
    unfold checkChild at hdue
    split at hdue
    · next hasked =>
      rw [Lone.asks_iff, hschedule, ← h.priority e he]
      exact ⟨⟨hlive, hasked⟩, hdue⟩
    · cases hdue
  · rintro ⟨l, hl, hdue⟩
    obtain ⟨hasks, hdue⟩ := Lone.due_iff.mp hdue
    obtain ⟨hlive, hle⟩ := Lone.asks_iff.mp hasks
    obtain ⟨e, he, hvalue⟩ := h.mem_iff.mp (Lone.mem_survivors.mpr ⟨l, hl, hlive, rfl⟩)
    refine ⟨e, he, ?_⟩
    rw [checkChild, if_pos (by rwa [h.priority e he, hvalue]), hvalue]
    exact hdue

/-- What one evaluation of a group keeps, and what is answered at it. -/
theorem Joins.look (h : Joins q ls) (tick : Tick) (now : Instant) :
    ∃ q', ((group q).look tick now).2 = group q' ∧
      Joins q' (ls.map fun l => l.tick tick now) ∧
      Agrees ((group q).look tick now).1 ls tick now := by
  by_cases hasks : q.nextPriority ≤ tick
  · have hlook : (group q).look tick now =
        (some ((group q).check tick now).1, group (Schedule.checkAll tick now q)) := by
      rw [Schedule.look, Schedule.nextTick, if_pos hasks, check_group]
    have hjoins := h.checkAll tick now
    rw [hlook]
    refine ⟨_, rfl, hjoins, ⟨?_, ?_, fun hnone => by cases hnone⟩⟩
    · rw [← h.due_check]
      simp
    · intro a ha
      cases ha
      rw [check_group, Queue.isEmpty, Array.isEmpty_iff]
      exact hjoins.entries_eq_empty_iff
  · have hquiet := h.quiet hasks
    have hlook : (group q).look tick now = (none, group q) := by
      rw [Schedule.look, Schedule.nextTick, if_neg hasks]
    rw [hlook, Lone.map_tick_of_quiet hquiet]
    refine ⟨q, rfl, h, ⟨?_, fun a ha => (by cases ha), fun _ => hquiet⟩⟩
    constructor
    · rintro ⟨a, ha, -⟩
      cases ha
    · rintro ⟨l, hl, hdue⟩
      have hasks := (Lone.due_iff.mp hdue).1
      rw [hquiet l hl] at hasks
      cases hasks

/-! ### Sequences of evaluations -/

/-- A group stays what the schedules have become that are driven on their own. -/
theorem Joins.drive (h : Joins q ls) (es : List (Tick × Instant)) :
    ∃ q', (group q).drive es = group q' ∧ Joins q' (ls.map fun l => l.drive es) := by
  induction es generalizing q ls with
  | nil => exact ⟨q, rfl, by simpa [Lone.drive] using h⟩
  | cons e es ih =>
    obtain ⟨q', hgroup, hjoins, -⟩ := h.look e.1 e.2
    obtain ⟨q'', hdrive, hjoins'⟩ := ih hjoins
    refine ⟨q'', ?_, ?_⟩
    · rw [Schedule.drive, hgroup, hdrive]
    · rwa [List.map_map] at hjoins'

/-- Once none of the schedules is left, none comes back. -/
theorem survivors_drive_of_nil (h : Lone.survivors ls = []) (es : List (Tick × Instant)) :
    Lone.survivors (ls.map fun l => l.drive es) = [] := by
  induction es generalizing ls with
  | nil => simpa [Lone.drive] using h
  | cons e es ih =>
    have htick : Lone.survivors (ls.map fun l => l.tick e.1 e.2) = [] := by
      rw [Lone.survivors_tick, h, List.filterMap_nil]
    have hrest := ih htick
    rwa [List.map_map] at hrest

/-- A group has said that it is exhausted when none of its children is left. -/
theorem Joins.exhausted_reports (h : Joins q ls) (hne : Lone.survivors ls ≠ [])
    (es : List (Tick × Instant)) :
    (∃ a, some a ∈ (group q).reports es ∧ a.exhausted = true) ↔
      Lone.survivors (ls.map fun l => l.drive es) = [] := by
  induction es generalizing q ls with
  | nil => simpa [reports, Lone.drive] using hne
  | cons e es ih =>
    obtain ⟨q', hgroup, hjoins, hagrees⟩ := h.look e.1 e.2
    have hdrive : (ls.map fun l => l.drive (e :: es)) =
        (ls.map fun l => l.tick e.1 e.2).map fun l => l.drive es := by
      rw [List.map_map]
      rfl
    rw [reports, hgroup, hdrive]
    by_cases hnil : Lone.survivors (ls.map fun l => l.tick e.1 e.2) = []
    · -- the last of them has been looked at, and so has the group
      refine iff_of_true ?_ (survivors_drive_of_nil hnil es)
      cases hanswer : ((group q).look e.1 e.2).1 with
      | none =>
        -- had the group not been looked at, none of them would have been
        rw [Lone.map_tick_of_quiet (hagrees.asked hanswer)] at hnil
        exact absurd hnil hne
      | some a =>
        exact ⟨a, List.mem_cons_self, (hagrees.exhausted a hanswer).mpr hnil⟩
    · -- this evaluation has not been the last one, so it is up to the others
      rw [← ih hjoins hnil]
      constructor
      · rintro ⟨a, ha, hexhausted⟩
        rcases List.mem_cons.mp ha with hanswer | ha
        · exact absurd ((hagrees.exhausted a hanswer.symm).mp hexhausted) hnil
        · exact ⟨a, ha, hexhausted⟩
      · rintro ⟨a, ha, hexhausted⟩
        exact ⟨a, List.mem_cons_of_mem _ ha, hexhausted⟩

/-- A group that is put together from schedules joins them, each driven on its own from now on. -/
theorem exists_joins (hne : ss ≠ []) :
    ∃ q, group? ss = some (group q) ∧ Joins q (ss.map fun s => ⟨s, false⟩) := by
  obtain ⟨g, hg⟩ : ∃ g, group? ss = some g := by
    rw [group?, if_neg (mt List.isEmpty_iff.mp hne)]
    exact ⟨_, rfl⟩
  obtain ⟨-, q, rfl, hkeyed, hcontents⟩ := group?_eq_some hg
  refine ⟨q, hg, hkeyed, ?_⟩
  rw [hcontents, Lone.survivors, List.filterMap_map, Multiset.map_coe, List.map_map]
  simp [Function.comp_def, Lone.survivor?]

/-- At all times a group is the union of the schedules that it was put together from, each driven on
its own since; each evaluation of it is answered as they would answer, and it has said that it is
exhausted when none of them is left. -/
theorem isUnion_drive (hne : ss ≠ []) :
    ∃ g, group? ss = some g ∧ ∀ es : List (Tick × Instant),
      let ls := ss.map fun s => (Lone.mk s false).drive es
      IsUnion (g.drive es) ls ∧
        ((∃ a, some a ∈ g.reports es ∧ a.exhausted = true) ↔ Lone.survivors ls = []) ∧
        ∀ tick now, Agrees ((g.drive es).look tick now).1 ls tick now := by
  obtain ⟨q, hgroup, hjoins⟩ := exists_joins hne
  refine ⟨group q, hgroup, fun es => ?_⟩
  have hsurvivors : Lone.survivors (ss.map fun s => Lone.mk s false) ≠ [] := by
    simpa [Lone.survivors, Lone.survivor?, Function.comp_def] using hne
  have hreports := hjoins.exhausted_reports hsurvivors es
  obtain ⟨q', hdrive, hjoins'⟩ := hjoins.drive es
  rw [List.map_map] at hreports hjoins'
  refine ⟨?_, hreports, fun tick now => ?_⟩
  · rw [hdrive]
    exact hjoins'.isUnion
  · obtain ⟨-, -, -, hagrees⟩ := hjoins'.look tick now
    rw [hdrive]
    exact hagrees

/-- A group for every other tick and for the last moment of which patterns speak is due at that
moment, and then holds the interval alone. -/
theorem isUnion_drive_final :
    ∃ g, group? [interval (.starting 2 0), recurrence .final] = some g ∧
      (∃ a, (g.look 1 (.ofSecs 4133894400)).1 = some a ∧ a.due = true) ∧
      ∃ q, g.drive [(1, .ofSecs 4133894400)] = group q ∧
        q.contents.map Entry.value = {interval (.starting 2 0)} := by
  obtain ⟨g, hgroup, hall⟩ :=
    isUnion_drive (List.cons_ne_nil (interval (.starting 2 0)) [recurrence .final])
  obtain ⟨-, -, hagrees⟩ := hall []
  obtain ⟨⟨⟨q, hq, hvalues⟩, -, -, -⟩, -, -⟩ := hall [(1, .ofSecs 4133894400)]
  have hinterval : Lone.next? 1 (.ofSecs 4133894400) (interval (.starting 2 0)) =
      some (interval (.starting 2 0)) := if_neg (by decide +kernel)
  have hrecurrence : Lone.next? 1 (.ofSecs 4133894400) (recurrence .final) = none := by
    rw [Lone.next?, if_pos (by decide +kernel), if_pos (by decide +kernel)]
  have hleft : Lone.survivors
      ([Lone.mk (interval (.starting 2 0)) false, Lone.mk (recurrence .final) false].map
        fun l => l.tick 1 (.ofSecs 4133894400)) = [interval (.starting 2 0)] := by
    rw [Lone.survivors_tick]
    simp [Lone.survivors, Lone.survivor?, hinterval, hrecurrence]
  refine ⟨g, hgroup, ?_, q, hq, ?_⟩
  · refine (hagrees 1 (.ofSecs 4133894400)).due.mpr ⟨Lone.mk (recurrence .final) false, ?_, ?_⟩
    · exact List.mem_cons_of_mem _ List.mem_cons_self
    · decide +kernel
  · rw [hvalues]
    exact congrArg _ hleft

end Metronome.Schedule
