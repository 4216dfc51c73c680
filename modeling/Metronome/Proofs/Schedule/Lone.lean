import Metronome.Proofs.Schedule.Check

/-!
# Schedules on their own

A schedule can be driven on its own: at each tick it is looked at if that is what it has asked for,
and left alone otherwise, until it says that it is exhausted.

## Main definitions

* `Lone`, `Lone.tick`, `Lone.drive` — a schedule that is driven on its own
* `Lone.survivors` — what is left of several of them

## Main results

* `Lone.survivors_tick` — a tick moves on those that are left
-/

namespace Metronome

/-- A schedule that is driven on its own, and whether it has said that it is exhausted. -/
structure Lone where
  schedule : Schedule
  exhausted : Bool := false

namespace Lone

/-- Whether the schedule is to be looked at. -/
def asks (l : Lone) (tick : Tick) : Bool := !l.exhausted && l.schedule.nextTick ≤ tick

/-- Whether the look at the schedule finds it due. -/
def due (l : Lone) (tick : Tick) (now : Instant) : Bool :=
  l.asks tick && (l.schedule.check tick now).1.due

/-- One tick. -/
def tick (l : Lone) (tick : Tick) (now : Instant) : Lone :=
  if l.asks tick then
    let (advance, schedule) := l.schedule.check tick now
    { schedule := schedule, exhausted := advance.exhausted }
  else l

/-- A sequence of ticks, each with a reading of the clock. -/
def drive (l : Lone) : List (Tick × Instant) → Lone
  | [] => l
  | (t, now) :: es => (l.tick t now).drive es

/-- The schedule, unless it has said that it is exhausted. -/
def survivor? (l : Lone) : Option Schedule := if l.exhausted then none else some l.schedule

/-- The schedules that are not exhausted. -/
def survivors (ls : List Lone) : List Schedule := ls.filterMap survivor?

/-- A schedule that is not exhausted, after a tick. -/
def next? (tick : Tick) (now : Instant) (s : Schedule) : Option Schedule :=
  if s.nextTick ≤ tick then
    if (s.check tick now).1.exhausted then none else some (s.check tick now).2
  else some s

variable {l : Lone} {ls : List Lone} {s : Schedule} {t : Tick} {now : Instant}

theorem mem_survivors : s ∈ survivors ls ↔ ∃ l ∈ ls, l.exhausted = false ∧ l.schedule = s := by
  rw [survivors, List.mem_filterMap]
  simp [survivor?]

theorem asks_iff : l.asks t = true ↔ l.exhausted = false ∧ l.schedule.nextTick ≤ t := by
  simp [asks]

/-- A schedule that is due asks to be looked at. -/
theorem due_iff : l.due t now = true ↔ l.asks t = true ∧ (l.schedule.check t now).1.due = true := by
  rw [due, Bool.and_eq_true]

theorem drive_append (l : Lone) (es fs : List (Tick × Instant)) :
    l.drive (es ++ fs) = (l.drive es).drive fs := by
  induction es generalizing l with
  | nil => rfl
  | cons e es ih => exact ih (l.tick e.1 e.2)

theorem survivor?_tick (l : Lone) (t : Tick) (now : Instant) :
    (l.tick t now).survivor? = l.survivor?.bind (next? t now) := by
  unfold tick survivor?
  cases hexhausted : l.exhausted with
  | true => simp [asks, hexhausted]
  | false =>
    by_cases hasks : l.schedule.nextTick ≤ t
    · rw [if_pos (asks_iff.mpr ⟨hexhausted, hasks⟩)]
      simp [next?, hasks]
    · rw [if_neg fun h => hasks (asks_iff.mp h).2, hexhausted]
      simp [next?, hasks]

/-- A tick moves on the schedules that are left, and those alone. -/
theorem survivors_tick (ls : List Lone) (t : Tick) (now : Instant) :
    survivors (ls.map fun l => l.tick t now) = (survivors ls).filterMap (next? t now) := by
  rw [survivors, survivors, List.filterMap_map, List.filterMap_filterMap]
  exact List.filterMap_congr fun l _ => l.survivor?_tick t now

/-- Nothing happens at a tick that no schedule has asked for. -/
theorem map_tick_of_quiet (h : ∀ l ∈ ls, l.asks t = false) :
    (ls.map fun l => l.tick t now) = ls := by
  refine (List.map_congr_left fun l hl => ?_).trans (List.map_id ls)
  rw [tick, if_neg (Bool.eq_false_iff.mp (h l hl))]
  rfl

end Lone

end Metronome
