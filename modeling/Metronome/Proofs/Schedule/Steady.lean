import Mathlib.Data.Int.LeastGreatest
import Metronome.Proofs.Schedule.Lone
import Metronome.Proofs.Schedule.Position

/-!
# A recurrence on a steady clock

If the clock moves on by the width of a tick with every tick, then a recurrence that is looked at
whenever it asks for it fires at the very tick at which an occurrence has come. The tick that it
asks for may well be too early, since it is capped, and then the recurrence is looked at and asks
again. It is never too late: a distance that is rounded to the nearest number of ticks is less than
a tick above the true one.

## Main definitions

* `Instant.steady` — the clock that follows the ticks
* `Lone.steadyTicks` — the first ticks after the start, with their readings
* `Lone.OnTime` — a recurrence asks to be looked at before the clock has passed what it waits for
* `Lone.Follows` — a recurrence is on time, or it is exhausted and does not occur any more

## Main results

* `Recurrence.lt_of_lt_ticksBetween` — the estimate is not too late
* `Lone.Follows.tick` — a tick leaves a recurrence on time
* `Lone.due_steady` — a recurrence fires within a tick of each occurrence, and ends with the last
-/

namespace Metronome

/-- The reading of a clock that moves on by the width of a tick with every tick. -/
def Instant.steady (now₀ : Instant) (width : Span) (n : Nat) : Instant :=
  ⟨now₀.nanos + n * width.nanos⟩

theorem Instant.nanos_steady_succ (now₀ : Instant) (width : Span) (n : Nat) :
    (now₀.steady width (n + 1)).nanos = (now₀.steady width n).nanos + width.nanos := by
  simp only [steady, Int.natCast_succ, Int.add_mul, Int.one_mul]
  omega

/-- Until the estimated number of ticks has passed, the clock has not come to the target. -/
theorem Recurrence.lt_of_lt_ticksBetween {width : Span} {cap k : Nat} {now target : Instant}
    (hwidth : 0 < width.nanos) (hlater : now < target)
    (hk : k < ticksBetween width cap now target) :
    now.nanos + k * width.nanos < target.nanos := by
  rw [Instant.lt_def] at hlater
  obtain ⟨d, hd⟩ : ∃ d : Nat, target.nanos = now.nanos + d :=
    ⟨(target.nanos - now.nanos).toNat, by omega⟩
  have hdistance : (now.timeTo target).nanos = d := by
    simp [Instant.timeTo, hd]
  have hstep : max width.nanos 1 = width.nanos := by omega
  unfold ticksBetween at hk
  simp only [hdistance, hstep] at hk
  rcases Nat.eq_zero_or_pos k with rfl | hpos
  · omega
  · -- rounding adds less than half a tick
    have hround : k + 1 ≤ (d + width.nanos / 2) / width.nanos := by omega
    rw [Nat.le_div_iff_mul_le hwidth, Nat.succ_mul] at hround
    have hbound : k * width.nanos < d := by omega
    rw [hd]
    exact_mod_cast Int.add_lt_add_left (Int.ofNat_lt.mpr hbound) now.nanos

namespace Cron.Pattern

/-- If a pattern does not occur any more after some time, then it has a last occurrence. -/
theorem exists_isGreatest {p : Pattern} {start now : Instant} (hstart : p.Occurs start)
    (hend : ∀ u, p.Occurs u → u ≤ now) : ∃ u, IsGreatest {u | p.Occurs u} u := by
  obtain ⟨first, hfirst, rfl⟩ := hstart
  have hbounded : ∃ b, ∀ n, p.Admits n → n ≤ b := by
    refine ⟨now.secs, ?_⟩
    intro n hn
    exact Int.not_lt.mp fun hlt => Int.not_le.mpr (lt_ofSecs_iff.mpr hlt) (hend _ ⟨n, hn, rfl⟩)
  obtain ⟨n, hn, hgreatest⟩ := Int.exists_greatest_of_bdd hbounded ⟨first, hfirst⟩
  refine ⟨.ofSecs n, ⟨n, hn, rfl⟩, ?_⟩
  rintro u ⟨m, hm, rfl⟩
  exact Int.mul_le_mul_of_nonneg_right (hgreatest m hm) (by decide)

end Cron.Pattern

namespace Lone

open Cron

variable {p : Pattern} {width : Span} {t t' : Tick} {now now' start : Instant}
  {s : Recurrence} {l : Lone}

/-! ### One tick -/

/-- A recurrence waits for the first occurrence after a reading of the clock, and asks to be looked
at before the clock has passed it. -/
structure OnTime (p : Pattern) (width : Span) (t : Tick) (now : Instant) (s : Recurrence)
    (start : Instant) : Prop where
  pattern : s.pattern = p
  tickWidth : s.tickWidth = width
  nextStart : s.nextStart = some start
  isLeast : IsLeast {u | p.Occurs u ∧ now < u} start
  not_passed : ∀ k : Nat, t.val + k < s.nextTick.val →
    now.nanos + k * width.nanos < start.nanos

/-- A recurrence that is driven on its own is on time, or it is exhausted and the pattern does not
occur any more. -/
inductive Follows (p : Pattern) (width : Span) (t : Tick) (now : Instant) : Lone → Prop
  | waiting {s : Recurrence} {start : Instant} (onTime : OnTime p width t now s start) :
      Follows p width t now ⟨.recurrence s, false⟩
  | past {s : Schedule} (done : ∀ u, p.Occurs u → u ≤ now) : Follows p width t now ⟨s, true⟩

/-- A recurrence that has just asked for a tick is on time. -/
theorem OnTime.of_awaited (hp : p.Ranged) (hwidth : 0 < width.nanos) (hnow : Datable now)
    (hpattern : s.pattern = p) (htickWidth : s.tickWidth = width)
    (hstart : s.nextStart = some start) (h : p.Awaited now start)
    (hnext : s.nextTick = t + s.ticksTo now start) : OnTime p width t now s start := by
  refine ⟨hpattern, htickWidth, hstart, h.isLeast hp hnow, ?_⟩
  intro k hk
  rw [hnext, Tick.val_add, Recurrence.ticksTo, htickWidth] at hk
  have hestimate : k < Recurrence.ticksBetween width s.cap now start := by omega
  exact Recurrence.lt_of_lt_ticksBetween hwidth h.later hestimate

/-- A recurrence that does not ask for a tick stays on time. -/
theorem OnTime.skip (h : OnTime p width t now s start) (htick : t'.val = t.val + 1)
    (hnow : now'.nanos = now.nanos + width.nanos) (hasks : t' < s.nextTick) :
    now' < start ∧ OnTime p width t' now' s start := by
  rw [Tick.lt_def] at hasks
  have hlater : now' < start := by
    have := h.not_passed 1 (by omega)
    rw [Instant.lt_def]
    omega
  refine ⟨hlater, h.pattern, h.tickWidth, h.nextStart, ⟨⟨h.isLeast.1.1, hlater⟩, ?_⟩, ?_⟩
  · rintro u ⟨hu, hlt⟩
    refine h.isLeast.2 ⟨hu, ?_⟩
    rw [Instant.lt_def] at hlt ⊢
    omega
  · intro k hk
    have := h.not_passed (k + 1) (by omega)
    rw [Int.natCast_succ, Int.add_mul, Int.one_mul] at this
    omega

/-- What a look at a recurrence that is on time makes of it. -/
theorem OnTime.check (hp : p.Ranged) (hwidth : 0 < width.nanos) (hnow : Datable now')
    (h : OnTime p width t now s start) :
    ((s.check t' now').1.due = true ↔ start ≤ now') ∧
      Follows p width t' now'
        ⟨.recurrence (s.check t' now').2, (s.check t' now').1.exhausted⟩ := by
  obtain ⟨rfl, rfl, hstart, hleast, -⟩ := h
  have hawaited : s.pattern.Awaited now start := hp.awaited_of_isLeast hleast
  refine ⟨Recurrence.due_check_iff hp hstart hawaited, ?_⟩
  unfold Recurrence.check
  rcases Recurrence.probe_of_awaited hp hstart hawaited t' now' with
    ⟨next, hnext, hprobe⟩ | ⟨-, hnone, hprobe⟩
  · rw [hprobe]
    exact .waiting (.of_awaited hp hwidth hnow rfl rfl rfl hnext rfl)
  · rw [hprobe]
    refine .past ?_
    intro u hu
    by_contra hlt
    obtain ⟨next, hnext⟩ := hp.exists_next? hnow hu (Int.not_le.mp hlt)
    simp [Recurrence.nextAfter, hnext] at hnone

/-- The pattern occurs between two readings exactly if the first occurrence after the former has
come with the latter. -/
theorem OnTime.le_iff (h : OnTime p width t now s start) :
    start ≤ now' ↔ ∃ u, p.Occurs u ∧ now < u ∧ u ≤ now' := by
  constructor
  · intro hle
    exact ⟨start, h.isLeast.1.1, h.isLeast.1.2, hle⟩
  · rintro ⟨u, hu, hlt, hle⟩
    exact Int.le_trans (h.isLeast.2 ⟨hu, hlt⟩) hle

/-- At each tick, a recurrence on time is due exactly if it occurs since the last one, and it stays
on time until it is exhausted. -/
theorem Follows.tick (hp : p.Ranged) (hwidth : 0 < width.nanos) (hdatable : Datable now')
    (htick : t'.val = t.val + 1) (hnow : now'.nanos = now.nanos + width.nanos)
    (h : Follows p width t now l) :
    (l.due t' now' = true ↔ ∃ u, p.Occurs u ∧ now < u ∧ u ≤ now') ∧
      Follows p width t' now' (l.tick t' now') := by
  cases h with
  | @waiting s start onTime =>
    by_cases hasks : s.nextTick ≤ t'
    · have hlook : (Lone.mk (.recurrence s) false).asks t' = true := asks_iff.mpr ⟨rfl, hasks⟩
      obtain ⟨hdue, hfollows⟩ := onTime.check hp hwidth hdatable
      rw [Lone.tick, if_pos hlook, due, hlook, Bool.true_and, Schedule.check, ← onTime.le_iff]
      exact ⟨hdue, hfollows⟩
    · have hrests : ¬ (Lone.mk (.recurrence s) false).asks t' = true :=
        fun hlook => hasks (asks_iff.mp hlook).2
      obtain ⟨hlater, honTime⟩ := onTime.skip htick hnow (Int.not_le.mp hasks)
      rw [Lone.tick, if_neg hrests, due, Bool.eq_false_iff.mpr hrests, Bool.false_and,
        ← onTime.le_iff]
      exact ⟨iff_of_false Bool.false_ne_true (Int.not_le.mpr hlater), .waiting honTime⟩
  | @past s done =>
    refine ⟨iff_of_false Bool.false_ne_true ?_, .past ?_⟩
    · rintro ⟨u, hu, hlt, -⟩
      exact Int.not_le.mpr hlt (done u hu)
    · intro u hu
      have := done u hu
      rw [Instant.le_def] at this ⊢
      omega

/-- A recurrence on time comes to its end at the tick at which the pattern occurs for the last
time. -/
theorem Follows.exhausted_iff (h : Follows p width t now l)
    (h' : Follows p width t' now' (l.tick t' now')) :
    l.exhausted = false ∧ (l.tick t' now').exhausted = true ↔
      ∃ u, IsGreatest {u | p.Occurs u} u ∧ now < u ∧ u ≤ now' := by
  generalize l.tick t' now' = l' at h'
  constructor
  · rintro ⟨hlive, hexhausted⟩
    cases h with
    | past => cases hlive
    | waiting onTime =>
      cases h' with
      | waiting => cases hexhausted
      | past done =>
        obtain ⟨u, hu⟩ := Pattern.exists_isGreatest onTime.isLeast.1.1 done
        refine ⟨u, hu, ?_, done u hu.1⟩
        exact Int.lt_of_lt_of_le onTime.isLeast.1.2 (hu.2 onTime.isLeast.1.1)
  · rintro ⟨u, hu, hlt, hle⟩
    cases h with
    | past done => exact absurd (done u hu.1) (Int.not_le.mpr hlt)
    | waiting onTime =>
      cases h' with
      | past => exact ⟨rfl, rfl⟩
      | waiting onTime' =>
        obtain ⟨⟨hstart, hlater⟩, -⟩ := onTime'.isLeast
        exact absurd (Int.le_trans (hu.2 hstart) hle) (Int.not_le.mpr hlater)

/-! ### A whole run -/

/-- The first ticks after the start, each with the reading of the clock that follows them. -/
def steadyTicks (t₀ : Tick) (now₀ : Instant) (width : Span) (n : Nat) : List (Tick × Instant) :=
  (List.range n).map fun i => (t₀ + (i + 1), now₀.steady width (i + 1))

variable {text : String} {cap n : Nat} {t₀ : Tick} {now₀ : Instant}

theorem drive_steadyTicks_succ (l : Lone) (t₀ : Tick) (now₀ : Instant) (width : Span) (n : Nat) :
    l.drive (steadyTicks t₀ now₀ width (n + 1)) =
      (l.drive (steadyTicks t₀ now₀ width n)).tick (t₀ + (n + 1)) (now₀.steady width (n + 1)) := by
  rw [steadyTicks, List.range_succ, List.map_append, drive_append]
  rfl

theorem datable_steady (h : Datable now₀) (width : Span) (n : Nat) :
    Datable (now₀.steady width n) := by
  refine h.mono (Int.le_add_of_nonneg_right ?_)
  exact Int.mul_nonneg (Int.natCast_nonneg n) (Int.natCast_nonneg width.nanos)

theorem val_add_succ (hlast : t₀.val + (n + 1) ≤ Tick.last.val) :
    (t₀ + (n + 1)).val = (t₀ + n).val + 1 := by
  rw [Tick.val_add, Tick.val_add]
  omega

/-- Throughout a run on a steady clock, a recurrence is on time. -/
theorem follows_steady (hstart : Recurrence.start? text cap width t₀ now₀ = .ok s)
    (hwidth : 0 < width.nanos) (hlast : t₀.val + n ≤ Tick.last.val) :
    Follows s.pattern width (t₀ + n) (now₀.steady width n)
      ((Lone.mk (.recurrence s) false).drive (steadyTicks t₀ now₀ width n)) := by
  obtain ⟨hp, first, hfirst, hs, htickWidth, hnext⟩ := Recurrence.start?_eq_ok hstart
  have hdatable := Pattern.datable_of_next? hfirst
  induction n with
  | zero =>
    have ht : t₀ + 0 = t₀ := by
      ext
      rw [Tick.val_add]
      omega
    have hnow : now₀.steady width 0 = now₀ := by simp [Instant.steady]
    rw [if_neg (by simp [Span.isZero, hwidth.ne'])] at htickWidth
    rw [ht, hnow]
    exact .waiting (.of_awaited hp hwidth hdatable rfl htickWidth hs (hp.awaited_of_next? hfirst)
      hnext)
  | succ n ih =>
    rw [drive_steadyTicks_succ]
    refine ((ih (by omega)).tick hp hwidth (datable_steady hdatable width (n + 1)) ?_ ?_).2
    · exact val_add_succ (by omega)
    · exact Instant.nanos_steady_succ ..

/-- A recurrence on a steady clock is due at a tick exactly if it occurs between the last tick and
this one, and it is exhausted with the tick at which it occurs for the last time. -/
theorem due_steady (hstart : Recurrence.start? text cap width t₀ now₀ = .ok s)
    (hwidth : 0 < width.nanos) (hlast : t₀.val + (n + 1) ≤ Tick.last.val) :
    let l := (Lone.mk (.recurrence s) false).drive (steadyTicks t₀ now₀ width n)
    let now := now₀.steady width n
    let now' := now₀.steady width (n + 1)
    (l.due (t₀ + (n + 1)) now' = true ↔ ∃ u, s.pattern.Occurs u ∧ now < u ∧ u ≤ now') ∧
      (l.exhausted = false ∧ (l.tick (t₀ + (n + 1)) now').exhausted = true ↔
        ∃ u, IsGreatest {u | s.pattern.Occurs u} u ∧ now < u ∧ u ≤ now') := by
  obtain ⟨hp, first, hfirst, -⟩ := Recurrence.start?_eq_ok hstart
  have hdatable := Pattern.datable_of_next? hfirst
  have hfollows := follows_steady hstart hwidth (show t₀.val + n ≤ Tick.last.val by omega)
  obtain ⟨hdue, hnext⟩ := hfollows.tick hp hwidth (datable_steady hdatable width (n + 1))
    (val_add_succ hlast) (Instant.nanos_steady_succ ..)
  exact ⟨hdue, hfollows.exhausted_iff hnext⟩

/-- The last occurrence of all comes with the first tick, and the recurrence fires and is exhausted
with that tick. -/
theorem due_steady_final :
    (Lone.mk (.recurrence .final) false).due 1 (.ofSecs 4133894400) = true ∧
      ((Lone.mk (.recurrence .final) false).tick 1 (.ofSecs 4133894400)).exhausted = true ∧
        ∃ u, IsGreatest {u | Recurrence.final.pattern.Occurs u} u ∧
          ⟨4133894399900000000⟩ < u ∧ u ≤ .ofSecs 4133894400 := by
  have hdue : (Lone.mk (.recurrence .final) false).due 1 (.ofSecs 4133894400) = true := by
    decide +kernel
  have hexhausted :
      ((Lone.mk (.recurrence .final) false).tick 1 (.ofSecs 4133894400)).exhausted = true := by
    decide +kernel
  obtain ⟨-, hlast⟩ := due_steady (n := 0) Recurrence.start?_final (by decide) (by decide)
  obtain ⟨u, hu, hlt, hle⟩ := hlast.mp ⟨rfl, hexhausted⟩
  let start : Instant := ⟨4133894399900000000⟩
  have hbefore : start.steady (.ofMillis 100) 0 = ⟨4133894399900000000⟩ := by decide
  have hafter : start.steady (.ofMillis 100) (0 + 1) = .ofSecs 4133894400 := by decide
  rw [hbefore] at hlt
  rw [hafter] at hle
  exact ⟨hdue, hexhausted, u, hu, hlt, hle⟩

end Lone

end Metronome
