import Mathlib.Data.List.Range
import Mathlib.Tactic.Ring
import Metronome.Proofs.Schedule.Check

/-!
# The period of an interval

An interval that is built for a length of time counts the whole ticks in it, and is due as soon as
so many ticks have passed since it was last due, or since its start. Which ticks it is checked at
does not matter for this: after a gap it is due once, and the next period counts from there. If no
tick is left out, then it is due at the multiples of the period.

## Main definitions

* `checkedAt` — a schedule after it was checked at a sequence of ticks
* `dueTicks` — the ticks of the sequence at which it was due
* `Interval.CountsFrom` — the period counts from a certain tick

## Main results

* `Interval.CountsFrom.check`, `Interval.CountsFrom.due_iff` — what a single check keeps, and when
  it is due
* `Interval.CountsFrom.checkedAt`, `Interval.CountsFrom.pairwise_dueTicks` — what a sequence keeps
* `Interval.CountsFrom.dueTicks_of_all` — when no tick is left out
* `due_once_per_period` — all this of the interval that is built for a length of time
-/

namespace Metronome

namespace Schedule

/-- The schedule after it was checked at each of the ticks. -/
def checkedAt (s : Schedule) : List (Tick × Instant) → Schedule
  | [] => s
  | (tick, now) :: es => (s.check tick now).2.checkedAt es

/-- The ticks at which a schedule is due that is checked at each of them. -/
def dueTicks (s : Schedule) : List (Tick × Instant) → List Tick
  | [] => []
  | (tick, now) :: es =>
    if (s.check tick now).1.due then tick :: (s.check tick now).2.dueTicks es
    else (s.check tick now).2.dueTicks es

end Schedule

namespace Interval

open Schedule (interval)

variable {s : Interval} {p tick : Tick} {now : Instant} {es : List (Tick × Instant)}

/-- The period that an interval is in counts from a tick. -/
def CountsFrom (s : Interval) (p : Tick) : Prop := s.nextTick = p + s.period

theorem countsFrom_starting (period : Nat) (current : Tick) :
    (starting period current).CountsFrom current := rfl

/-- An interval is due when a period has passed, and then the next one counts from there. -/
theorem CountsFrom.check (h : s.CountsFrom p) (tick : Tick) (now : Instant) :
    (((interval s).check tick now).1.due = true ↔ p + s.period ≤ tick) ∧
      ∃ s' : Interval, ((interval s).check tick now).2 = interval s' ∧ s'.period = s.period ∧
        s'.CountsFrom (if ((interval s).check tick now).1.due then tick else p) := by
  rw [Schedule.check]
  have hdue : (s.check tick).1.due = decide (s.nextTick ≤ tick) := rfl
  refine ⟨?_, (s.check tick).2, rfl, rfl, ?_⟩
  · rw [hdue, decide_eq_true_iff, h]
  · change (if s.nextTick ≤ tick then tick + s.period else s.nextTick) = _ + s.period
    by_cases hle : s.nextTick ≤ tick
    · rw [if_pos hle, hdue, if_pos (decide_eq_true hle)]
    · rw [if_neg hle, hdue, if_neg (by simpa using hle), h]

/-- The sum that ends a period is exact, unless it is the last tick that is looked at and the sum
lies beyond it. -/
theorem CountsFrom.due_iff (h : s.CountsFrom p) (now : Instant)
    (hexact : tick < .last ∨ p.val + s.period ≤ Tick.last.val) :
    ((interval s).check tick now).1.due = true ↔ p.val + s.period ≤ tick.val := by
  rw [(h.check tick now).1, Tick.le_def, Tick.val_add]
  rw [Tick.lt_def] at hexact
  omega

/-! ### Sequences of checks -/

/-- The period counts from the last tick at which the interval was due. -/
theorem CountsFrom.checkedAt (h : s.CountsFrom p) (es : List (Tick × Instant)) :
    ∃ s' : Interval, (interval s).checkedAt es = interval s' ∧ s'.period = s.period ∧
      s'.CountsFrom (((interval s).dueTicks es).getLastD p) := by
  induction es generalizing s p with
  | nil => exact ⟨s, rfl, rfl, h⟩
  | cons e es ih =>
    obtain ⟨tick, now⟩ := e
    obtain ⟨-, s', hs', hperiod, hcounts⟩ := h.check tick now
    obtain ⟨s'', hs'', hperiod', hcounts'⟩ := ih hcounts
    rw [Schedule.checkedAt, Schedule.dueTicks, hs']
    refine ⟨s'', hs'', hperiod'.trans hperiod, ?_⟩
    split at hcounts'
    · next hdue => rwa [if_pos hdue, List.getLastD_cons]
    · next hdue => rwa [if_neg hdue]

/-- Between two ticks at which an interval is due there is a period at least, and so there is before
the first of them. -/
theorem CountsFrom.pairwise_dueTicks (h : s.CountsFrom p) (hes : ∀ e ∈ es, e.1 < .last) :
    (p :: (interval s).dueTicks es).Pairwise fun t u : Tick => t.val + s.period ≤ u.val := by
  induction es generalizing s p with
  | nil => exact List.pairwise_singleton _ p
  | cons e es ih =>
    obtain ⟨tick, now⟩ := e
    have ht : tick < .last := hes _ List.mem_cons_self
    have hiff := h.due_iff now (.inl ht)
    obtain ⟨-, s', hs', hperiod, hcounts⟩ := h.check tick now
    have hrest := ih hcounts fun e he => hes e (List.mem_cons_of_mem _ he)
    rw [hperiod] at hrest
    rw [Schedule.dueTicks, hs']
    split at hrest
    · next hdue =>
      rw [if_pos hdue]
      refine List.pairwise_cons.mpr ⟨?_, hrest⟩
      intro u hu
      have hpassed := hiff.mp hdue
      rcases List.mem_cons.mp hu with rfl | hu
      · exact hpassed
      · -- it lies a period after this tick, which lies a period after the one before
        have hlater := (List.pairwise_cons.mp hrest).1 u hu
        omega
    · next hdue =>
      rwa [if_neg hdue]

/-- An interval that is checked at every tick, in order, is due at the multiples of its period. A
tick may come more than once. -/
theorem CountsFrom.dueTicks_of_all {n : Nat} (h : s.CountsFrom p) (hes : ∀ e ∈ es, e.1 < .last)
    (hsorted : es.Pairwise fun e f => e.1 ≤ f.1) (hend : ∀ e ∈ es, e.1.val ≤ p.val + n)
    (hall : ∀ i, s.period ≤ i → i ≤ n → ∃ e ∈ es, e.1.val = p.val + i) :
    ((interval s).dueTicks es).map Tick.val =
      (List.range (n / s.period)).map fun i => p.val + (i + 1 : Nat) * s.period := by
  induction es generalizing s p n with
  | nil =>
    have hshort : n < s.period := by
      by_contra hle
      obtain ⟨e, he, -⟩ := hall s.period (Nat.le_refl _) (Nat.le_of_not_lt hle)
      exact absurd he List.not_mem_nil
    rw [Nat.div_eq_of_lt hshort]
    rfl
  | cons e es ih =>
    obtain ⟨tick, now⟩ := e
    have ht : tick < .last := hes _ List.mem_cons_self
    have hiff := h.due_iff now (.inl ht)
    obtain ⟨-, s', hs', hperiod, hcounts⟩ := h.check tick now
    obtain ⟨hfirst, hsorted⟩ := List.pairwise_cons.mp hsorted
    have hes' : ∀ e ∈ es, e.1 < .last := fun e he => hes e (List.mem_cons_of_mem _ he)
    have hend' : ∀ e ∈ es, e.1.val ≤ p.val + n := fun e he => hend e (List.mem_cons_of_mem _ he)
    rw [Schedule.dueTicks, hs']
    split at hcounts
    · next hdue =>
      have hpassed := hiff.mp hdue
      have htick : tick.val ≤ p.val + n := hend _ List.mem_cons_self
      -- the end of the period is among the ticks, and none of them comes before this one
      have hnow : tick.val = p.val + s.period := by
        obtain ⟨e, he, hval⟩ := hall s.period (Nat.le_refl _) (by omega)
        rcases List.mem_cons.mp he with rfl | he
        · exact hval
        · have hle : tick.val ≤ e.1.val := hfirst e he
          omega
      -- what is left is the same with a period less
      obtain ⟨m, rfl⟩ : ∃ m, n = m + s.period := ⟨n - s.period, by omega⟩
      have hend'' : ∀ e ∈ es, e.1.val ≤ tick.val + m := by
        intro e he
        have hle := hend' e he
        omega
      have hall' : ∀ i, s'.period ≤ i → i ≤ m → ∃ e ∈ es, e.1.val = tick.val + i := by
        intro i hlo hhi
        have hpos := s'.period_pos
        obtain ⟨e, he, hval⟩ := hall (s.period + i) (by omega) (by omega)
        rcases List.mem_cons.mp he with rfl | he
        · have hval : tick.val = p.val + (s.period + i : Nat) := hval
          omega
        · exact ⟨e, he, by omega⟩
      rw [if_pos hdue, List.map_cons, ih hcounts hes' hsorted hend'' hall', hperiod,
        Nat.add_div_right m s.period_pos, List.range_succ_eq_map, List.map_cons, List.map_map]
      congr 1
      · rw [hnow]
        push_cast
        ring
      · refine List.map_congr_left ?_
        intro i _
        simp only [Function.comp, Nat.succ_eq_add_one, hnow]
        push_cast
        ring
    · next hdue =>
      have hearly : ¬ p.val + s.period ≤ tick.val := mt hiff.mpr hdue
      -- the end of the period is yet to come
      have hall' : ∀ i, s'.period ≤ i → i ≤ n → ∃ e ∈ es, e.1.val = p.val + i := by
        intro i hlo hhi
        obtain ⟨e, he, hval⟩ := hall i (hperiod ▸ hlo) hhi
        rcases List.mem_cons.mp he with rfl | he
        · have hval : tick.val = p.val + i := hval
          omega
        · exact ⟨e, he, hval⟩
      rw [if_neg hdue, ih hcounts hes' hsorted hend' hall', hperiod]

end Interval

namespace Schedule

/-- The interval that is built for a length of time that is not zero has the whole ticks of the
length for its period, but one tick at least. At whatever ticks it was checked before, and however
often, it is due at a tick just when a period has passed since it was last due, or since its start.
So two ticks at which it is due lie a period apart, or more. If every tick was looked at up to a
certain one, then it was due at the multiples of the period, counted from its start. -/
theorem due_once_per_period (a : Anchor) (length : Span) (hlength : 0 < length.nanos)
    (hwidth : 0 < a.tickWidth.nanos) :
    ∃ s : Interval, (ScheduleSpec.every length).build a = .ok (interval s) ∧
      s.period = max 1 (min (length.nanos / a.tickWidth.nanos) Tick.last.val.toNat) ∧
      (∀ es tick now,
        tick < .last ∨
            (((interval s).dueTicks es).getLastD a.tick).val + s.period ≤ Tick.last.val →
          ((((interval s).checkedAt es).check tick now).1.due = true ↔
            (((interval s).dueTicks es).getLastD a.tick).val + s.period ≤ tick.val)) ∧
      (∀ es : List (Tick × Instant), (∀ e ∈ es, e.1 < .last) →
        (a.tick :: (interval s).dueTicks es).Pairwise fun t u : Tick => t.val + s.period ≤ u.val) ∧
      ∀ (n : Nat) (es : List (Tick × Instant)), (∀ e ∈ es, e.1 < .last) →
        (es.Pairwise fun e f => e.1 ≤ f.1) → (∀ e ∈ es, e.1.val ≤ a.tick.val + n) →
        (∀ i, 1 ≤ i → i ≤ n → ∃ e ∈ es, e.1.val = a.tick.val + i) →
        ((interval s).dueTicks es).map Tick.val =
          (List.range (n / s.period)).map fun i => a.tick.val + (i + 1 : Nat) * s.period := by
  have hzero : length.isZero = false := by simpa [Span.isZero] using hlength.ne'
  have hcounts := Interval.countsFrom_starting (a.ticksFor length) a.tick
  refine ⟨.starting (a.ticksFor length) a.tick, ?_, ?_, ?_, ?_, ?_⟩
  · rw [ScheduleSpec.build, hzero]
    rfl
  · -- the width is not zero, so that the two lengths are divided as they are
    change max (a.ticksFor length) 1 = _
    rw [Anchor.ticksFor, Nat.max_eq_left hwidth]
    omega
  · intro es tick now hexact
    obtain ⟨s', hs', hperiod, hcounts'⟩ := hcounts.checkedAt es
    rw [← hperiod] at hexact ⊢
    rw [hs']
    exact hcounts'.due_iff now hexact
  · intro es hes
    exact hcounts.pairwise_dueTicks hes
  · intro n es hes hsorted hend hall
    refine hcounts.dueTicks_of_all hes hsorted hend ?_
    intro i hlo hhi
    exact hall i (Nat.le_trans (Interval.starting _ _).period_pos hlo) hhi

/-- A tick is 100 milliseconds wide and the length is 350, so the period is three ticks. If every
tick from the eleventh to the seventeenth is looked at, one of them twice, then two are due; if the
ninetieth is the first one, then it is due. -/
theorem due_once_per_period_threeTicks :
    0 < (Span.mk 350000000).nanos ∧ 0 < (Span.mk 100000000).nanos ∧
      ∃ s : Interval,
        (ScheduleSpec.every ⟨350000000⟩).build ⟨10, default, ⟨100000000⟩, 1⟩ = .ok (interval s) ∧
        s.period = 3 ∧
        ((interval s).dueTicks [(11, default), (12, default), (12, default), (13, default),
          (14, default), (15, default), (16, default), (17, default)]).map Tick.val = [13, 16] ∧
        ((interval s).check 90 default).1.due = true := by
  refine ⟨by decide, by decide, ?_⟩
  obtain ⟨s, hbuild, hperiod, hdue, -, hall⟩ :=
    due_once_per_period ⟨10, default, ⟨100000000⟩, 1⟩ ⟨350000000⟩ (by decide) (by decide)
  have hthree : s.period = 3 := hperiod
  have hticks := hall 7 [(11, default), (12, default), (12, default), (13, default),
    (14, default), (15, default), (16, default), (17, default)]
    (by decide) (by decide) (by decide) (by decide)
  have hgap := (hdue [] 90 default (.inl (by decide))).mpr
  rw [hthree] at hticks hgap
  exact ⟨s, hbuild, hthree, hticks, hgap (show (10 : Int) + 3 ≤ 90 by decide)⟩

end Schedule

end Metronome
