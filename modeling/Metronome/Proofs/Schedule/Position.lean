import Metronome.Proofs.Cron.Occurrence
import Metronome.Proofs.Schedule.Check

/-!
# The position of a recurrence

A recurrence keeps the occurrence that it waits for, and between two looks at it the clock may have
been set forward or back at will. What carries its position through such jumps is that it never
waits for anything but an occurrence that is later than the last reading: then the earlier one of
this occurrence and of the next one after a new reading is the next one itself.

## Main definitions

* `Cron.Pattern.Awaited` — an occurrence for which to wait after a point in time
* `Recurrence.after`, `Recurrence.answer` — a recurrence after some looks, and what it answers then

## Main results

* `Recurrence.probe_of_awaited` — what a recurrence answers that waits for such an occurrence
* `Recurrence.awaited_after` — a recurrence always waits for such an occurrence
* `Recurrence.position` — when it is due, and where it is afterwards, whatever the clock does
-/

namespace Metronome

namespace Cron.Pattern

variable {p : Pattern} {prev now start next u : Instant}

/-- An occurrence that is later than a point in time, and the next one after it if the search for
that comes to a result. -/
structure Awaited (p : Pattern) (prev start : Instant) : Prop where
  occurs : p.Occurs start
  later : prev < start
  eq_next : ∀ next, p.next? prev = some next → next = start

/-- The least later occurrence is one for which to wait. -/
theorem Ranged.awaited_of_isLeast (hp : p.Ranged)
    (h : IsLeast {u | p.Occurs u ∧ prev < u} start) : p.Awaited prev start := by
  refine ⟨h.1.1, h.1.2, ?_⟩
  intro next hnext
  have hleast := (next?_eq_some_iff hp (datable_of_next? hnext)).mp hnext
  exact Instant.le_antisymm (hleast.2 h.1) (h.2 hleast.1)

/-- The next occurrence is one for which to wait. -/
theorem Ranged.awaited_of_next? (hp : p.Ranged) (h : p.next? prev = some start) :
    p.Awaited prev start :=
  hp.awaited_of_isLeast ((next?_eq_some_iff hp (datable_of_next? h)).mp h)

/-- There is a next occurrence if there is a later one at all. -/
theorem Ranged.exists_next? (hp : p.Ranged) (hprev : Datable prev) (hu : p.Occurs u)
    (hlt : prev < u) : ∃ next, p.next? prev = some next := by
  obtain ⟨n, hn, -⟩ := hp.occurs_later_iff.mp ⟨hu, hlt⟩
  obtain ⟨m, hm⟩ := (p.finds_firstFrom _).exists_of_mem hn
  rw [next?_of_datable hprev, hm]
  exact ⟨_, rfl⟩

/-- The occurrence for which to wait is the least later one where the search sets out. -/
theorem Awaited.isLeast (h : p.Awaited prev start) (hp : p.Ranged) (hprev : Datable prev) :
    IsLeast {u | p.Occurs u ∧ prev < u} start := by
  obtain ⟨next, hnext⟩ := hp.exists_next? hprev h.occurs h.later
  rw [← h.eq_next next hnext]
  exact (next?_eq_some_iff hp hprev).mp hnext

/-- An occurrence for which to wait after a reading that it is later than, when it is compared with
the next one after that reading. -/
theorem Awaited.min_next? (h : p.Awaited prev start) (hp : p.Ranged) (hlt : now < start)
    (hnext : p.next? now = some next) : min next start = next := by
  have hleast := (next?_eq_some_iff hp (datable_of_next? hnext)).mp hnext
  exact if_pos (hleast.2 ⟨h.occurs, hlt⟩)

end Cron.Pattern

namespace Recurrence

open Cron

variable {s : Recurrence} {text : String} {cap : Nat} {width : Span} {t₀ tick : Tick}
  {prev now start : Instant}

/-! ### One look -/

/-- A recurrence that waits for an occurrence is due exactly if this has come. It goes on to wait
for an occurrence that is later than the reading, and it is exhausted if it is due and there is
none. -/
theorem probe_of_awaited (hp : s.pattern.Ranged) (hstart : s.nextStart = some start)
    (h : s.pattern.Awaited prev start) (tick : Tick) (now : Instant) :
    (∃ next, s.pattern.Awaited now next ∧ s.probe tick now =
      { due := start ≤ now, nextTick := tick + s.ticksTo now next, nextStart := some next,
        exhausted := false }) ∨
    (start ≤ now ∧ s.nextAfter now = none ∧ s.probe tick now =
      { due := true, nextTick := tick + s.cap, nextStart := none, exhausted := true }) := by
  unfold probe
  simp only [hstart, nextAfter]
  by_cases hdue : start ≤ now
  · rw [if_pos hdue]
    cases hnext : s.pattern.next? now with
    | none => exact Or.inr ⟨hdue, rfl, rfl⟩
    | some next =>
      refine Or.inl ⟨next, hp.awaited_of_next? hnext, ?_⟩
      simp [hdue]
  · rw [if_neg hdue]
    have hlater : now < start := Int.not_le.mp hdue
    cases hnext : s.pattern.next? now with
    | none =>
      -- the search does not set out, and the recurrence stays with what it has
      refine Or.inl ⟨start, ⟨h.occurs, hlater, ?_⟩, ?_⟩
      · simp [hnext]
      · simp [hdue]
    | some next =>
      refine Or.inl ⟨next, hp.awaited_of_next? hnext, ?_⟩
      simp [hdue, h.min_next? hp hlater hnext]

theorem due_check_iff (hp : s.pattern.Ranged) (hstart : s.nextStart = some start)
    (h : s.pattern.Awaited prev start) : (s.check tick now).1.due = true ↔ start ≤ now := by
  unfold check
  rcases probe_of_awaited hp hstart h tick now with ⟨next, -, hprobe⟩ | ⟨hdue, -, hprobe⟩
  · simp [hprobe]
  · simp [hprobe, hdue]

/-- After a reading for which there is a next occurrence, this is the one to wait for. -/
theorem nextStart_check_of_next (hp : s.pattern.Ranged) (hstart : s.nextStart = some start)
    (h : s.pattern.Awaited prev start) {next : Instant} (hnext : s.nextAfter now = some next) :
    (s.check tick now).2.nextStart = some next := by
  unfold check
  rcases probe_of_awaited hp hstart h tick now with ⟨next', hnext', hprobe⟩ | ⟨-, hnone, -⟩
  · simp [hprobe, hnext'.eq_next next hnext]
  · simp [hnone] at hnext

/-- Where the search sets out, a recurrence is due exactly if it occurs between the last reading and
this one. -/
theorem due_check_iff_exists (hp : s.pattern.Ranged) (hstart : s.nextStart = some start)
    (h : s.pattern.Awaited prev start) (hprev : Datable prev) :
    (s.check tick now).1.due = true ↔ ∃ u, s.pattern.Occurs u ∧ prev < u ∧ u ≤ now := by
  rw [due_check_iff hp hstart h]
  constructor
  · intro hle
    exact ⟨start, h.occurs, h.later, hle⟩
  · rintro ⟨u, hu, hlt, hle⟩
    exact Int.le_trans ((h.isLeast hp hprev).2 ⟨hu, hlt⟩) hle

/-! ### The start -/

/-- A recurrence that was started has a pattern that was read, and waits for the first occurrence
after the start. -/
theorem start?_eq_ok (h : start? text cap width t₀ now = .ok s) :
    s.pattern.Ranged ∧ ∃ first, s.pattern.next? now = some first ∧ s.nextStart = some first ∧
      s.tickWidth = (if width.isZero then .ofMillis 1 else width) ∧
        s.nextTick = t₀ + s.ticksTo now first := by
  unfold start? at h
  dsimp only at h
  split at h
  · cases h
  · next pattern hparse =>
    split at h
    · cases h
    · next first hfirst =>
      rw [← Except.ok.inj h]
      exact ⟨Pattern.ranged_of_parse hparse, first, hfirst, rfl, rfl, rfl⟩

/-! ### Any clock -/

/-- A recurrence after the first `n` of a sequence of looks. The looks are made at given ticks, and
the clock is read once at the start and then at each look. -/
def after (s : Recurrence) (ticks : Nat → Tick) (clock : Nat → Instant) : Nat → Recurrence
  | 0 => s
  | n + 1 => ((s.after ticks clock n).check (ticks n) (clock (n + 1))).2

/-- What a recurrence answers after the first `n` of a sequence of looks, when it is looked at once
more. -/
def answer (s : Recurrence) (ticks : Nat → Tick) (clock : Nat → Instant) (n : Nat) : Advance :=
  ((s.after ticks clock n).check (ticks n) (clock (n + 1))).1

variable {ticks : Nat → Tick} {clock : Nat → Instant} {n : Nat}

@[simp] theorem pattern_after (s : Recurrence) (ticks : Nat → Tick) (clock : Nat → Instant)
    (n : Nat) : (s.after ticks clock n).pattern = s.pattern := by
  induction n with
  | zero => rfl
  | succ n ih => exact ih

/-- As long as it is not exhausted, a recurrence waits for an occurrence that is later than the last
reading of the clock. -/
theorem awaited_after (hstart : start? text cap width t₀ (clock 0) = .ok s)
    (hlive : ∀ m < n, (s.answer ticks clock m).exhausted = false) :
    ∃ start, (s.after ticks clock n).nextStart = some start ∧
      s.pattern.Awaited (clock n) start := by
  obtain ⟨hp, first, hfirst, hs, -, -⟩ := start?_eq_ok hstart
  induction n with
  | zero => exact ⟨first, hs, hp.awaited_of_next? hfirst⟩
  | succ n ih =>
    obtain ⟨start, hs, h⟩ := ih fun m hm => hlive m (Nat.lt_succ_of_lt hm)
    rw [← pattern_after s ticks clock n] at hp h
    have hlast := hlive n (Nat.lt_succ_self n)
    unfold answer at hlast
    unfold check at hlast
    rcases probe_of_awaited hp hs h (ticks n) (clock (n + 1)) with ⟨next, hnext, hprobe⟩ |
      ⟨-, -, hprobe⟩
    · refine ⟨next, ?_, ?_⟩
      · simp [after, check, hprobe]
      · simpa using hnext
    · simp [hprobe] at hlast

/-- A clock that is never set back reads no less than at the start. -/
theorem clock_le {m : Nat} (hclock : ∀ m ≤ n, clock m ≤ clock (m + 1)) {k : Nat} (hm : m ≤ k)
    (hk : k ≤ n + 1) : clock m ≤ clock k := by
  induction k, hm using Nat.le_induction with
  | base => exact Int.le_refl _
  | succ k _ ih => exact Int.le_trans (ih (by omega)) (hclock k (by omega))

/-- A point in time that such a clock has passed lies between exactly two successive readings. -/
theorem existsUnique_reading {u : Instant} (hclock : ∀ m ≤ n, clock m ≤ clock (m + 1))
    (hlater : clock 0 < u) (hle : u ≤ clock (n + 1)) :
    ∃! m, m ≤ n ∧ clock m < u ∧ u ≤ clock (m + 1) := by
  have hexists : ∃ m, u ≤ clock (m + 1) := ⟨n, hle⟩
  -- the first look at which the clock has come to the point
  refine ⟨Nat.find hexists, ⟨Nat.find_min' hexists hle, ?_, Nat.find_spec hexists⟩, ?_⟩
  · cases hfirst : Nat.find hexists with
    | zero => exact hlater
    | succ m => exact Int.not_le.mp (Nat.find_min hexists (hfirst ▸ Nat.lt_succ_self m))
  · rintro m ⟨hm, hlt, hle⟩
    refine (Nat.find_min' hexists hle).antisymm' (Nat.le_of_not_lt fun hearlier => ?_)
    have hbefore : clock (Nat.find hexists + 1) ≤ clock m := clock_le hclock hearlier (by omega)
    exact absurd (Int.lt_of_lt_of_le hlt (Nat.find_spec hexists)) (Int.not_lt.mpr hbefore)

/-- On a clock that is never set back, a recurrence is due exactly if it occurs between the last
reading and this one. -/
theorem due_answer_iff (hstart : start? text cap width t₀ (clock 0) = .ok s)
    (hlive : ∀ m < n, (s.answer ticks clock m).exhausted = false)
    (hclock : ∀ m ≤ n, clock m ≤ clock (m + 1)) :
    (s.answer ticks clock n).due = true ↔
      ∃ u, s.pattern.Occurs u ∧ clock n < u ∧ u ≤ clock (n + 1) := by
  obtain ⟨hp, first, hfirst, -⟩ := start?_eq_ok hstart
  obtain ⟨start, hs, h⟩ := awaited_after hstart hlive
  have hdatable : Datable (clock n) :=
    (Pattern.datable_of_next? hfirst).mono (clock_le hclock (Nat.zero_le n) (Nat.le_succ n))
  rw [← pattern_after s ticks clock n] at hp h ⊢
  exact due_check_iff_exists hp hs h hdatable

/-- Whatever a clock does, up to the first answer that says that a recurrence is exhausted: The
recurrence is due exactly if the occurrence that it waits for has come, and if there is a next
occurrence after a reading, this is the one that it waits for afterwards, whatever went before. So
if the clock is never set back, it is due exactly if an occurrence lies between the last reading and
this one; and each occurrence that the clock passes is answered by one look, and by no other. -/
theorem position (hstart : start? text cap width t₀ (clock 0) = .ok s)
    (hlive : ∀ m < n, (s.answer ticks clock m).exhausted = false) :
    (∃ start, (s.after ticks clock n).nextStart = some start ∧
      ((s.answer ticks clock n).due = true ↔ start ≤ clock (n + 1))) ∧
    (∀ next, s.nextAfter (clock (n + 1)) = some next →
      IsLeast {u | s.pattern.Occurs u ∧ clock (n + 1) < u} next ∧
        (s.after ticks clock (n + 1)).nextStart = some next) ∧
    ((∀ m ≤ n, clock m ≤ clock (m + 1)) →
      ((s.answer ticks clock n).due = true ↔
        ∃ u, s.pattern.Occurs u ∧ clock n < u ∧ u ≤ clock (n + 1)) ∧
      ∀ u, s.pattern.Occurs u → clock 0 < u → u ≤ clock (n + 1) →
        ∃! m, m ≤ n ∧ (s.answer ticks clock m).due = true ∧ clock m < u ∧ u ≤ clock (m + 1)) := by
  obtain ⟨hp, -⟩ := start?_eq_ok hstart
  obtain ⟨start, hs, h⟩ := awaited_after hstart hlive
  have hp' := hp
  rw [← pattern_after s ticks clock n] at hp' h
  refine ⟨⟨start, hs, due_check_iff hp' hs h⟩, ?_, ?_⟩
  · intro next hnext
    refine ⟨(Pattern.next?_eq_some_iff hp (Pattern.datable_of_next? hnext)).mp hnext, ?_⟩
    refine nextStart_check_of_next hp' hs h ?_
    rwa [nextAfter, pattern_after]
  · intro hclock
    refine ⟨due_answer_iff hstart hlive hclock, ?_⟩
    intro u hu hlater hle
    obtain ⟨m, ⟨hm, hwindow⟩, hunique⟩ := existsUnique_reading hclock hlater hle
    have hdue : (s.answer ticks clock m).due = true :=
      (due_answer_iff hstart (fun k hk => hlive k (by omega)) fun k hk => hclock k (by omega)).mpr
        ⟨u, hu, hwindow⟩
    refine ⟨m, ⟨hm, hdue, hwindow⟩, ?_⟩
    rintro k ⟨hk, -, hwindow⟩
    exact hunique k ⟨hk, hwindow⟩

/-- A clock that is set back a moment before the last occurrence, and then comes to it. -/
def setBack : Nat → Instant
  | 0 => ⟨4133894399900000000⟩
  | 1 => .ofSecs 4133894398
  | _ => .ofSecs 4133894400

/-- The recurrence keeps its position when the clock is set back, and is due when it has come. -/
theorem position_setBack : (∀ m < 1, (final.answer (fun _ => 1) setBack m).exhausted = false) ∧
    (final.after (fun _ => 1) setBack 1).nextStart = some (.ofSecs 4133894400) ∧
    (final.answer (fun _ => 1) setBack 1).due = true := by
  have hlive : ∀ m < 1, (final.answer (fun _ => 1) setBack m).exhausted = false := by
    decide +kernel
  have hplace : (final.after (fun _ => 1) setBack 1).nextStart = some (.ofSecs 4133894400) := by
    decide +kernel
  have hstart : start? "0 0 0 31 12 * 2100" 10 (.ofMillis 100) 0 (setBack 0) = .ok final :=
    start?_final
  obtain ⟨⟨start, hs, hdue⟩, -, -⟩ := position hstart hlive
  rw [hplace] at hs
  refine ⟨hlive, hplace, hdue.mpr ?_⟩
  rw [← Option.some.inj hs]
  exact Int.le_refl _

end Recurrence

end Metronome
