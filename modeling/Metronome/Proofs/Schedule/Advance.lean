import Mathlib.Data.Set.Insert
import Metronome.Proofs.Queue.Contents
import Metronome.Schedule.Advance

/-!
# Several answers at once

The answers of several schedules are put together by going through them in some order. The order
does not matter: what is found is the least of the ticks that they name, and of the points in time
the least one that is not missing.

## Main definitions

* `points` — the points of a list that are not missing

## Main results

* `earliest_eq_some_iff` — the earliest point is the least one that is there
* `earliest_congr` — it depends on the points alone, and not on their order
* `le_foldl_min_iff` — the least of the ticks that several answers name
-/

namespace Metronome

attribute [ext] Advance

namespace Instant

variable {s t u : Instant} {us : Set Instant}

theorem min_cases (s t : Instant) : min s t = s ∧ s ≤ t ∨ min s t = t ∧ t ≤ s := by
  change (if s ≤ t then s else t) = s ∧ s ≤ t ∨ (if s ≤ t then s else t) = t ∧ t ≤ s
  by_cases h : s ≤ t
  · exact Or.inl ⟨if_pos h, h⟩
  · exact Or.inr ⟨if_neg h, Int.le_of_not_le h⟩

/-- A point that is not before all others does not matter for the least one. -/
theorem isLeast_insert_iff (hs : s ∈ us) (hle : s ≤ u) :
    IsLeast (insert u us) t ↔ IsLeast us t := by
  constructor
  · rintro ⟨hmem, hlow⟩
    refine ⟨?_, fun v hv => hlow (Set.mem_insert_of_mem u hv)⟩
    rcases hmem with rfl | hmem
    · rwa [le_antisymm (hlow (Set.mem_insert_of_mem t hs)) hle]
    · exact hmem
  · rintro ⟨hmem, hlow⟩
    refine ⟨Set.mem_insert_of_mem u hmem, ?_⟩
    rintro v (rfl | hv)
    · exact Int.le_trans (hlow hs) hle
    · exact hlow hv

theorem isLeast_singleton_iff : IsLeast {s} t ↔ s = t := by
  constructor
  · intro h
    exact h.1.symm
  · rintro rfl
    refine ⟨rfl, ?_⟩
    rintro u rfl
    exact Int.le_refl _

end Instant

variable {ts us : List (Option Instant)} {s : Option Instant} {t : Instant}

/-- The points of a list that are not missing. -/
def points (ts : List (Option Instant)) : Set Instant := {t | some t ∈ ts}

@[simp] theorem points_nil : points [] = ∅ := by
  ext t
  simp [points]

@[simp] theorem points_none_cons (ts : List (Option Instant)) :
    points (none :: ts) = points ts := by
  ext t
  simp [points]

@[simp] theorem points_some_cons (u : Instant) (ts : List (Option Instant)) :
    points (some u :: ts) = insert u (points ts) := by
  ext t
  simp [points]

theorem foldl_earlier_eq_some_iff :
    ts.foldl earlier s = some t ↔ IsLeast (points (s :: ts)) t := by
  induction ts generalizing s with
  | nil =>
    cases s with
    | none => simp [IsLeast]
    | some s => simp [Instant.isLeast_singleton_iff]
  | cons x ts ih =>
    rw [List.foldl_cons, ih]
    cases s with
    | none => rw [earlier, points_none_cons]
    | some s =>
      cases x with
      | none => simp [earlier]
      | some u =>
        -- the later one of two points does not matter
        simp only [earlier, points_some_cons]
        rcases s.min_cases u with ⟨hmin, hle⟩ | ⟨hmin, hle⟩
        · rw [hmin, Set.insert_comm, Instant.isLeast_insert_iff (Set.mem_insert s _) hle]
        · rw [hmin, Instant.isLeast_insert_iff (Set.mem_insert u _) hle]

/-- The earliest of several points is the least one that is there. -/
theorem earliest_eq_some_iff : earliest ts = some t ↔ IsLeast (points ts) t := by
  rw [earliest, foldl_earlier_eq_some_iff, points_none_cons]

/-- The earliest of several points depends on the points alone. -/
theorem earliest_congr (h : ∀ t, some t ∈ ts ↔ some t ∈ us) : earliest ts = earliest us := by
  have hpoints : points ts = points us := Set.ext h
  ext t
  rw [earliest_eq_some_iff, earliest_eq_some_iff, hpoints]

/-- A tick is up to the least of several ticks if it is up to each of them. -/
theorem le_foldl_min_iff {as : List Advance} {r u : Tick} :
    r ≤ as.foldl (fun v a => min v a.nextTick) u ↔ r ≤ u ∧ ∀ a ∈ as, r ≤ a.nextTick := by
  induction as generalizing u with
  | nil => simp
  | cons a as ih => rw [List.foldl_cons, ih, Tick.le_min_iff, List.forall_mem_cons, and_assoc]

end Metronome
