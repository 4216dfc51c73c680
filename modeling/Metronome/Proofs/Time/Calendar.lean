import Mathlib.Order.Monotone.Basic
import Metronome.Time.Calendar

/-!
# The years of the calendar

The date of a day is found by counting the days of an era without its leap days. That this count
divided by 365 is the number of the year rests on two facts: the count never goes down, and on the
first day of each of the 400 years of an era it has just come to a multiple of 365.

## Main definitions

* `Date.yearStart` — the first day of a year that begins in March
* `Date.commonDays` — the days of an era without the leap days

## Main results

* `Date.le_commonDays_div_iff` — a year of an era has begun when its first day has come
* `Date.year_lt_iff` — the years of two days are told apart by the first of January
-/

namespace Metronome.Date

/-- The days of an era before a year that begins in March. -/
def yearStart (year : Nat) : Nat := 365 * year + year / 4 - year / 100

/-- The days of an era up to a given one, without the leap days. -/
def commonDays (day : Nat) : Nat := day - day / 1460 + day / 36524 - day / 146096

theorem commonDays_mono : Monotone commonDays := by
  refine monotone_nat_of_le_succ fun day => ?_
  unfold commonDays
  omega

theorem yearStart_mono : Monotone yearStart := by
  refine monotone_nat_of_le_succ fun year => ?_
  unfold yearStart
  omega

/-- The count comes to a multiple of 365 when a year begins, and not before. -/
theorem commonDays_yearStart : ∀ year < 400, commonDays (yearStart year) = year * 365 ∧
    (0 < year → commonDays (yearStart year - 1) < year * 365) := by
  decide +kernel

/-- A year of an era has begun when its first day has come. -/
theorem le_commonDays_div_iff {year : Nat} (day : Nat) (hyear : year < 400) :
    year ≤ commonDays day / 365 ↔ yearStart year ≤ day := by
  obtain ⟨hfirst, hbefore⟩ := commonDays_yearStart year hyear
  rw [Nat.le_div_iff_mul_le (by decide)]
  constructor
  · intro hle
    by_contra hlt
    have hpos : 0 < year := by
      rcases Nat.eq_zero_or_pos year with rfl | hpos
      · exact absurd (Nat.zero_le day) hlt
      · exact hpos
    have hmono : commonDays day ≤ commonDays (yearStart year - 1) := commonDays_mono (by omega)
    have := hbefore hpos
    omega
  · intro hle
    rw [← hfirst]
    exact commonDays_mono hle

/-- The day of an era lies in the year that the count yields. -/
theorem mem_year {day : Nat} (hday : day < 146097) :
    commonDays day / 365 < 400 ∧ yearStart (commonDays day / 365) ≤ day ∧
      day < yearStart (commonDays day / 365) + 366 := by
  have hyear : commonDays day / 365 < 400 := by
    unfold commonDays
    omega
  refine ⟨hyear, (le_commonDays_div_iff day hyear).mp (Nat.le_refl _), ?_⟩
  generalize hvalue : commonDays day / 365 = year at hyear
  by_cases hnext : year + 1 < 400
  · have hlt : day < yearStart (year + 1) := by
      refine Nat.lt_of_not_le fun hle => ?_
      rw [← le_commonDays_div_iff day hnext, hvalue] at hle
      exact Nat.not_succ_le_self year hle
    unfold yearStart at hlt ⊢
    omega
  · unfold yearStart
    omega

/-- The year of a day, by its era and its day in the era. The years of an era begin in March, so
that January and February belong to the next one. -/
theorem year_ofDayNumber {day era : Int} {dayOfEra : Nat}
    (hday : day + 719468 = era * 146097 + dayOfEra) (hlt : dayOfEra < 146097) :
    (ofDayNumber day).year = (commonDays dayOfEra / 365 : Nat) + era * 400 +
      (if yearStart (commonDays dayOfEra / 365) + 306 ≤ dayOfEra then 1 else 0) := by
  obtain ⟨-, hle, hlt'⟩ := mem_year hlt
  have hera : (day + 719468) / 146097 = era := by omega
  have hdayOfEra : ((day + 719468) % 146097).toNat = dayOfEra := by omega
  have hmonths : (if (5 * (dayOfEra - yearStart (commonDays dayOfEra / 365)) + 2) / 153 < 10 then
      (5 * (dayOfEra - yearStart (commonDays dayOfEra / 365)) + 2) / 153 + 3 else
      (5 * (dayOfEra - yearStart (commonDays dayOfEra / 365)) + 2) / 153 - 9) ≤ 2 ↔
        yearStart (commonDays dayOfEra / 365) + 306 ≤ dayOfEra := by
    split <;> omega
  unfold ofDayNumber
  dsimp only
  rw [hera, hdayOfEra]
  exact congrArg _ (if_congr hmonths rfl rfl)

/-- A day of an era comes before the first of January that falls into a year of the era exactly if
it lies in an earlier year. -/
theorem year_le_iff_of_era {n dayOfEra : Nat} (hn : n < 400) (hlt : dayOfEra < 146097) :
    commonDays dayOfEra / 365 +
      (if yearStart (commonDays dayOfEra / 365) + 306 ≤ dayOfEra then 1 else 0) ≤ n ↔
        dayOfEra < yearStart n + 306 := by
  obtain ⟨-, hle, hlt'⟩ := mem_year hlt
  have hiff := le_commonDays_div_iff dayOfEra hn
  generalize commonDays dayOfEra / 365 = year at hle hlt' hiff ⊢
  rcases Nat.lt_trichotomy year n with hearlier | rfl | hlater
  · have : ¬ yearStart n ≤ dayOfEra := by omega
    split <;> omega
  · split <;> omega
  · have hmono : yearStart (n + 1) ≤ yearStart year := yearStart_mono hlater
    have : yearStart n + 306 ≤ yearStart (n + 1) := by
      unfold yearStart
      omega
    omega

/-- A day lies in an earlier year exactly if it comes before the first of January. -/
theorem year_lt_iff (day year : Int) :
    (ofDayNumber day).year < year ↔ day < dayNumber ⟨year, 1, 1⟩ := by
  -- the era of a day and its number in the era, and those of the first of January
  obtain ⟨n, hn⟩ : ∃ n : Nat, (n : Int) = (year - 1) % 400 :=
    ⟨((year - 1) % 400).toNat, by omega⟩
  obtain ⟨dayOfEra, hdayOfEra⟩ : ∃ n : Nat, (n : Int) = (day + 719468) % 146097 :=
    ⟨((day + 719468) % 146097).toNat, by omega⟩
  have hlt : dayOfEra < 146097 := by omega
  have hfirst : dayNumber ⟨year, 1, 1⟩ =
      (year - 1) / 400 * 146097 + (yearStart n + 306 : Nat) - 719468 := by
    unfold dayNumber yearStart
    simp only [show 1 ≤ 2 by decide, if_true, ← hn]
    omega
  have hstart : yearStart n + 306 < 146097 := by
    unfold yearStart
    omega
  have hday : day + 719468 = (day + 719468) / 146097 * 146097 + dayOfEra := by omega
  have hyears := year_le_iff_of_era (show n < 400 by omega) hlt
  have hbound := (mem_year hlt).1
  rw [hfirst, year_ofDayNumber hday hlt]
  generalize commonDays dayOfEra / 365 = count at hyears hbound ⊢
  -- the eras decide, unless they are the same
  split at hyears <;> omega

end Metronome.Date
