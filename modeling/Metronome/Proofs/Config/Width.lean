import Mathlib.Algebra.Group.Nat.Defs
import Metronome.Proofs.Config.Usable

/-!
# Settings for a width of a tick

Settings can be made from the width of a tick alone. The width is rounded down to whole
milliseconds, of which there is at least one, and all else has its default value. A recurrence then
waits for at most a second until it looks at the clock again. A tick of more than a second would be
longer than that, so that the settings for it are refused when they are checked.

Nothing is said of the width that is kept when its milliseconds do not fit 64 bits.

## Main results

* `TimerConfig.cronRecheckTicks_eq` — the longest wait of a recurrence, rounded down to whole ticks
* `TimerConfig.withInterval_sound_iff` — the widths whose settings make sense
* `TimerConfig.withInterval_fits` — what the settings for a width are, and what the check says
-/

namespace Metronome

namespace TimerConfig

variable {c : TimerConfig} {d : Span}

/-! ### The longest wait of a recurrence -/

theorem one_le_cronRecheckTicks (c : TimerConfig) : 1 ≤ c.cronRecheckTicks :=
  Nat.le_max_right ..

/-- A wait whose milliseconds fit a signed number of 64 bits does not wrap around. -/
theorem cronRecheckTicks_eq (hinterval : 0 < c.intervalMs) (hrecheck : c.cronRecheckMs < 2 ^ 63) :
    c.cronRecheckTicks = max 1 (c.cronRecheckMs / c.intervalMs) := by
  have hticks : c.cronRecheckMs / c.intervalMs < 2 ^ 63 :=
    (Nat.div_le_self ..).trans_lt hrecheck
  have hsigned : Int.bmod (c.cronRecheckMs / c.intervalMs : Nat) 18446744073709551616 =
      (c.cronRecheckMs / c.intervalMs : Nat) := by
    generalize c.cronRecheckMs / c.intervalMs = ticks at *
    exact Int.bmod_eq_of_le (by omega) (by omega)
  unfold cronRecheckTicks
  rw [Nat.max_eq_left hinterval]
  dsimp only
  rw [hsigned, Int.toNat_natCast, Nat.max_comm]

/-! ### The settings for a width -/

@[simp]
theorem cronRecheckMs_withInterval (d : Span) : (withInterval d).cronRecheckMs = 1000 := rfl

/-- A width whose milliseconds fit 64 bits is kept. -/
theorem intervalMs_withInterval (h : d.millis < 2 ^ 64) :
    (withInterval d).intervalMs = max d.millis 1 :=
  Nat.mod_eq_of_lt (Nat.max_lt.mpr ⟨h, by decide⟩)

theorem intervalMs_withInterval_pos (h : d.millis < 2 ^ 64) : 0 < (withInterval d).intervalMs := by
  rw [intervalMs_withInterval h]
  exact Nat.le_max_right ..

/-- The settings make sense for the ticks that last no longer than a recurrence waits. -/
theorem withInterval_sound_iff (h : d.millis < 2 ^ 64) :
    (withInterval d).Sound ↔ d.millis ≤ 1000 := by
  have hrecheck : (withInterval d).intervalMs ≤ (withInterval d).cronRecheckMs ↔
      d.millis ≤ 1000 := by
    rw [intervalMs_withInterval h, cronRecheckMs_withInterval, Nat.max_le]
    exact and_iff_left (by decide)
  exact ⟨fun hsound => hrecheck.mp hsound.recheck,
    fun hle => ⟨intervalMs_withInterval_pos h, hrecheck.mpr hle⟩⟩

/-- Ticks that last longer than a recurrence waits are refused. -/
theorem validate_withInterval_of_lt (h : d.millis < 2 ^ 64) (hlong : 1000 < d.millis) :
    (withInterval d).validate = .error (.invalid (.recheckBelowInterval 1000 d.millis)) := by
  have hwidth : (withInterval d).intervalMs = d.millis := by
    rw [intervalMs_withInterval h]
    omega
  unfold validate
  rw [hwidth, cronRecheckMs_withInterval, if_neg (by omega), if_pos hlong]

/-- Settings for a width let a recurrence wait for at least one tick. As long as the milliseconds
of the width fit 64 bits, a tick is as wide as asked for, rounded down to whole milliseconds but at
least one, the wait is the default one in whole ticks, and the check lets pass just those ticks that
last no longer than it. -/
theorem withInterval_fits (d : Span) :
    1 ≤ (withInterval d).cronRecheckTicks ∧
      (d.millis < 2 ^ 64 →
        (withInterval d).interval.nanos = max (d.nanos / 1000000) 1 * 1000000 ∧
        (withInterval d).cronRecheckTicks =
          max 1 ((withInterval d).cronRecheckMs / (withInterval d).intervalMs) ∧
        (withInterval d).validate =
          if d.millis ≤ 1000 then .ok ()
          else .error (.invalid (.recheckBelowInterval 1000 d.millis))) := by
  refine ⟨one_le_cronRecheckTicks _, fun h => ⟨?_, ?_, ?_⟩⟩
  · rw [interval, intervalMs_withInterval h]
    rfl
  · exact cronRecheckTicks_eq (intervalMs_withInterval_pos h) (by simp)
  · split
    · next hshort => exact (validate_eq_ok _).mpr ((withInterval_sound_iff h).mpr hshort)
    · next hlong => exact validate_withInterval_of_lt h (Nat.lt_of_not_le hlong)

/-- A tick of a little more than a quarter of a second lasts for 250 milliseconds, and a recurrence
waits for four of them. -/
theorem withInterval_fits_quarter :
    (Span.ofParts 0 250999999).millis < 2 ^ 64 ∧
      (withInterval (.ofParts 0 250999999)).interval = .ofMillis 250 ∧
      (withInterval (.ofParts 0 250999999)).cronRecheckTicks = 4 ∧
      (withInterval (.ofParts 0 250999999)).validate = .ok () := by
  have hfits : (Span.ofParts 0 250999999).millis < 2 ^ 64 := by decide
  obtain ⟨-, h⟩ := withInterval_fits (.ofParts 0 250999999)
  obtain ⟨hinterval, hticks, hvalid⟩ := h hfits
  exact ⟨hfits, congrArg Span.mk hinterval, hticks, hvalid⟩

/-- The settings for a tick of two seconds are refused. -/
theorem validate_withInterval_two_seconds :
    (withInterval (.ofParts 2 0)).validate =
      .error (.invalid (.recheckBelowInterval 1000 2000)) := by
  decide

end TimerConfig

end Metronome
