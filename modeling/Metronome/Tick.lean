/-!
# Tick numbers

A timer counts its ticks in a signed 64-bit number. A tick that would lie beyond the last
representable one stays at the last one, so that a schedule which asks to be looked at
"very much later" is never looked at early.

## Main definitions

* `Tick` — a tick number together with the bounds it respects
* `Tick.last` — the greatest tick, which also stands for "no tick at all"
* `Tick.ofInt` — the tick nearest to an integer
* `t + n` — the tick `n` ticks after `t`, or `Tick.last`

## Main results

* `Tick.val_add` — addition is exact until it reaches `Tick.last`
* `Tick.le_last` — no tick lies beyond `Tick.last`
-/

namespace Metronome

/-- A tick number: an integer that fits a signed 64-bit word. -/
structure Tick where
  /-- The number of the tick. -/
  val : Int
  lower : -9223372036854775808 ≤ val
  upper : val ≤ 9223372036854775807
deriving DecidableEq

namespace Tick

/-- The tick nearest to the integer `i`. -/
def ofInt (i : Int) : Tick :=
  ⟨max (-9223372036854775808) (min i 9223372036854775807), by omega, by omega⟩

/-- The greatest tick number. -/
def last : Tick := ⟨9223372036854775807, by decide, by decide⟩

instance (n : Nat) : OfNat Tick n := ⟨ofInt n⟩

instance : Inhabited Tick := ⟨0⟩

instance : LE Tick := ⟨fun s t => s.val ≤ t.val⟩

instance : LT Tick := ⟨fun s t => s.val < t.val⟩

instance (s t : Tick) : Decidable (s ≤ t) := inferInstanceAs (Decidable (s.val ≤ t.val))

instance (s t : Tick) : Decidable (s < t) := inferInstanceAs (Decidable (s.val < t.val))

instance : Min Tick := ⟨fun s t => if s ≤ t then s else t⟩

instance : Max Tick := ⟨fun s t => if s ≤ t then t else s⟩

/-- The tick `n` ticks after `t`, or the last tick when there is no such tick. -/
instance : HAdd Tick Nat Tick := ⟨fun t n => ofInt (t.val + n)⟩

theorem le_def {s t : Tick} : s ≤ t ↔ s.val ≤ t.val := Iff.rfl

theorem lt_def {s t : Tick} : s < t ↔ s.val < t.val := Iff.rfl

@[ext] theorem ext {s t : Tick} (h : s.val = t.val) : s = t := by
  cases s; cases t; cases h; rfl

/-- No tick lies beyond the last one. -/
theorem le_last (t : Tick) : t ≤ last := t.upper

theorem val_min (s t : Tick) : (min s t).val = min s.val t.val := by
  change (if s ≤ t then s else t).val = _
  split <;> rename_i h <;> rw [le_def] at h <;> omega

theorem val_max (s t : Tick) : (max s t).val = max s.val t.val := by
  change (if s ≤ t then t else s).val = _
  split <;> rename_i h <;> rw [le_def] at h <;> omega

/-- Addition is exact until it reaches the last tick. -/
theorem val_add (t : Tick) (n : Nat) : (t + n).val = min (t.val + n) last.val := by
  have := t.lower
  change (ofInt (t.val + n)).val = _
  simp only [ofInt, last]
  omega

end Tick

end Metronome
