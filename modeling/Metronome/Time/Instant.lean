import Metronome.Time.Span

/-!
# Points in time

A point in time is counted in nanoseconds from the start of 1970 in UTC, negative before it.

## Main definitions

* `Instant` — a point in time, ordered as its number of nanoseconds
* `Instant.timeTo` — the length of time to a later point, zero when the other is not later
* `Instant.next` — the point that follows, so that what happens in order can be told apart
-/

namespace Metronome

/-- A point in time: nanoseconds since the start of 1970 in UTC. -/
structure Instant where
  nanos : Int
deriving DecidableEq, Inhabited

namespace Instant

/-- The point `nanos` nanoseconds after the second `secs`. -/
def ofParts (secs : Int) (nanos : Nat) : Instant := ⟨secs * 1000000000 + nanos⟩

/-- The start of the second numbered `secs`. -/
def ofSecs (secs : Int) : Instant := ⟨secs * 1000000000⟩

/-- The number of the second that contains the point. -/
def secs (t : Instant) : Int := t.nanos / 1000000000

/-- The nanoseconds since the start of that second. -/
def subsecNanos (t : Instant) : Nat := (t.nanos % 1000000000).toNat

/-- The point rounded down to whole milliseconds. -/
def floorMillis (t : Instant) : Instant := ⟨t.nanos / 1000000 * 1000000⟩

instance : LE Instant := ⟨fun s t => s.nanos ≤ t.nanos⟩

instance : LT Instant := ⟨fun s t => s.nanos < t.nanos⟩

instance (s t : Instant) : Decidable (s ≤ t) := inferInstanceAs (Decidable (s.nanos ≤ t.nanos))

instance (s t : Instant) : Decidable (s < t) := inferInstanceAs (Decidable (s.nanos < t.nanos))

instance : Min Instant := ⟨fun s t => if s ≤ t then s else t⟩

instance : Max Instant := ⟨fun s t => if s ≤ t then t else s⟩

/-- The point a length of time later. -/
instance : HAdd Instant Span Instant := ⟨fun t d => ⟨t.nanos + d.nanos⟩⟩

/-- The length of time from `now` to `target`, zero when `target` has passed. -/
def timeTo (now target : Instant) : Span := ⟨(target.nanos - now.nanos).toNat⟩

/-- The point that follows, a nanosecond later. -/
def next (t : Instant) : Instant := ⟨t.nanos + 1⟩

theorem le_def {s t : Instant} : s ≤ t ↔ s.nanos ≤ t.nanos := Iff.rfl

theorem lt_def {s t : Instant} : s < t ↔ s.nanos < t.nanos := Iff.rfl

theorem le_antisymm {s t : Instant} (h : s ≤ t) (h' : t ≤ s) : s = t := by
  cases s
  cases t
  exact congrArg Instant.mk (Int.le_antisymm h h')

theorem lt_next (t : Instant) : t < t.next := by
  rw [lt_def]
  exact Int.lt_succ t.nanos

end Instant

end Metronome
