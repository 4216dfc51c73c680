/-!
# Lengths of time

A length of time is a whole number of nanoseconds.

## Main definitions

* `Span` — a length of time, with its views in seconds and milliseconds
* `Span.text` — the shortest exact text in the largest fitting unit, such as `1.5s` or `250ms`
-/

namespace Metronome

/-- A length of time in nanoseconds. -/
structure Span where
  nanos : Nat
deriving DecidableEq, Inhabited

namespace Span

/-- The length of `secs` seconds and `nanos` nanoseconds. -/
def ofParts (secs nanos : Nat) : Span := ⟨secs * 1000000000 + nanos⟩

/-- The length of `n` milliseconds. -/
def ofMillis (n : Nat) : Span := ⟨n * 1000000⟩

/-- The whole seconds of a length. -/
def secs (d : Span) : Nat := d.nanos / 1000000000

/-- What remains beyond the whole seconds. -/
def subsecNanos (d : Span) : Nat := d.nanos % 1000000000

/-- The whole milliseconds of a length. -/
def millis (d : Span) : Nat := d.nanos / 1000000

/-- Whether a length is zero. -/
def isZero (d : Span) : Bool := d.nanos == 0

instance : LE Span := ⟨fun d e => d.nanos ≤ e.nanos⟩

instance (d e : Span) : Decidable (d ≤ e) := inferInstanceAs (Decidable (d.nanos ≤ e.nanos))

/-- The digits of `n`, filled up with zeros in front to at least `width` of them. -/
def padded (width n : Nat) : List Char :=
  let digits := Nat.toDigits 10 n
  List.replicate (width - digits.length) '0' ++ digits

/-- The exact decimal text of `nanos / 10 ^ places`, without trailing zeros. -/
def decimal (nanos places : Nat) : String :=
  let whole := nanos / Nat.pow 10 places
  let fraction := nanos % Nat.pow 10 places
  if fraction = 0 then toString whole
  else
    let digits := (padded places fraction).reverse.dropWhile (· == '0')
    toString whole ++ "." ++ String.ofList digits.reverse

/-- The exact text of a length in the largest of the units `s`, `ms`, `µs` and `ns` of which it
holds at least one, or in `ns` when it is zero. -/
def text (d : Span) : String :=
  if 1000000000 ≤ d.nanos then decimal d.nanos 9 ++ "s"
  else if 1000000 ≤ d.nanos then decimal d.nanos 6 ++ "ms"
  else if 1000 ≤ d.nanos then decimal d.nanos 3 ++ "µs"
  else toString d.nanos ++ "ns"

end Span

end Metronome
