import Metronome.Text.Blank
import Metronome.Text.Numeral
import Metronome.Time.Span

/-!
# Written durations

A duration is written as a sequence of components such as `1h30m`, each a number with a unit
`d`, `h`, `m`, `s` or `ms`, or as a bare number of seconds. An `m` with an `s` behind it always
means milliseconds. A duration is at least one millisecond and its milliseconds fit 64 bits.

## Main definitions

* `unit?` — a unit in front of a text, in milliseconds
* `components` — the sum of a sequence of components
* `Span.parse` — the length of a written duration
-/

namespace Metronome

namespace Duration

open Text

/-- The unit in front of a text in milliseconds, and what follows it. -/
def unit? : List Char → Option (Nat × List Char)
  | 'd' :: rest => some (86400000, rest)
  | 'h' :: rest => some (3600000, rest)
  | 'm' :: 's' :: rest => some (1, rest)
  | 'm' :: rest => some (60000, rest)
  | 's' :: rest => some (1000, rest)
  | _ => none

/-- The number written by a run of digits. -/
def number (digits : List Char) : Nat :=
  digits.foldl (fun n c => n * 10 + (c.toNat - '0'.toNat)) 0

theorem unit?_length {cs rest : List Char} {ms : Nat} (h : unit? cs = some (ms, rest)) :
    rest.length < cs.length := by
  unfold unit? at h
  split at h <;> cases h <;> simp only [List.length_cons] <;> omega

/-- The sum in milliseconds of a sequence of components. -/
def components (cs : List Char) : Option Nat :=
  if cs.isEmpty then some 0
  else if (cs.takeWhile Char.isDigit).isEmpty then none
  else
    match _h : unit? (cs.dropWhile Char.isDigit) with
    | none => none
    | some (ms, rest) =>
      (components rest).map fun total => number (cs.takeWhile Char.isDigit) * ms + total
termination_by cs.length
decreasing_by
  have := unit?_length _h
  have := (List.dropWhile_sublist Char.isDigit (l := cs)).length_le
  omega

/-- The milliseconds of a text without blanks around it. -/
def milliseconds? (cs : List Char) : Option Nat :=
  if cs.isEmpty then none
  else if cs.all Char.isDigit then some (number cs * 1000)
  else components cs

end Duration

/-- The length of a written duration. Blanks around it do not count. -/
def Span.parse (s : String) : Option Span :=
  match Duration.milliseconds? (Text.trimChars s.toList) with
  | some ms => if 0 < ms ∧ ms ≤ Text.Numeral.wordMax then some (.ofMillis ms) else none
  | none => none

end Metronome
