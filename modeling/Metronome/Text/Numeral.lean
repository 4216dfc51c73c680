/-!
# Numerals

Reading an unsigned decimal numeral that has to stay below a given bound. A plus sign in front
is allowed, digits are the ASCII ones, and nothing else is. The characters are taken from left
to right, and the first one that cannot be taken decides what is wrong.

## Main definitions

* `NumeralError` — why a text is no numeral in range, with its wording
* `Numeral.read` — the value of a numeral of at most a given value
* `Numeral.readWord?` — the value of a numeral that fits 64 bits
-/

namespace Metronome.Text

/-- Why a text is no numeral in range. -/
inductive NumeralError
  | empty
  | invalidDigit
  | tooLarge
deriving DecidableEq, Repr

/-- The wording of a numeral error. -/
def NumeralError.message : NumeralError → String
  | .empty => "cannot parse integer from empty string"
  | .invalidDigit => "invalid digit found in string"
  | .tooLarge => "number too large to fit in target type"

/-- The value of an ASCII digit. -/
def digit? (c : Char) : Option Nat :=
  if c.isDigit then some (c.toNat - '0'.toNat) else none

namespace Numeral

/-- Appends the digits `cs` to the number `value`, which never exceeds `limit`. -/
def readDigits (limit value : Nat) : List Char → Except NumeralError Nat
  | [] => .ok value
  | c :: cs =>
    match digit? c with
    | none => .error .invalidDigit
    | some d =>
      if limit < value * 10 + d then .error .tooLarge
      else readDigits limit (value * 10 + d) cs

/-- The value of a numeral of at most `limit`. -/
def read (limit : Nat) (cs : List Char) : Except NumeralError Nat :=
  match cs with
  | [] => .error .empty
  | '+' :: [] => .error .invalidDigit
  | '+' :: ds => readDigits limit 0 ds
  | ds => readDigits limit 0 ds

/-- The greatest number of 64 bits. -/
def wordMax : Nat := 18446744073709551615

/-- The value of a numeral that fits 64 bits. -/
def readWord? (cs : List Char) : Option Nat := (read wordMax cs).toOption

end Numeral

end Metronome.Text
