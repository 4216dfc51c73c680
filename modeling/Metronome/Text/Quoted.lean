import Metronome.Text.Hidden

/-!
# Quoted texts and named fields

How values are shown to a developer: texts between double quotes with escapes for all that could
not be seen, and records as a name with its fields between braces.

## Main definitions

* `quote` — a text between double quotes
* `record` — a name with named fields
* `call` — a name with one value in parentheses
-/

namespace Metronome.Text

/-- The digits of a number in base sixteen. -/
def hex (n : Nat) : List Char := Nat.toDigits 16 n

/-- A number in base sixteen, filled up with zeros in front to the given width. -/
def hexPadded (width n : Nat) : String :=
  String.ofList (List.replicate (width - (hex n).length) '0' ++ hex n)

/-- A character as it stands between double quotes. -/
def quoteChar (c : Char) : List Char :=
  if c == '\x00' then ['\\', '0']
  else if c == '\t' then ['\\', 't']
  else if c == '\r' then ['\\', 'r']
  else if c == '\n' then ['\\', 'n']
  else if c == '\\' || c == '"' then ['\\', c]
  else if isHidden c then ['\\', 'u', '\x7b'] ++ hex c.toNat ++ ['\x7d']
  else [c]

/-- A text between double quotes. -/
def quote (s : String) : String :=
  "\"" ++ String.ofList (s.toList.flatMap quoteChar) ++ "\""

/-- A record with named fields. -/
def record (name : String) (fields : List (String × String)) : String :=
  name ++ " \x7b " ++ ", ".intercalate (fields.map fun (k, v) => k ++ ": " ++ v) ++ " \x7d"

/-- A name with a value in parentheses. -/
def call (name value : String) : String := name ++ "(" ++ value ++ ")"

/-- An optional value. -/
def option (value : Option String) : String :=
  match value with
  | some v => call "Some" v
  | none => "None"

end Metronome.Text
