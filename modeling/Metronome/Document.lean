/-!
# Documents

A document is what a configuration is read from: nested tables and lists of plain values. It can
be read as a record, by the names of the fields or by their order.

## Main definitions

* `Document` — a plain value, a list or a table
* `Record` — the fields of a record, by name or by position
* `Record.required`, `Record.optional`, `Record.defaulted` — the three kinds of fields
-/

namespace Metronome

/-- A plain value, a list or a table. -/
inductive Document
  | null
  | boolean (b : Bool)
  | integer (i : Int)
  /-- A number that is not written as an integer. -/
  | fractional
  /-- A date, a time of day or both. -/
  | moment
  | text (s : String)
  | list (items : List Document)
  | table (entries : List (String × Document))
deriving Inhabited

/-- The fields of a record, by name or by position. -/
inductive Record
  | named (entries : List (String × Document))
  | positional (items : List Document)

namespace Record

/-- The field of the given name, or at the given position. -/
def get? (r : Record) (position : Nat) (name : String) : Option Document :=
  match r with
  | .named entries => (entries.find? fun e => e.1 == name).map Prod.snd
  | .positional items => items[position]?

variable {α : Type}

/-- A field that has to be there. -/
def required (r : Record) (position : Nat) (name : String) (read : Document → Option α) :
    Option α :=
  (r.get? position name).bind read

/-- A field that may be null. It may be left out of a record with names only. -/
def optional (r : Record) (position : Nat) (name : String) (read : Document → Option α) :
    Option (Option α) :=
  match r.get? position name, r with
  | some .null, _ => some none
  | some d, _ => (read d).map some
  | none, .named _ => some none
  | none, .positional _ => none

/-- A field that has a default value when it is left out. -/
def defaulted (r : Record) (position : Nat) (name : String) (default : α)
    (read : Document → Option α) : Option α :=
  match r.get? position name with
  | some d => read d
  | none => some default

end Record

namespace Document

/-- The record of `size` fields that a document can be read as. A date or time counts as a table
without any known field. In a strict reading, a list must not be longer than the record. -/
def record? (strict : Bool) (size : Nat) : Document → Option Record
  | .table entries => some (.named entries)
  | .list items => if strict && decide (size < items.length) then none else some (.positional items)
  | .moment => some (.named [])
  | _ => none

/-- A truth value. -/
def boolean? : Document → Option Bool
  | .boolean b => some b
  | _ => none

/-- A text. -/
def text? : Document → Option String
  | .text s => some s
  | _ => none

/-- An unsigned number of 64 bits. -/
def word? : Document → Option Nat
  | .integer i => if 0 ≤ i ∧ i < 18446744073709551616 then some i.toNat else none
  | _ => none

/-- A list of things that can all be read. -/
def list? {α : Type} (read : Document → Option α) : Document → Option (List α)
  | .list items => items.mapM read
  | _ => none

end Document

end Metronome
