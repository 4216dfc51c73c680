import Metronome.Toml.Scalar
import Metronome.Toml.Tree

/-!
# Reading TOML

A TOML text is a sequence of sections. Each begins with the header of a table or of an element of
an array of tables, save for the first one, and holds assignments of values to keys. The text is
first read into sections, and these are then put together.

## Main definitions

* `key` — a key, which may be a path with dots
* `value` — a value of bounded depth
* `Section`, `sections` — the sections of a text
* `Document.ofToml` — the document that a text writes
-/

namespace Metronome

namespace Toml

/-! ### Keys -/

/-- The characters of a key without quotes. -/
def isBare (c : Char) : Bool := c.isAlphanum || c == '_' || c == '-'

/-- One part of a key. -/
def keyPart (cs : List Char) : Option (String × List Char) :=
  match cs with
  | '"' :: _ | '\'' :: _ => quoted cs
  | _ =>
    if (cs.takeWhile isBare).isEmpty then none
    else some (String.ofList (cs.takeWhile isBare), cs.dropWhile isBare)

/-- The parts of a key, which are separated by dots, with the blanks around them. -/
def keyParts : (fuel : Nat) → Reader (List String)
  | 0, _ => none
  | fuel + 1, cs =>
    match keyPart (skipSpace cs) with
    | none => none
    | some (part, rest) =>
      match skipSpace rest with
      | '.' :: rest => (keyParts fuel rest).map fun (parts, rest) => (part :: parts, rest)
      | rest => some ([part], rest)

/-- The greatest depth of values inside values, and of paths, is below this number. -/
def depthLimit : Nat := 80

/-- A key: the path to a table and the name in it. -/
def key (cs : List Char) : Option ((List String × String) × List Char) :=
  match keyParts depthLimit cs with
  | none => none
  | some (parts, rest) =>
    if depthLimit ≤ parts.length then none
    else parts.getLast?.map fun name => ((parts.dropLast, name), rest)

/-! ### Values -/

/-- What remains after blanks, line ends and comments. -/
def skipTrivia : Nat → List Char → List Char
  | 0, cs => cs
  | fuel + 1, cs =>
    let cs := skipSpace cs
    match newline (skipComment cs) with
    | some rest => skipTrivia fuel rest
    | none => cs

/-- The rest of an array, each element read by `element`. A comma may follow the last one. -/
def arrayRest (element : Reader Document) : (fuel : Nat) → Reader (List Document)
  | 0, _ => none
  | fuel + 1, cs =>
    match skipTrivia (cs.length + 1) cs with
    | ']' :: rest => some ([], rest)
    | cs =>
      match element cs with
      | none => none
      | some (d, rest) =>
        match skipTrivia (rest.length + 1) rest with
        | ']' :: rest => some ([d], rest)
        | ',' :: rest => (arrayRest element fuel rest).map fun (ds, rest) => (d :: ds, rest)
        | _ => none

/-- The rest of an inline table with at least one entry; there is no comma after the last one. -/
def inlineRest (element : Reader Document) : (fuel : Nat) → (table : Node) → Reader Node
  | 0, _, _ => none
  | fuel + 1, table, cs =>
    match key cs with
    | some ((path, name), '=' :: rest) =>
      match element (skipSpace rest) with
      | none => none
      | some (d, rest) =>
        match table.assign path name d with
        | none => none
        | some table =>
          match skipSpace rest with
          | '}' :: rest => some (table, rest)
          | ',' :: rest => inlineRest element fuel table rest
          | _ => none
    | _ => none

/-- A table on one line. -/
def inlineTable (element : Reader Document) (cs : List Char) : Option (Document × List Char) :=
  match skipSpace cs with
  | '}' :: rest => some (.table [], rest)
  | cs => (inlineRest element (cs.length + 1) .fresh cs).map fun (t, rest) => (t.toDocument, rest)

/-- A scalar. -/
def scalar (cs : List Char) : Option (Document × List Char) :=
  match cs with
  | '"' :: _ | '\'' :: _ => (string cs).map fun (s, rest) => (.text s, rest)
  | 't' :: _ => (expect "true" cs).map fun rest => (.boolean true, rest)
  | 'f' :: _ => (expect "false" cs).map fun rest => (.boolean false, rest)
  | _ =>
    match moment cs with
    | some (_, rest) => some (.moment, rest)
    | none =>
      match float cs with
      | some (_, rest) => some (.fractional, rest)
      | none => (integer cs).map fun (i, rest) => (.integer i, rest)

/-- A value whose parts are nested less deeply than the given number. -/
def value : (depth : Nat) → Reader Document
  | depth, '[' :: rest =>
    match depth with
    | 0 => none
    | depth + 1 =>
      (arrayRest (value depth) (rest.length + 1) rest).map fun (ds, rest) => (.list ds, rest)
  | depth, '\x7b' :: rest =>
    match depth with
    | 0 => none
    | depth + 1 => inlineTable (value depth) rest
  | _, cs => scalar cs

/-! ### Sections -/

/-- What opens a section. -/
inductive Header
  | document
  | table (path : List String) (name : String)
  | element (path : List String) (name : String)

/-- A key with its value. -/
structure Assignment where
  path : List String
  name : String
  value : Document

/-- A header and the assignments after it. -/
structure Section where
  header : Header
  assignments : List Assignment

/-- The end of a line, after blanks and perhaps a comment. The text may end here as well. -/
def lineEnd (cs : List Char) : Option (List Char) :=
  match skipComment (skipSpace cs) with
  | [] => some []
  | cs => newline cs

/-- An assignment on a line of its own. -/
def assignment (cs : List Char) : Option (Assignment × List Char) :=
  match key cs with
  | some ((path, name), '=' :: rest) =>
    match value (depthLimit - 1) (skipSpace rest) with
    | some (d, rest) => (lineEnd rest).map fun rest => (⟨path, name, d⟩, rest)
    | none => none
  | _ => none

/-- A header on a line of its own. -/
def header (cs : List Char) : Option (Header × List Char) :=
  match cs with
  | '[' :: '[' :: rest =>
    match key rest with
    | some ((path, name), ']' :: ']' :: rest) =>
      (lineEnd rest).map fun rest => (.element path name, rest)
    | _ => none
  | '[' :: rest =>
    match key rest with
    | some ((path, name), ']' :: rest) =>
      (lineEnd rest).map fun rest => (.table path name, rest)
    | _ => none
  | _ => none

/-- The sections of a text, given the one that is being read with its assignments in reverse. -/
def sectionsAfter : (fuel : Nat) → Header → List Assignment → List Char → Option (List Section)
  | 0, _, _, _ => none
  | fuel + 1, current, done, cs =>
    match skipSpace cs with
    | [] => some [⟨current, done.reverse⟩]
    | '[' :: rest =>
      match header ('[' :: rest) with
      | some (next, rest) =>
        (sectionsAfter fuel next [] rest).map (⟨current, done.reverse⟩ :: ·)
      | none => none
    | '#' :: rest =>
      match lineEnd ('#' :: rest) with
      | some rest => sectionsAfter fuel current done rest
      | none => none
    | cs =>
      match newline cs with
      | some rest => sectionsAfter fuel current done rest
      | none =>
        match assignment cs with
        | some (a, rest) => sectionsAfter fuel current (a :: done) rest
        | none => none

/-- The sections of a text. A byte order mark in front does not count. -/
def sections (s : String) : Option (List Section) :=
  let cs := match s.toList with
    | '\ufeff' :: cs => cs
    | cs => cs
  sectionsAfter (cs.length + 1) .document [] cs

/-- Adds a section to a document. -/
def Section.addTo (s : Section) (root : Node) : Option Node :=
  let fill (table : Node) : Option Node :=
    s.assignments.foldlM (fun table a => table.assign a.path a.name a.value) table
  match s.header with
  | .document => fill root
  | .table path name =>
    match root.take path name with
    | some (table, root) => (fill table).bind fun table => root.put path name table
    | none => none
  | .element path name => (fill .fresh).bind fun table => root.append path name table

end Toml

/-- The document that a TOML text writes. -/
def Document.ofToml (s : String) : Option Document :=
  match Toml.sections s with
  | some sections =>
    let root := sections.foldlM (fun root s => Toml.Section.addTo s root) Toml.Node.fresh
    root.map Toml.Node.toDocument
  | none => none

end Metronome
