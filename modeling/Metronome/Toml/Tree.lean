import Metronome.Document

/-!
# Tables under construction

While a TOML text is read, its tables remember how they came about, because that decides what
may still be added to them. A table is *implicit* while it is only mentioned as part of a longer
path, and *dotted* when this path belonged to a key and not to a header.

## Main definitions

* `Node` — a finished value, a table, or an array of tables
* `Node.within` — a change of the table at the end of a path, which is created as needed
* `Node.assign` — a key gets a value
* `Node.take`, `Node.put` — the table of a header is taken out and put back
* `Node.append` — a table is added to an array of tables
* `Node.toDocument` — the finished document
-/

namespace Metronome.Toml

/-- A part of a TOML document under construction. -/
inductive Node
  | leaf (value : Document)
  | table (implicit dotted : Bool) (entries : List (String × Node))
  | array (tables : List Node)
deriving Inhabited

namespace Node

/-- A table without entries that a header or the document itself has opened. -/
def fresh : Node := .table false false []

/-- The entry of a key. -/
def lookup (key : String) (entries : List (String × Node)) : Option Node :=
  (entries.find? fun e => e.1 == key).map Prod.snd

/-- Replaces the entry of a key or adds one at the end. -/
def store (key : String) (node : Node) : List (String × Node) → List (String × Node)
  | [] => [(key, node)]
  | e :: es => if e.1 == key then (key, node) :: es else e :: store key node es

/-- Looks at the table at the end of a path and changes it. Tables on the way that do not exist
are created as implicit ones. The last table of an array stands for the array. The path of a
dotted key must not lead through a table that was opened by a header. -/
def within {α : Type} (dotted : Bool) (change : Node → Option (α × Node)) :
    List String → Node → Option (α × Node)
  | [], node => change node
  | key :: path, .table implicit isDotted entries =>
    let rebuild (node : Node) : Node := .table implicit isDotted (store key node entries)
    match lookup key entries with
    | none =>
      (within dotted change path (.table true dotted [])).map fun (a, node) => (a, rebuild node)
    | some (.leaf _) => none
    | some (.array tables) =>
      match tables.getLast? with
      | none => none
      | some last =>
        (within dotted change path last).map fun (a, last) =>
          (a, rebuild (.array (tables.dropLast ++ [last])))
    | some (.table childImplicit childDotted children) =>
      -- a header has opened this table, and a dotted key must not add to it
      if dotted && !childImplicit then none
      else
        (within dotted change path (.table childImplicit childDotted children)).map
          fun (a, node) => (a, rebuild node)
  | _ :: _, _ => none

/-- Gives a key of a table its value. The key must be new, and the table must have come about in
the way in which the key is written. -/
def assign (node : Node) (path : List String) (key : String) (value : Document) : Option Node :=
  let change : Node → Option (Unit × Node)
    | .table implicit isDotted entries =>
      if isDotted == path.isEmpty || (lookup key entries).isSome then none
      else some ((), .table implicit isDotted (entries ++ [(key, .leaf value)]))
    | _ => none
  (within true change path node).map Prod.snd

/-- Takes out the table that a header opens. It is new or merely implied by longer headers. -/
def take (root : Node) (path : List String) (key : String) : Option (Node × Node) :=
  let change : Node → Option (Node × Node)
    | .table implicit isDotted entries =>
      match lookup key entries with
      | none => some (fresh, .table implicit isDotted entries)
      | some (.table true false children) =>
        some (.table false false children,
          .table implicit isDotted (entries.filter fun e => e.1 != key))
      | some _ => none
    | _ => none
  within false change path root

/-- Puts a table back where it was taken from. -/
def put (root : Node) (path : List String) (key : String) (table : Node) : Option Node :=
  let change : Node → Option (Unit × Node)
    | .table implicit isDotted entries =>
      some ((), .table implicit isDotted (store key table entries))
    | _ => none
  (within false change path root).map Prod.snd

/-- Adds a table at the end of an array of tables. -/
def append (root : Node) (path : List String) (key : String) (table : Node) : Option Node :=
  let change : Node → Option (Unit × Node)
    | .table implicit isDotted entries =>
      match lookup key entries with
      | none => some ((), .table implicit isDotted (entries ++ [(key, .array [table])]))
      | some (.array tables) =>
        some ((), .table implicit isDotted (store key (.array (tables ++ [table])) entries))
      | some _ => none
    | _ => none
  (within false change path root).map Prod.snd

mutual

/-- The document that a finished node stands for. -/
def toDocument : Node → Document
  | .leaf value => value
  | .table _ _ entries => .table (entryDocuments entries)
  | .array tables => .list (documents tables)

/-- The documents of the entries of a table. -/
def entryDocuments : List (String × Node) → List (String × Document)
  | [] => []
  | (key, node) :: rest => (key, toDocument node) :: entryDocuments rest

/-- The documents of several nodes. -/
def documents : List Node → List Document
  | [] => []
  | node :: rest => toDocument node :: documents rest

end

end Node

end Metronome.Toml
