import Metronome.Text.Alphanumeric
import Metronome.Text.Blank

/-!
# Environments and environment files

An environment gives values to names. A file can add to it: each of its lines assigns a value to
a name that has none yet, a line that begins with `#` is a comment, and a value ends at a blank
unless it is quoted. A value can refer to the value of another name by `$NAME` or, for a name of
any characters, by the name in braces after the dollar sign; it has to be given before. The first
line that makes no sense ends the reading.

## Main definitions

* `Environment` — names and their values
* `EnvFile.lines` — the lines of a file, where a quoted value may go over several of them
* `EnvFile.value` — the value that a text writes, with the variables in it replaced
* `EnvFile.assignment` — the name and the value of a line
* `Environment.load` — the environment after reading a file
-/

namespace Metronome

/-- Names and their values. -/
abbrev Environment := List (String × String)

/-- The value of a name. -/
def Environment.get? (env : Environment) (name : String) : Option String :=
  (env.find? fun e => e.1 == name).map Prod.snd

namespace EnvFile

open Text

/-! ### Lines -/

/-- What a line is in the middle of when it is read from left to right. -/
inductive Scan
  | plain
  | afterBlank
  | escaped
  | single
  | singleEscaped
  | double
  | doubleEscaped
deriving DecidableEq

/-- How a character outside of quotes goes on. -/
def Scan.outside (c : Char) (other : Scan) : Scan :=
  if c == '\\' then .escaped
  else if c == '"' then .double
  else if c == '\'' then .single
  else other

/-- How a line goes on after a character. A comment begins where the result is `none`. -/
def Scan.next (s : Scan) (c : Char) : Option Scan :=
  match s with
  | .plain =>
    -- a line end is no blank here, so that a line which ends after a blank is finished
    let blank := isBlank c && c != '\n' && c != '\r'
    some (.outside c (if blank then .afterBlank else .plain))
  | .afterBlank => if c == '#' then none else some (.outside c .plain)
  | .escaped => some .plain
  | .single => some (if c == '\\' then .singleEscaped else if c == '\'' then .plain else .single)
  | .singleEscaped => some .single
  | .double => some (if c == '\\' then .doubleEscaped else if c == '"' then .plain else .double)
  | .doubleEscaped => some .double

/-- How a line ends, and its characters in front of a comment, which are given in reverse. -/
def Scan.run (s : Scan) (done : List Char) : List Char → Option Scan × List Char
  | [] => (some s, done.reverse)
  | c :: cs =>
    match s.next c with
    | none => (none, done.reverse)
    | some s => Scan.run s (c :: done) cs

/-- Splits a text after each line feed. -/
def physicalLines (line : List Char) : List Char → List (List Char)
  | [] => if line.isEmpty then [] else [line.reverse]
  | c :: cs =>
    if c == '\n' then (c :: line).reverse :: physicalLines [] cs else physicalLines (c :: line) cs

/-- A line without the line end. -/
def stripEnd (line : List Char) : List Char :=
  match line.reverse with
  | '\n' :: '\r' :: rest => rest.reverse
  | '\n' :: rest => rest.reverse
  | _ => line

/-- The lines of a file, without comments, given what has been read of the current one. A line
that the file leaves unfinished is `none`. -/
def linesAfter (s : Scan) (line : List Char) : List (List Char) → List (Option (List Char))
  | [] => if s = .plain then [] else [none]
  | l :: ls =>
    if ((line ++ l).dropWhile isBlank).head? = some '#' then some [] :: linesAfter .plain [] ls
    else
      match s.run [] l with
      | (none, front) => some (line ++ front) :: linesAfter .plain [] ls
      | (some .plain, _) => some (stripEnd (line ++ l)) :: linesAfter .plain [] ls
      | (some s, _) => linesAfter s (line ++ l) ls

/-- The lines of a file, without comments. -/
def lines (text : String) : List (Option (List Char)) :=
  linesAfter .plain [] (physicalLines [] text.toList)

/-! ### Assignments -/

/-- A name in front: letters, digits, underscores and dots, but no digit or dot at first. -/
def name (cs : List Char) : Option (String × List Char) :=
  match cs with
  | c :: _ =>
    if c.isAlpha || c == '_' then
      let ok (c : Char) := c.isAlphanum || c == '_' || c == '.'
      some (String.ofList (cs.takeWhile ok), cs.dropWhile ok)
    else none
  | [] => none

/-- What a value is in the middle of when it is read from left to right. After a dollar sign comes
the name of a variable, of which the characters read so far are kept in reverse. The flag `quoted`
says that all of it stands between double quotes. -/
inductive ValueState
  | plain
  | afterBlank
  | single
  | double
  | escaped (quoted : Bool)
  | bareName (quoted : Bool) (name : List Char)
  | bracedName (quoted : Bool) (name : List Char)

/-- How a value goes on after an escape or a variable. -/
def ValueState.resume (quoted : Bool) : ValueState := if quoted then .double else .plain

/-- The character that a backslash and a character stand for, outside of single quotes. -/
def escape? (c : Char) : Option Char :=
  if c == 'n' then some '\n'
  else if c == '\\' || c == '\'' || c == '"' || c == '$' || c == ' ' then some c
  else none

/-- Puts the value of a variable, which is empty when it has none, after what is done. Both the
name and what is done are given in reverse. -/
def expand (env : Environment) (name done : List Char) : List Char :=
  ((env.get? (String.ofList name.reverse)).getD "").toList.reverse ++ done

/-- The value that a text writes, after the characters of it that are given in reverse. After a
blank outside of quotes only a comment may follow. The name of a variable ends in front of the
first character that is no letter or number, which then stands for itself, be it a quote; a name
in braces ends with the closing one. -/
def value (env : Environment) (s : ValueState) (done : List Char) : List Char → Option String
  | [] =>
    match s with
    | .plain | .afterBlank | .escaped false => some (String.ofList done.reverse)
    | .bareName false name => some (String.ofList (expand env name done).reverse)
    | .single | .double | .escaped true | .bareName true _ | .bracedName _ _ => none
  | c :: cs =>
    match s with
    | .afterBlank =>
      if c == ' ' || c == '\t' then value env .afterBlank done cs
      else if c == '#' then some (String.ofList done.reverse)
      else none
    | .escaped quoted =>
      match escape? c with
      | some c => value env (.resume quoted) (c :: done) cs
      | none => none
    | .single =>
      if c == '\'' then value env .plain done cs else value env .single (c :: done) cs
    | .bareName quoted name =>
      if isAlphanumeric c then value env (.bareName quoted (c :: name)) done cs
      else if c == '\x7b' && name.isEmpty then value env (.bracedName quoted []) done cs
      else if c == '$' then value env (.bareName quoted []) (expand env name done) cs
      else value env (.resume quoted) (c :: expand env name done) cs
    | .bracedName quoted name =>
      if c == '\x7d' then value env (.resume quoted) (expand env name done) cs
      else value env (.bracedName quoted (c :: name)) done cs
    | .double =>
      if c == '$' then value env (.bareName true []) done cs
      else if c == '"' then value env .plain done cs
      else if c == '\\' then value env (.escaped true) done cs
      else value env .double (c :: done) cs
    | .plain =>
      if c == '$' then value env (.bareName false []) done cs
      else if c == '\'' then value env .single done cs
      else if c == '"' then value env .double done cs
      else if c == '\\' then value env (.escaped false) done cs
      else if c == ' ' || c == '\t' then value env .afterBlank done cs
      else value env .plain (c :: done) cs

/-- The value of a name after the equals sign. -/
def valueOf (env : Environment) (name : String) (cs : List Char) :
    Option (Option (String × String)) :=
  match cs.dropWhile isBlank with
  | '=' :: rest =>
    let rest := rest.dropWhile isBlank
    if rest.isEmpty || rest.head? = some '#' then some (some (name, ""))
    else (value env .plain [] rest).map fun v => some (name, v)
  | _ => none

/-- The assignment on a line: `none` when the line makes no sense, and nothing when it is blank.
The word `export` may stand in front, and blanks at the two ends do not count. -/
def assignment (env : Environment) (line : List Char) : Option (Option (String × String)) :=
  let cs := trimChars line
  if cs.isEmpty || cs.head? = some '#' then some none
  else
    match name cs with
    | none => none
    | some (first, rest) =>
      let rest := rest.dropWhile isBlank
      if first == "export" && rest.head? != some '=' then
        (name rest).bind fun (second, rest) => valueOf env second rest
      else valueOf env first rest

end EnvFile

/-- Adds the assignments of lines up to the first one that makes no sense. -/
def Environment.loadLines (env : Environment) : List (Option (List Char)) → Environment
  | [] => env
  | line :: lines =>
    match line.bind (EnvFile.assignment env) with
    | none => env
    | some none => env.loadLines lines
    | some (some (name, value)) =>
      if (env.get? name).isSome then env.loadLines lines
      else Environment.loadLines (env ++ [(name, value)]) lines

/-- The environment after reading a file. A byte order mark in front does not count. -/
def Environment.load (env : Environment) (text : String) : Environment :=
  let text := match text.toList with
    | '\ufeff' :: cs => String.ofList cs
    | _ => text
  env.loadLines (EnvFile.lines text)

end Metronome
