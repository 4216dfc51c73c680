import Metronome.Document

/-!
# Scalars of TOML

Readers for the values of TOML that contain no other values: strings in their four forms,
integers, floating-point numbers, truth values, and dates and times. A reader takes a scalar from
the front of a text and yields what remains. Nothing is known of a number with a fraction or of a
date but that it is well-formed.

## Main definitions

* `quoted`, `multiline`, `string` — strings
* `integer`, `float` — numbers
* `date`, `timeOfDay`, `moment` — dates and times
-/

namespace Metronome.Toml

/-- A reader takes something from the front of a text. -/
abbrev Reader (α : Type) := List Char → Option (α × List Char)

/-- What remains after an expected beginning. -/
def expect (word : String) (cs : List Char) : Option (List Char) :=
  if word.toList.isPrefixOf cs then some (cs.drop word.length) else none

/-! ### Characters -/

/-- Blanks inside a line. -/
def isSpace (c : Char) : Bool := c == ' ' || c == '\t'

/-- What remains after the blanks in front. -/
def skipSpace (cs : List Char) : List Char := cs.dropWhile isSpace

/-- Characters that may stand in comments and between quotes: all but control characters. -/
def isPlain (c : Char) : Bool := c == '\t' || (0x20 ≤ c.toNat && c.toNat ≠ 0x7F)

/-- The end of a line. -/
def newline : List Char → Option (List Char)
  | '\n' :: rest => some rest
  | '\r' :: '\n' :: rest => some rest
  | _ => none

/-- A comment in front is skipped up to the end of its line. -/
def skipComment : List Char → List Char
  | '#' :: rest => rest.dropWhile isPlain
  | cs => cs

/-! ### Strings -/

/-- The value of a hexadecimal digit. -/
def hexDigit? (c : Char) : Option Nat :=
  if c.isDigit then some (c.toNat - '0'.toNat)
  else if 'a' ≤ c ∧ c ≤ 'f' then some (c.toNat - 'a'.toNat + 10)
  else if 'A' ≤ c ∧ c ≤ 'F' then some (c.toNat - 'A'.toNat + 10)
  else none

/-- The character with the code point that `count` hexadecimal digits write. -/
def codePoint (count : Nat) (cs : List Char) : Option (Char × List Char) :=
  if cs.length < count then none
  else
    match (cs.take count).mapM hexDigit? with
    | none => none
    | some digits =>
      let code := digits.foldl (fun n d => n * 16 + d) 0
      if h : code.isValidChar then some (Char.ofNatAux code h, cs.drop count) else none

/-- The character that an escape sequence stands for, after the backslash. -/
def escape : Reader Char
  | 'b' :: rest => some ('\x08', rest)
  | 't' :: rest => some ('\t', rest)
  | 'n' :: rest => some ('\n', rest)
  | 'f' :: rest => some ('\x0c', rest)
  | 'r' :: rest => some ('\r', rest)
  | '"' :: rest => some ('"', rest)
  | '\\' :: rest => some ('\\', rest)
  | 'u' :: rest => codePoint 4 rest
  | 'U' :: rest => codePoint 8 rest
  | _ => none

/-- The rest of a string between double quotes on one line. -/
def quotedRest : (fuel : Nat) → (done : List Char) → Reader String
  | 0, _, _ => none
  | fuel + 1, done, cs =>
    match cs with
    | '"' :: rest => some (String.ofList done.reverse, rest)
    | '\\' :: rest =>
      match escape rest with
      | some (c, rest) => quotedRest fuel (c :: done) rest
      | none => none
    | c :: rest => if isPlain c then quotedRest fuel (c :: done) rest else none
    | [] => none

/-- The rest of a string between single quotes on one line, in which nothing is escaped. -/
def literalRest (cs : List Char) : Option (String × List Char) :=
  let isBody (c : Char) := isPlain c && c != '\''
  match cs.dropWhile isBody with
  | '\'' :: rest => some (String.ofList (cs.takeWhile isBody), rest)
  | _ => none

/-- A string on one line. -/
def quoted : Reader String
  | '"' :: rest => quotedRest (rest.length + 1) [] rest
  | '\'' :: rest => literalRest rest
  | _ => none

/-- What remains after blanks and line ends. -/
def skipLines : Nat → List Char → List Char
  | 0, cs => cs
  | fuel + 1, cs =>
    let cs := skipSpace cs
    match newline cs with
    | some rest => skipLines fuel rest
    | none => cs

/-- What remains after a backslash at the end of a line and all blanks and line ends after it. -/
def lineJoin (cs : List Char) : Option (List Char) :=
  (newline (skipSpace cs)).map fun rest => skipLines (rest.length + 1) rest

/-- The quotes at the end of a string over several lines: three of them end it, and up to two
more in front of these belong to it. -/
def closing (quote : Char) (cs : List Char) : Option (List Char × List Char) :=
  let count := (cs.takeWhile (· == quote)).length
  if count < 3 then none
  else some (List.replicate (min count 5 - 3) quote, cs.drop (min count 5))

/-- The rest of a string over several lines. Line ends are kept as line feeds. Escapes are
understood between double quotes only. -/
def multilineRest (quote : Char) : (fuel : Nat) → (done : List Char) → Reader String
  | 0, _, _ => none
  | fuel + 1, done, cs =>
    match closing quote cs with
    | some (extra, rest) => some (String.ofList (done.reverse ++ extra), rest)
    | none =>
      match newline cs with
      | some rest => multilineRest quote fuel ('\n' :: done) rest
      | none =>
        match cs with
        | [] => none
        | c :: rest =>
          if c = '\\' ∧ quote = '"' then
            match lineJoin rest with
            | some rest => multilineRest quote fuel done rest
            | none =>
              match escape rest with
              | some (c, rest) => multilineRest quote fuel (c :: done) rest
              | none => none
          else if isPlain c then multilineRest quote fuel (c :: done) rest
          else none

/-- A string over several lines. A line end right after the opening quotes does not count. -/
def multiline (cs : List Char) : Option (String × List Char) :=
  let body (quote : Char) (rest : List Char) :=
    let rest := (newline rest).getD rest
    multilineRest quote (rest.length + 1) [] rest
  match cs with
  | '"' :: '"' :: '"' :: rest => body '"' rest
  | '\'' :: '\'' :: '\'' :: rest => body '\'' rest
  | _ => none

/-- A string in any of its forms. Three quotes always open a string over several lines. -/
def string (cs : List Char) : Option (String × List Char) :=
  match cs with
  | '"' :: '"' :: '"' :: _ => multiline cs
  | '\'' :: '\'' :: '\'' :: _ => multiline cs
  | _ => quoted cs

/-! ### Numbers -/

/-- Digits of a class with single underscores between them; a trailing underscore is wrong. -/
def digitsRest (ok : Char → Bool) : (done : List Char) → Reader (List Char)
  | done, '_' :: c :: rest => if ok c then digitsRest ok (c :: done) rest else none
  | _, ['_'] => none
  | done, c :: rest =>
    if ok c then digitsRest ok (c :: done) rest else some (done.reverse, c :: rest)
  | done, [] => some (done.reverse, [])

/-- At least one digit of a class, with single underscores between digits. -/
def digits (ok : Char → Bool) : Reader (List Char)
  | c :: rest => if ok c then digitsRest ok [c] rest else none
  | [] => none

/-- A sign in front, which may be missing. -/
def sign : List Char → Bool × List Char
  | '-' :: rest => (true, rest)
  | '+' :: rest => (false, rest)
  | cs => (false, cs)

/-- The digits of a decimal integer, which has no zero in front unless it is zero. -/
def decimalDigits : Reader (List Char)
  | '0' :: rest => some (['0'], rest)
  | cs => digits Char.isDigit cs

/-- The number that digits write in a base. -/
def valueOf (base : Nat) (ds : List Char) : Nat :=
  ds.foldl (fun n c => n * base + (hexDigit? c).getD 0) 0

/-- An integer, if it fits a signed 64-bit word. -/
def inRange (i : Int) (rest : List Char) : Option (Int × List Char) :=
  if -9223372036854775808 ≤ i ∧ i ≤ 9223372036854775807 then some (i, rest) else none

/-- An integer in one of the bases ten, sixteen, eight and two. -/
def integer : Reader Int
  | '0' :: 'x' :: rest => based 16 (fun c => (hexDigit? c).isSome) rest
  | '0' :: 'o' :: rest => based 8 (fun c => '0' ≤ c && c ≤ '7') rest
  | '0' :: 'b' :: rest => based 2 (fun c => c == '0' || c == '1') rest
  | cs =>
    let (negative, cs) := sign cs
    match decimalDigits cs with
    | some (ds, rest) => inRange (if negative then -(valueOf 10 ds : Int) else valueOf 10 ds) rest
    | none => none
where
  based (base : Nat) (ok : Char → Bool) (cs : List Char) : Option (Int × List Char) :=
    match digits ok cs with
    | some (ds, rest) => inRange (valueOf base ds) rest
    | none => none

/-- The exponent of a floating-point number. -/
def exponent : Reader Int
  | e :: rest =>
    if e == 'e' || e == 'E' then
      let (negative, rest) := sign rest
      match digits Char.isDigit rest with
      | some (ds, rest) => some (if negative then -(valueOf 10 ds : Int) else valueOf 10 ds, rest)
      | none => none
    else none
  | [] => none

/-- Whether `mantissa * 10 ^ exp` is too large for a double: rounding to 53 bits would carry it
to two to the power of 1024. -/
def exceedsDouble (mantissa : Nat) (exp : Int) : Bool :=
  let size := (Nat.toDigits 10 mantissa).length + exp
  if mantissa = 0 || size < 300 then false
  else if 400 < size then true
  else
    let limit := Nat.pow 2 1024 - Nat.pow 2 970
    if 0 ≤ exp then decide (limit ≤ mantissa * Nat.pow 10 exp.toNat)
    else decide (limit * Nat.pow 10 (-exp).toNat ≤ mantissa)

/-- A positive or unsigned number has to be finite as a double. -/
def finite (negative : Bool) (mantissa : List Char) (exp : Int) (rest : List Char) :
    Option (Unit × List Char) :=
  if !negative && exceedsDouble (valueOf 10 mantissa) exp then none else some ((), rest)

/-- A floating-point number: an infinity, a not-a-number, or an integer with a fraction, an
exponent or both. -/
def float (cs : List Char) : Option (Unit × List Char) :=
  let (negative, cs) := sign cs
  match (expect "inf" cs).or (expect "nan" cs) with
  | some rest => some ((), rest)
  | none =>
    match decimalDigits cs with
    | none => none
    | some (whole, '.' :: rest) =>
      match digits Char.isDigit rest with
      | none => none
      | some (fraction, rest) =>
        let (exp, rest) := (exponent rest).getD (0, rest)
        finite negative (whole ++ fraction) (exp - fraction.length) rest
    | some (whole, rest) =>
      match exponent rest with
      | none => none
      | some (exp, rest) => finite negative whole exp rest

/-! ### Dates and times -/

/-- A number of exactly `count` digits between two bounds. -/
def fixed (count lo hi : Nat) (cs : List Char) : Option (Nat × List Char) :=
  let ds := cs.take count
  let n := valueOf 10 ds
  if ds.length = count ∧ ds.all Char.isDigit ∧ lo ≤ n ∧ n ≤ hi then some (n, cs.drop count)
  else none

/-- The number of days in a month. -/
def daysIn (year month : Nat) : Nat :=
  if month = 2 then
    if year % 4 = 0 ∧ (year % 100 ≠ 0 ∨ year % 400 = 0) then 29 else 28
  else if month = 4 ∨ month = 6 ∨ month = 9 ∨ month = 11 then 30
  else 31

/-- A date, which has to exist. -/
def date (cs : List Char) : Option (Unit × List Char) := do
  let (year, cs) ← fixed 4 0 9999 cs
  let cs ← expect "-" cs
  let (month, cs) ← fixed 2 1 12 cs
  let cs ← expect "-" cs
  let (_, cs) ← fixed 2 1 (daysIn year month) cs
  return ((), cs)

/-- A time of day with seconds and perhaps a fraction. A leap second is admitted. -/
def timeOfDay (cs : List Char) : Option (Unit × List Char) := do
  let (_, cs) ← fixed 2 0 23 cs
  let cs ← expect ":" cs
  let (_, cs) ← fixed 2 0 59 cs
  let cs ← expect ":" cs
  let (_, cs) ← fixed 2 0 60 cs
  match cs with
  | '.' :: rest =>
    if (rest.takeWhile Char.isDigit).isEmpty then none
    else some ((), rest.dropWhile Char.isDigit)
  | cs => some ((), cs)

/-- The distance to UTC. -/
def offset (cs : List Char) : Option (List Char) :=
  match cs with
  | 'Z' :: rest | 'z' :: rest => some rest
  | c :: rest =>
    if c == '+' || c == '-' then do
      let (_, cs) ← fixed 2 0 23 rest
      let cs ← expect ":" cs
      let (_, cs) ← fixed 2 0 59 cs
      return cs
    else none
  | [] => none

/-- A date, a time of day, or a date with a time of day and perhaps an offset. -/
def moment (cs : List Char) : Option (Unit × List Char) :=
  match date cs with
  | some (_, c :: rest) =>
    if c == 'T' || c == 't' || c == ' ' then
      match timeOfDay rest with
      | some (_, rest) => some ((), (offset rest).getD rest)
      | none => some ((), c :: rest)
    else some ((), c :: rest)
  | some (_, []) => some ((), [])
  | none => timeOfDay cs

end Metronome.Toml
