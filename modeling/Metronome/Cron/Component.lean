/-!
# Components of a cron pattern

A cron pattern constrains seven components of a point in time. Each component has a range of
values, and months and days of the week have names too.

## Main definitions

* `Component` — second, minute, hour, day of the month, month, day of the week and year
* `Component.first`, `Component.final` — the range of values
* `Component.named?` — the value of a name
-/

namespace Metronome.Cron

/-- What one field of a pattern is about. -/
inductive Component
  | second
  | minute
  | hour
  | dayOfMonth
  | month
  | dayOfWeek
  | year
deriving DecidableEq, Repr

namespace Component

/-- The least value. Days of the week are counted from Sunday as 1. -/
def first : Component → Nat
  | .second | .minute | .hour => 0
  | .dayOfMonth | .month | .dayOfWeek => 1
  | .year => 1970

/-- The greatest value. -/
def final : Component → Nat
  | .second | .minute => 59
  | .hour => 23
  | .dayOfMonth => 31
  | .month => 12
  | .dayOfWeek => 7
  | .year => 2100

/-- Whether a value is in the range of a component. -/
def contains (c : Component) (n : Nat) : Bool := c.first ≤ n && n ≤ c.final

/-- All values of a component in ascending order. -/
def all (c : Component) : List Nat := List.range' c.first (c.final - c.first + 1)

/-- Whether a question mark may stand for all values. -/
def allowsQuestionMark : Component → Bool
  | .dayOfMonth | .dayOfWeek => true
  | _ => false

/-- The names of values, in lower case. -/
def names : Component → List (String × Nat)
  | .month =>
    [("jan", 1), ("january", 1), ("feb", 2), ("february", 2), ("mar", 3), ("march", 3),
      ("apr", 4), ("april", 4), ("may", 5), ("jun", 6), ("june", 6), ("jul", 7), ("july", 7),
      ("aug", 8), ("august", 8), ("sep", 9), ("september", 9), ("oct", 10), ("october", 10),
      ("nov", 11), ("november", 11), ("dec", 12), ("december", 12)]
  | .dayOfWeek =>
    [("sun", 1), ("sunday", 1), ("mon", 2), ("monday", 2), ("tue", 3), ("tues", 3),
      ("tuesday", 3), ("wed", 4), ("wednesday", 4), ("thu", 5), ("thurs", 5), ("thursday", 5),
      ("fri", 6), ("friday", 6), ("sat", 7), ("saturday", 7)]
  | _ => []

/-- The value of a name in any case. -/
def named? (c : Component) (name : List Char) : Option Nat :=
  let lower := String.ofList (name.map Char.toLower)
  (c.names.find? fun (n, _) => n == lower).map Prod.snd

end Component

end Metronome.Cron
