import Metronome.Cron.Component

/-!
# Fields of a cron pattern

A field is a list of items separated by commas. An item selects all values, one value, a range
of numbers or a range of names, possibly thinned out by a step, or it is a single name. A field
stands for the union of its items.

## Main definitions

* `Selector`, `Item` — the written forms
* `Item.values` — the values that an item stands for, if it makes sense for its component
* `fieldValues` — the values of a whole field
-/

namespace Metronome.Cron

/-- A choice of values of a component. -/
inductive Selector
  | all
  | single (n : Nat)
  | range (lo hi : Nat)
  | namedRange (lo hi : List Char)
deriving DecidableEq, Repr

/-- One item of a field. -/
inductive Item
  | select (s : Selector)
  | stepped (s : Selector) (step : Nat)
  | named (name : List Char)
deriving DecidableEq, Repr

/-- The numbers from `lo` to `hi`, provided both belong to the component and are in order. -/
def rangeValues (c : Component) (lo hi : Nat) : Option (List Nat) :=
  if c.contains lo && c.contains hi && lo ≤ hi then some (List.range' lo (hi - lo + 1)) else none

/-- The values of a selector. -/
def Selector.values (c : Component) : Selector → Option (List Nat)
  | .all => some c.all
  | .single n => if c.contains n then some [n] else none
  | .range lo hi => rangeValues c lo hi
  | .namedRange lo hi => do rangeValues c (← c.named? lo) (← c.named? hi)

/-- Leaves out `skip` elements, then keeps every `step`-th one. -/
def everyNth (step : Nat) : Nat → List Nat → List Nat
  | _, [] => []
  | 0, x :: xs => x :: everyNth step (step - 1) xs
  | skip + 1, _ :: xs => everyNth step skip xs

/-- The values of an item. With a step, a single value stands for the values from it upwards.
A step is at least one and at most the greatest value of the component. -/
def Item.values (c : Component) : Item → Option (List Nat)
  | .select s => s.values c
  | .stepped s step =>
    if step = 0 || c.final < step then none
    else
      let base := match s with
        | .single n => rangeValues c n c.final
        | s => s.values c
      base.map (everyNth step 0)
  | .named name => (c.named? name).map fun n => [n]

/-- The values of a field: the union over its items, each of which has to make sense. -/
def fieldValues (c : Component) (items : List Item) : Option (List Nat) :=
  (items.mapM (Item.values c)).map List.flatten

end Metronome.Cron
