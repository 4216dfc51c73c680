/-!
# Run budgets

A job may be limited to a number of runs. Each run claims one unit of the budget, and the claim
that takes the last unit knows that it does.

## Main definitions

* `Budget` — the runs that are left
* `Budget.claim` — permission for one more run
* `Budget.cap` — lowers a budget to a limit
-/

namespace Metronome

/-- The runs that are left, `none` without a limit. -/
structure Budget where
  remaining : Option Nat
deriving DecidableEq, Inhabited

/-- The answer to a claim for one more run. -/
inductive RunClaim
  /-- The run may go ahead; `last` says whether it spends the budget. -/
  | granted (last : Bool)
  | exhausted
deriving DecidableEq, Repr

namespace Budget

/-- The greatest limit that is told apart from larger ones. -/
def maxRuns : Nat := 9223372036854775807

/-- The budget of a job that may run so often. -/
def ofTimes (times : Option Nat) : Budget := ⟨times.map fun n => min n maxRuns⟩

/-- Claims one run. -/
def claim (b : Budget) : RunClaim × Budget :=
  match b.remaining with
  | none => (.granted false, b)
  | some 0 => (.exhausted, b)
  | some (n + 1) => (.granted (n == 0), ⟨some n⟩)

/-- Lowers the budget to at most `limit` runs. -/
def cap (b : Budget) (limit : Nat) : Budget :=
  match b.remaining with
  | none => ⟨some (min limit maxRuns)⟩
  | some n => ⟨some (min n (min limit maxRuns))⟩

/-- Whether no run is left. -/
def isSpent (b : Budget) : Bool := b.remaining == some 0

end Budget

end Metronome
