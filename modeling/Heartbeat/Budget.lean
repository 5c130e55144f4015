import Heartbeat.Text.Decimal

/-!
# Step budgets

A thread may spend a number of steps in one heartbeat. What it spent is counted in 32 bits and stays
at the largest number once it gets there.

* `Budget.charge`, `reset`, `close`: the operations.
* `Budget.isExhausted`, `remaining`: what is left.
-/

namespace Heartbeat

open Heartbeat.Text

/-- The steps spent in this heartbeat, and how many may be spent (`StepBudget`). -/
structure Budget where
  used : Nat := 0
  limit : Nat := 0
deriving Repr, DecidableEq

namespace Budget

/-- A fresh allowance (`StepBudget.new`). -/
def fresh (limit : Nat) : Budget := ⟨0, limit⟩

/-- Starts over with a new allowance (`StepBudget.reset`). -/
def reset (_ : Budget) (limit : Nat) : Budget := fresh limit

/-- Spends steps (`StepBudget.charge`). -/
def charge (b : Budget) (steps : Nat) : Budget := { b with used := min (b.used + steps) maxWord32 }

/-- Whether nothing is left (`StepBudget.exhausted`). -/
def isExhausted (b : Budget) : Bool := b.limit ≤ b.used

/-- The steps that are left (`StepBudget.remaining`). -/
def remaining (b : Budget) : Nat := b.limit - b.used

/-- Allows no more steps in this heartbeat (`StepBudget.force_zero`). -/
def close (b : Budget) : Budget := { b with limit := 0 }

end Budget

end Heartbeat
