import Mathlib.Data.Nat.Basic

/-! The bounded counters of `admission.rs`. A permit is the fact that the
budget counted its holder; dropping it returns the capacity. -/

namespace Usai.Admission

/-- `available` is what the semaphore has left. -/
structure Budget where
  name : String
  max : Nat
  available : Nat
  rejected : Nat
  deriving DecidableEq, Repr

structure BudgetExhausted where
  budget : String
  max : Nat
  deriving DecidableEq, Repr

namespace Budget

def new (name : String) (max : Nat) : Budget := ⟨name, max, max, 0⟩

def inUse (budget : Budget) : Nat := budget.max - budget.available

def acquired (budget : Budget) : Budget := { budget with available := budget.available - 1 }

def refused (budget : Budget) : Budget := { budget with rejected := budget.rejected + 1 }

def tryAcquire (budget : Budget) : Budget × Except BudgetExhausted Unit :=
  if budget.available = 0 then (budget.refused, .error ⟨budget.name, budget.max⟩)
  else (budget.acquired, .ok ())

def free (budget : Budget) : Budget := { budget with available := budget.available + 1 }

theorem free_acquired {budget : Budget} (left : budget.available ≠ 0) :
    budget.acquired.free = budget := by
  have positive : budget.available - 1 + 1 = budget.available := by omega
  simp only [free, acquired, positive]

end Budget

end Usai.Admission
