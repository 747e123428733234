import CycleSchedule.Problem.Basic

/-! What a scheduling algorithm hands back. -/

namespace CycleSchedule

/-- How many programs were solved, and with how many pivots. -/
structure Effort where
  solves : Nat
  pivots : Nat
deriving DecidableEq, Repr

/-- The effort of two parts of the work together. -/
def Effort.plus (a b : Effort) : Effort := ⟨a.solves + b.solves, a.pivots + b.pivots⟩

/-- No effort. -/
def Effort.none : Effort := ⟨0, 0⟩

/-- What a scheduler that solves linear programs reports about its work. -/
structure SolverReport where
  variant : Variant
  last : Option String
  effort : Effort
  relaxedInterval : Option Rat
  lowerBound : Option Int
  delayed : Option Nat
deriving DecidableEq, Repr

/-- What an algorithm reports about its work. -/
inductive Metadata where
  | asap
  | simplex (report : SolverReport)
deriving DecidableEq, Repr

/-- Start times, the interval between iterations if there is one, and a report. -/
structure AlgorithmResult (κ : Type) where
  starts : NameTable κ
  interval : Option Int
  metadata : Metadata
deriving DecidableEq, Repr

end CycleSchedule
