import CycleSchedule.Scheduler.Formulation

/-! Scheduling by linear programs when there are neither distances nor limits to respect. -/

namespace CycleSchedule.Precedence

/-- A report on the work of this scheduler. -/
def report (last : Option String) (effort : Effort) : Metadata :=
  .simplex ⟨.basic, last, effort, none, none, none⟩

/-- The least start times; the dependences within one iteration must not form a cycle. -/
def schedule {ν κ : Type} [Quantity ν κ] (problem : Problem ν) (last : Option String)
    (minimizeSum : Bool) : Narrated (AlgorithmResult Int) := do
  -- The order itself is not needed, only that there is one.
  let _order ← problem.topologicalOrder
  -- Without operations there is nothing to solve.
  if last.isNone then return ⟨[], none, report last .none⟩
  let program ← problem.narratedPrecedenceProgram
  let (solution, effort) ← problem.solveForLast last minimizeSum program
  let starts ← problem.decodeStarts solution.values
  Narrated.tell (announcements starts)
  return ⟨starts, none, report last effort⟩

end CycleSchedule.Precedence
