import CycleSchedule.Graph.Recurrence
import CycleSchedule.Scheduler.Formulation

/-! Scheduling of overlapping iterations: first the least interval, then the least starts for it. -/

namespace CycleSchedule.Cyclic

variable {ν κ : Type} [Quantity ν κ] [Measure κ]

/-- A report on the work of this scheduler. -/
def report (last : Option String) (effort : Effort) (relaxed : Option Rat) : Metadata :=
  .simplex ⟨.cyclic, last, effort, relaxed, none, none⟩

/-- Why no interval exists: a cycle within one iteration with a positive latency. -/
def explainInfeasibility (problem : Problem ν) : Except Fault Fault := do
  match ← problem.infeasibleCycle with
  | some cycle => return .infeasibleCycle cycle
  -- Without such a cycle the program should have had a solution.
  | none => return .unexplainedInfeasibility problem.name

/-- The least interval, and start times that keep to it. -/
def schedule (problem : Problem ν) (last : Option String) (minimizeSum : Bool) :
    Narrated (AlgorithmResult Int) := do
  -- Without operations an interval of one cycle does.
  if last.isNone then return ⟨[], some 1, report last .none none⟩
  let program ← problem.narratedCyclicProgram
  let bound ← problem.solveFor program [(intervalVariable, 1)] "minimum initiation interval"
  if bound.status = .infeasible then
    let cause ← explainInfeasibility problem
    Narrated.fail cause
  else
    match bound.values.get? intervalVariable with
    | none => Narrated.fail (.missingName intervalVariable)
    | some relaxed =>
      -- The bound may lie between two cycles, and only the later one is a whole number above it.
      let interval := relaxed.ceil
      Narrated.tell [.intervalFound interval relaxed]
      let fixed ← program.fix [(intervalVariable, 1)] interval "fix ii"
      let (solution, effort) ← problem.solveForLast last minimizeSum fixed
      let starts ← problem.decodeStarts solution.values
      Narrated.tell (announcements starts)
      return ⟨starts, some interval,
        report last ((Problem.effortOf bound).plus effort) (some relaxed)⟩

end CycleSchedule.Cyclic
