import CycleSchedule.Graph.Order
import CycleSchedule.Graph.Recurrence
import CycleSchedule.Proofs.Narrated

/-! The registrations of a problem alone: what is asked of a problem before it is scheduled does not
depend on a stored schedule. -/

namespace CycleSchedule

/-- The operation without a stored start. -/
def Operation.unscheduled (operation : Operation) : Operation := { operation with start := none }

namespace Problem

variable {ν κ : Type} {problem : Problem ν}

/-- Clearing keeps the name of the problem. -/
@[simp] theorem name_clearSchedule : problem.clearSchedule.name = problem.name := rfl

/-- Clearing keeps the operator types. -/
@[simp] theorem operatorTypes_clearSchedule :
    problem.clearSchedule.operatorTypes = problem.operatorTypes := rfl

/-- Clearing keeps the dependences. -/
@[simp] theorem dependences_clearSchedule :
    problem.clearSchedule.dependences = problem.dependences := rfl

/-- Clearing takes every operation's start away and nothing else. -/
@[simp] theorem operations_clearSchedule :
    problem.clearSchedule.operations = problem.operations.map Operation.unscheduled := rfl

/-- A cleared problem, field by field. -/
theorem clearSchedule_eq : problem.clearSchedule =
    ⟨problem.name, problem.operatorTypes, problem.operations.map Operation.unscheduled,
      problem.dependences, none⟩ := rfl

/-- Clearing twice is clearing once. -/
@[simp] theorem clearSchedule_clearSchedule :
    problem.clearSchedule.clearSchedule = problem.clearSchedule := by
  simp [clearSchedule, Function.comp_def]

/-- Clearing keeps the names of the operations. -/
@[simp] theorem operationNames_clearSchedule :
    problem.clearSchedule.operationNames = problem.operationNames := by
  simp [operationNames, Operation.unscheduled, Function.comp_def]

/-- Clearing keeps the name that a new operation would get. -/
@[simp] theorem freshName_clearSchedule : problem.clearSchedule.freshName = problem.freshName := by
  simp [freshName]

/-- The operation of a name is found as before, without its start. -/
@[simp] theorem operation?_clearSchedule (name : String) :
    problem.clearSchedule.operation? name = (problem.operation? name).map .unscheduled := by
  rw [operation?, operations_clearSchedule, List.find?_map]
  rfl

/-- The operations of a type are found as before, without their starts. -/
@[simp] theorem operationsOfType_clearSchedule (operatorType : String) :
    problem.clearSchedule.operationsOfType operatorType =
      (problem.operationsOfType operatorType).map .unscheduled := by
  rw [operationsOfType, operations_clearSchedule, List.filter_map]
  rfl

/-- An operation has the latency that it had. -/
@[simp] theorem latencyNamed_clearSchedule (name : String) :
    problem.clearSchedule.latencyNamed name = problem.latencyNamed name := by
  unfold latencyNamed operationNamed
  rw [operation?_clearSchedule]
  cases problem.operation? name <;> rfl

section Checks

variable {problem : Problem Value}

/-- There are limits just when there were. -/
@[simp] theorem hasLimits_clearSchedule {problem : Problem ν} :
    problem.clearSchedule.hasLimits = problem.hasLimits := rfl

/-- The variant is inferred as before. -/
@[simp] theorem inferVariant_clearSchedule [Quantity ν κ] {problem : Problem ν} :
    problem.clearSchedule.inferVariant = problem.inferVariant := rfl

/-- An operation violates what it violated with a start. -/
@[simp] theorem operationViolations_clearSchedule (operation : Operation) :
    problem.clearSchedule.operationViolations operation.unscheduled =
      problem.operationViolations operation := rfl

/-- A dependence violates what it violated. -/
@[simp] theorem dependenceViolations_clearSchedule (variant : Variant) :
    problem.clearSchedule.dependenceViolations variant = problem.dependenceViolations variant := by
  funext dependence
  simp [dependenceViolations]

/-- The same violations are found, in the same order. -/
@[simp] theorem violations_clearSchedule (variant : Variant) :
    problem.clearSchedule.violations variant = problem.violations variant := by
  simp [violations, List.flatMap_map]

/-- The check ends alike. -/
@[simp] theorem check_clearSchedule (variant : Option Variant) :
    problem.clearSchedule.check variant = problem.check variant := by
  simp [check]

/-- Reading the quantities as whole numbers commutes with clearing. -/
theorem whole_clearSchedule :
    problem.clearSchedule.whole = problem.whole.map clearSchedule := by
  unfold whole
  rw [operatorTypes_clearSchedule, dependences_clearSchedule]
  split <;> rfl

end Checks

section Schedules

variable {starts : NameTable Int}

/-- The same maps of starts are complete. -/
@[simp] theorem completeStarts_clearSchedule (given : NameTable (Option Int)) :
    problem.clearSchedule.completeStarts given = problem.completeStarts given := by
  rw [completeStarts, operations_clearSchedule, List.mapM_map]
  rfl

/-- The same intervals are usable. -/
@[simp] theorem usableInterval_clearSchedule (interval : Option Int) (variant : Variant) :
    problem.clearSchedule.usableInterval interval variant =
      problem.usableInterval interval variant := rfl

/-- The starts of a type's operations are taken from the map and not from the problem. -/
@[simp] theorem startsOfType_clearSchedule (operatorType : String) :
    problem.clearSchedule.startsOfType starts operatorType =
      problem.startsOfType starts operatorType := by
  rw [startsOfType, operationsOfType_clearSchedule, List.mapM_map]
  rfl

variable [Quantity ν κ] [Measure κ]

/-- A dependence is checked against the starts alike. -/
@[simp] theorem checkDependence_clearSchedule (interval : Int) :
    problem.clearSchedule.checkDependence starts interval =
      problem.checkDependence starts interval := by
  funext dependence
  simp [checkDependence]

/-- A limit is checked against the starts alike. -/
@[simp] theorem checkLimit_clearSchedule :
    problem.clearSchedule.checkLimit starts = problem.checkLimit starts := by
  funext operatorType
  simp [checkLimit]

/-- A schedule is accepted or refused alike. -/
@[simp] theorem checkSchedule_clearSchedule (given : NameTable (Option Int))
    (interval : Option Int) (variant : Variant) :
    problem.clearSchedule.checkSchedule given interval variant =
      problem.checkSchedule given interval variant := by
  simp [checkSchedule]

end Schedules

section Graphs

variable [Quantity ν κ]

/-- The graph of a problem does not depend on a stored schedule. -/
@[simp] theorem ofProblem_clearSchedule (zeroDistanceOnly : Bool) :
    Graph.ofProblem problem.clearSchedule zeroDistanceOnly =
      Graph.ofProblem problem zeroDistanceOnly := by
  simp only [Graph.ofProblem, operations_clearSchedule, List.mapM_map, dependences_clearSchedule,
    operationNames_clearSchedule]
  rfl

/-- Nor does the order of its operations. -/
@[simp] theorem topologicalOrder_clearSchedule :
    problem.clearSchedule.topologicalOrder = problem.topologicalOrder := by
  simp [topologicalOrder]

/-- Nor does the cycle that no interval satisfies. -/
@[simp] theorem infeasibleCycle_clearSchedule [Measure κ] :
    problem.clearSchedule.infeasibleCycle = problem.infeasibleCycle := by
  simp [infeasibleCycle]

end Graphs

/-- Storing starts in the operations changes nothing but their starts. -/
theorem unscheduled_storeStarts (starts : NameTable (Option Int)) (operations : List Operation) :
    (storeStarts starts operations).1.map Operation.unscheduled =
      operations.map Operation.unscheduled := by
  -- By induction on the operations; the first one without a start ends the storing.
  induction operations with
  | nil => rfl
  | cons operation operations ih =>
    unfold storeStarts
    cases starts.get? operation.name with
    | none => rfl
    | some start => simpa [Operation.unscheduled] using ih

/-- Storing a schedule leaves the registrations alone, even where it stops midway. -/
theorem clearSchedule_applySchedule (starts : NameTable (Option Int)) (interval : Option Int) :
    (problem.applySchedule starts interval).1.clearSchedule = problem.clearSchedule := by
  have operations := unscheduled_storeStarts starts problem.operations
  unfold applySchedule
  split <;> simp_all [clearSchedule_eq]

end Problem

end CycleSchedule
