import CycleSchedule.Graph.Order
import CycleSchedule.Journal.Narrated
import CycleSchedule.Linear.Simplex
import CycleSchedule.Scheduler.Result

/-! Scheduling problems as linear programs, and start times as their solutions. -/

namespace CycleSchedule

/-- The variable that stands for the start of an operation. -/
def startVariable (operation : String) : String := "start:" ++ operation

/-- The variable that stands for the interval between iterations. -/
def intervalVariable : String := "ii"

namespace Problem

variable {ν κ : Type}

/-- A program with a start variable for each operation. -/
def startVariables (problem : Problem ν) : Except Fault LinearProgram :=
  -- A name that is taken twice is refused here.
  problem.operations.foldlM (fun program operation =>
    program.addVariable (startVariable operation.name)) .empty

/-- The exact value of a latency or a distance, which has to have one. -/
def exactly (value : Except QuantityFault Rat) : Except Fault Rat := value.mapError .unusable

/-- The program of a problem without distances, told while it is put together: every dependence
bounds a difference of starts, under a label of its own. -/
def narratedPrecedenceProgram [Quantity ν κ] (problem : Problem ν) : Narrated LinearProgram := do
  let program ← problem.startVariables
  problem.dependences.foldlM (fun program dependence => do
    let latency ← problem.latencyNamed dependence.source
    let label := dependence.text
    Narrated.tell [.labelled label]
    let form := LinearProgram.difference (startVariable dependence.destination)
      (startVariable dependence.source)
    -- Names are looked at before values.
    program.requireVariables form label.spelled
    let bound ← exactly (Quantity.ratio latency)
    program.addConstraint form .atLeast bound label.spelled) program

/-- The program of a problem without distances. -/
def precedenceProgram [Quantity ν κ] (problem : Problem ν) : Except Fault LinearProgram :=
  problem.narratedPrecedenceProgram.outcome

/-- What a dependence says about starts and interval: the destination, less the source, plus the
distance times the interval. -/
def cyclicForm (source destination : String) (distance : Rat) : LinearForm :=
  let later := startVariable destination
  let earlier := startVariable source
  -- The start of an operation that waits for itself cancels out.
  if later = earlier then [(later, 0), (intervalVariable, distance)]
  else [(later, 1), (earlier, -1), (intervalVariable, distance)]

/-- The program of a problem with distances, in which the interval is a variable too, told while it
is put together. -/
def narratedCyclicProgram [Quantity ν κ] [Measure κ] (problem : Problem ν) :
    Narrated LinearProgram := do
  let program ← problem.startVariables
  let program ← program.addVariable intervalVariable
  let program ← program.addConstraint [(intervalVariable, 1)] .atLeast 1 "ii >= 1"
  problem.dependences.foldlM (fun program dependence => do
    let distance ← measured dependence.distance
    let latency ← problem.latencyNamed dependence.source
    -- A label shows a distance other than zero, which may be too long to be written.
    let label := dependence.text
    Narrated.tell [.labelled label]
    let form := cyclicForm dependence.source dependence.destination
    -- Names are looked at before values.
    program.requireVariables (form 0) label.spelled
    let distance ← exactly (Measure.ratio distance)
    let bound ← exactly (Quantity.ratio latency)
    program.addConstraint (form distance) .atLeast bound label.spelled) program

/-- The program of a problem with distances. -/
def cyclicProgram [Quantity ν κ] [Measure κ] (problem : Problem ν) : Except Fault LinearProgram :=
  problem.narratedCyclicProgram.outcome

/-- The program of a variant, told while it is put together; limits have no place in it. -/
def narratedProgram [Quantity ν κ] [Measure κ] (problem : Problem ν) (variant : Variant) :
    Narrated LinearProgram :=
  match variant with
  | .cyclic => problem.narratedCyclicProgram
  -- Limits are met by pinning starts later on, so the program leaves them out.
  | _ => problem.narratedPrecedenceProgram

/-- The start times that the values of a solution give, all of which have to be whole. -/
def decodeStarts (problem : Problem ν) (values : NameTable Rat) :
    Except Fault (NameTable Int) := do
  -- A start between two cycles would be a fault of the solver, so it is not rounded.
  let starts ← problem.operations.mapM fun operation =>
    match values.get? (startVariable operation.name) with
    | none => .error (.missingName (startVariable operation.name))
    | some value =>
      if value.den = 1 then .ok (operation.name, value.num)
      else .error (.fractionalStart value operation.name)
  return .ofPairs starts

/-- The operation that starts as early as possible: the given one, which has to exist, or else the
one registered last. -/
def resolveLast (problem : Problem ν) (last : Option String) :
    Except Fault (Option String) :=
  match last with
  -- No operation at all leaves nothing to minimise.
  | none => .ok (problem.operations.getLast?.map (·.name))
  | some name =>
    if (problem.operation? name).isSome then .ok (some name)
    else .error (.unknownLast name problem.name)

/-- Minimises an objective over a program, which has to be bounded. -/
def solveFor (problem : Problem ν) (program : LinearProgram) (objective : LinearForm)
    (purpose : String) : Narrated Solution := do
  let program ← program.minimize objective
  Narrated.tell [.solving purpose program.unknowns.length program.constraints.length]
  let solution ← program.narratedSolve
  -- Starts are bounded below, so no objective that counts them can be unbounded.
  if solution.status = .unbounded then Narrated.fail (.unboundedProgram purpose problem.name)
  else return solution

/-- A solution that has to be an optimum. -/
def requireOptimal (problem : Problem ν) (solution : Solution) (purpose : String) :
    Except Fault Solution :=
  -- The status is part of the message, so that it can be told what came instead.
  if solution.status = .optimal then .ok solution
  else .error (.unsolvedProgram purpose problem.name solution.status.name)

/-- The effort of one solution. -/
def effortOf (solution : Solution) : Effort := ⟨1, solution.iterations⟩

/-- Minimises the start of the last operation and, with that start fixed, the sum of all starts. -/
def solveForLast (problem : Problem ν) (last : Option String) (minimizeSum : Bool)
    (program : LinearProgram) : Narrated (Solution × Effort) := do
  match last with
  | none => Narrated.fail .noLastOperation
  | some last =>
    let lastStart := startVariable last
    let solved ← problem.solveFor program [(lastStart, 1)] ("start time of " ++ last)
    let first ← problem.requireOptimal solved "last operation"
    -- With the last operation held as early as it can be, the sum settles all the others.
    if !minimizeSum then return (first, effortOf first)
    match first.values.get? lastStart with
    | none => Narrated.fail (.missingName lastStart)
    | some least =>
      let fixed ← program.fix [(lastStart, 1)] least ("fix " ++ lastStart)
      let objective := NameTable.ofPairs
        (problem.operations.map fun operation => (startVariable operation.name, (1 : Rat)))
      let solved ← problem.solveFor fixed objective "sum of start times"
      let second ← problem.requireOptimal solved "tie-break"
      return (second, (effortOf first).plus (effortOf second))

end Problem

/-- The events that announce start times once all of them are known. -/
def announcements (starts : NameTable Int) : List Event :=
  starts.map fun entry => .announced entry.1 (.whole entry.2)

end CycleSchedule
