import CycleSchedule.Fault

/-! Well-formed problems, and the start times that are valid for them. -/

namespace CycleSchedule.Problem

variable {ν κ : Type}

/-- The registered type of an operation. -/
def operatorTypeOf (problem : Problem ν) (operation : Operation) :
    Except Fault (OperatorType ν) :=
  match problem.operatorType? operation.operatorType with
  | some operatorType => .ok operatorType
  | none => .error (.unregisteredType operation.name operation.operatorType)

/-- The measure that a quantity is, which has to be one. -/
def measured [Quantity ν κ] (quantity : ν) : Except Fault κ :=
  match Quantity.measure? quantity with
  | some measure => .ok measure
  | none => .error (.unusable .notANumber)

/-- The cycles for which an operation keeps an instance of its operator to itself: its latency, but
one cycle at least. -/
def heldCycles [Quantity ν κ] [Measure κ] (operatorType : OperatorType ν) : Except Fault κ := do
  let latency ← measured operatorType.latency
  -- An operation without a latency still takes its operator up for the cycle in which it starts.
  return Measure.later latency (Measure.ofInt 1)

/-- The width of the windows in which operations of a type hold its instances. -/
def windowWidth [Quantity ν κ] [Measure κ] (operatorType : OperatorType ν) : Except Fault Int := do
  let held ← heldCycles operatorType
  -- A window is a row of cycles, so its width has to be of a whole kind.
  match Measure.whole? held with
  | some width => return width
  | none => .error (.unusable .notANumber)

/-- The operation of a name, which has to exist. -/
def operationNamed (problem : Problem ν) (name : String) : Except Fault Operation :=
  match problem.operation? name with
  | some operation => .ok operation
  | none => .error (.unknownOperation name)

/-- The latency of the operation of a name. -/
def latencyNamed (problem : Problem ν) (name : String) : Except Fault ν := do
  let operation ← problem.operationNamed name
  let operatorType ← problem.operatorTypeOf operation
  return operatorType.latency

/-- Fails with every violation there is; the variant is inferred if none is given. -/
def check (problem : Problem Value) (variant : Option Variant) : Except Fault Unit :=
  -- All violations are gathered before any of them is reported.
  let found := problem.violations (variant.getD problem.inferVariant)
  if found.isEmpty then .ok () else .error (.malformed problem.name found)

/-- An operator type with whole numbers for its quantities. -/
def wholeType? (operatorType : OperatorType Value) : Option (OperatorType Int) := do
  let latency ← operatorType.latency.toInt?
  let limit ← match operatorType.limit with
    | none => some none
    | some limit => limit.toInt?.map some
  return ⟨operatorType.name, latency, limit⟩

/-- A dependence with a whole number for its distance. -/
def wholeDependence? (dependence : Dependence Value) : Option (Dependence Int) :=
  dependence.distance.toInt?.map fun distance =>
    ⟨dependence.source, dependence.destination, distance⟩

/-- The problem with whole numbers for its quantities. -/
def whole (problem : Problem Value) : Except Fault (Problem Int) :=
  match problem.operatorTypes.mapM wholeType?, problem.dependences.mapM wholeDependence? with
  | some operatorTypes, some dependences =>
    .ok ⟨problem.name, operatorTypes, problem.operations, dependences, problem.interval⟩
  | _, _ => .error (.unusable .notANumber)

/-- The start of every operation, none of them missing or negative. -/
def completeStarts (problem : Problem ν) (starts : NameTable (Option Int)) :
    Except Fault (NameTable Int) :=
  problem.operations.mapM fun operation =>
    -- A name that is missing and one that has no start yet make the same defect.
    match (starts.get? operation.name).join with
    | none => .error (.invalidSchedule (.noStart operation.name))
    | some start =>
      if start < 0 then .error (.invalidSchedule (.negativeStart operation.name start))
      else .ok (operation.name, start)

/-- The interval between iterations: cyclic problems need one of a cycle at least, for all others
there is a single iteration. -/
def usableInterval (problem : Problem ν) (interval : Option Int) (variant : Variant) :
    Except Fault Int :=
  match variant, interval with
  | .cyclic, some interval =>
    -- An interval below one cycle is told of as if there were none.
    if interval < 1 then .error (.invalidSchedule (.noInterval problem.name)) else .ok interval
  | .cyclic, none => .error (.invalidSchedule (.noInterval problem.name))
  | _, _ => .ok 0

/-- The start of an operation, which has to be there. -/
def startOf (starts : NameTable κ) (name : String) : Except Fault κ :=
  match starts.get? name with
  | some start => .ok start
  | none => .error (.missingName name)

/-- A dependence holds if its destination starts no sooner than the result it needs is available. -/
def checkDependence [Quantity ν κ] [Measure κ] (problem : Problem ν) (starts : NameTable Int)
    (interval : Int) (dependence : Dependence ν) : Except Fault Unit := do
  let sourceStart ← startOf starts dependence.source
  let latency ← measured (← problem.latencyNamed dependence.source)
  let distance ← measured dependence.distance
  -- The result of an earlier iteration is there as many intervals sooner as the distance says.
  let available := Measure.ofInt sourceStart + latency - Measure.ofInt interval * distance
  let start ← startOf starts dependence.destination
  if Measure.ofInt start < available then
    -- The dependence is told of with the number that its distance turned out to be.
    let broken : Dependence Number :=
      ⟨dependence.source, dependence.destination, Measure.number distance⟩
    .error (.invalidSchedule (.brokenDependence broken start (Measure.number available)))
  else .ok ()

/-- The starts of the operations of a type. -/
def startsOfType (problem : Problem ν) (starts : NameTable Int) (operatorType : String) :
    Except Fault (List Int) :=
  (problem.operationsOfType operatorType).mapM fun operation => startOf starts operation.name

/-- A limited type is never used by more operations at once than it has instances. -/
def checkLimit [Quantity ν κ] [Measure κ] (problem : Problem ν) (starts : NameTable Int)
    (operatorType : OperatorType ν) : Except Fault Unit :=
  match operatorType.limit with
  | none => .ok ()
  | some limit => do
    let used ← problem.startsOfType starts operatorType.name
    -- Width and limit are not looked at while nothing is in use.
    if used.isEmpty then return
    let width ← windowWidth operatorType
    let limit ← measured limit
    let count := occupied width used
    -- Use only rises where an operation starts, so the first excess is at a start.
    match (used.filter fun cycle => limit < Measure.ofInt (count cycle)).min? with
    | some cycle =>
      .error (.invalidSchedule
        (.overusedType operatorType.name (count cycle) cycle (Measure.number limit)))
    | none => .ok ()

/-- Fails with the first constraint that the start times break. -/
def checkSchedule [Quantity ν κ] [Measure κ] (problem : Problem ν) (starts : NameTable (Option Int))
    (interval : Option Int) (variant : Variant) : Except Fault Unit := do
  let complete ← problem.completeStarts starts
  let usable ← problem.usableInterval interval variant
  problem.dependences.forM (problem.checkDependence complete usable)
  -- Limits only count for the variant that shares operators.
  match variant with
  | .sharedOperators => problem.operatorTypes.forM (problem.checkLimit complete)
  | _ => .ok ()

/-- Fails with what is wrong with the registrations, or else with the stored schedule. -/
def verify (problem : Problem Value) (variant : Option Variant) : Except Fault Unit := do
  problem.check variant
  let task ← problem.whole
  -- What was stored is checked as it is, operations without a start included.
  task.checkSchedule problem.startTimes problem.interval (variant.getD problem.inferVariant)

/-- The problem with a schedule stored on its operations, in order; a missing start stops the
storing where it is met. -/
def storeStarts (starts : NameTable (Option Int)) :
    List Operation → List Operation × Except Fault Unit
  | [] => ([], .ok ())
  | operation :: rest =>
    match starts.get? operation.name with
    | none => (operation :: rest, .error (.missingName operation.name))
    | some start =>
      let (stored, outcome) := storeStarts starts rest
      ({ operation with start := start } :: stored, outcome)

/-- The problem with a schedule stored, and whether every operation had a start. -/
def applySchedule (problem : Problem ν) (starts : NameTable (Option Int))
    (interval : Option Int) : Problem ν × Except Fault Unit :=
  match storeStarts starts problem.operations with
  | (operations, .ok ()) =>
    -- The interval is stored only if all starts were.
    ({ problem with operations := operations, interval := interval }, .ok ())
  | (operations, .error fault) => ({ problem with operations := operations }, .error fault)

/-- The cycle at which the result of a started operation is available. -/
def endTime [Quantity ν κ] [Measure κ] (problem : Problem ν) (operation : Operation) :
    Except Fault (Option κ) :=
  match operation.start with
  | none => .ok none
  | some start => do
    let operatorType ← problem.operatorTypeOf operation
    let latency ← measured operatorType.latency
    return some (Measure.ofInt start + latency)

end CycleSchedule.Problem
