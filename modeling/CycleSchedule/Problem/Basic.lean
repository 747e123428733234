import CycleSchedule.NameTable
import CycleSchedule.Quantity

/-! Scheduling problems: operator types, operations and the dependences between them. -/

namespace CycleSchedule

/-- Which extensions of a problem a schedule has to respect. -/
inductive Variant where
  | basic
  | cyclic
  | sharedOperators
deriving DecidableEq, Repr

namespace Variant

/-- Every variant. -/
def all : List Variant := [.basic, .cyclic, .sharedOperators]

/-- The name of a variant. -/
def name : Variant → String
  | .basic => "basic"
  | .cyclic => "cyclic"
  | .sharedOperators => "shared_operators"

/-- Only the cyclic variant lets a dependence reach into a later iteration. -/
def allowsDistances (variant : Variant) : Bool := variant = .cyclic

/-- The variant of a given name. -/
def ofName? (name : String) : Option Variant := all.find? (·.name = name)

end Variant

/-- A kind of operator: the cycles until a result is available, and how many instances there are. -/
structure OperatorType (ν : Type) where
  name : String
  latency : ν
  limit : Option ν
deriving DecidableEq, Repr

/-- How many windows of a given width, one from each start, hold a cycle. -/
def occupied (width : Int) (starts : List Int) (cycle : Int) : Nat :=
  -- A window ends before the cycle at which the next one could start.
  starts.countP fun start => start ≤ cycle && cycle < start + width

/-- An operation and the cycle at which it starts, once one is stored. -/
structure Operation where
  name : String
  operatorType : String
  start : Option Int
deriving DecidableEq, Repr

/-- A dependence on the result of the source, computed `distance` iterations earlier. -/
structure Dependence (ν : Type) where
  source : String
  destination : String
  distance : ν
deriving DecidableEq, Repr

/-- A dependence reads as an arrow, followed by its distance unless that is void. -/
def Dependence.text {ν κ : Type} [Quantity ν κ] (dependence : Dependence ν) : Phrase :=
  let arrow : Phrase := dependence.source ++ " -> " ++ dependence.destination
  -- The distance is left out where it counts as nothing, which for a whole number means zero.
  if Quantity.isVoid dependence.distance then arrow
  else arrow ++ " @ " ++ Quantity.text dependence.distance

/-- A problem: registrations in the order they were made, and the interval of a stored schedule. -/
structure Problem (ν : Type) where
  name : String
  operatorTypes : List (OperatorType ν)
  operations : List Operation
  dependences : List (Dependence ν)
  interval : Option Int
deriving DecidableEq, Repr

namespace Problem

variable {ν κ : Type}

/-- The name of a problem that was given none. -/
def defaultName : String := "problem"

/-- A problem without registrations. -/
def empty (name : String) : Problem ν := ⟨name, [], [], [], none⟩

/-- The names of the operations. -/
def operationNames (problem : Problem ν) : List String := problem.operations.map (·.name)

/-- A generated operation name. -/
def numberedName (n : Nat) : String := "op" ++ toString n

/-- The first numbered name, counted from the number of operations, that no operation has. -/
def freshName (problem : Problem ν) : String :=
  -- One name more than there are operations cannot be taken in full.
  let count := problem.operations.length
  let candidates := (List.range (count + 1)).map fun step => numberedName (count + step)
  -- The default is never taken, since some name in the row is free.
  (candidates.find? fun name => !problem.operationNames.contains name).getD (numberedName count)

/-- The problem with one more operator type. -/
def addOperatorType (problem : Problem ν) (operatorType : OperatorType ν) : Problem ν :=
  { problem with operatorTypes := problem.operatorTypes ++ [operatorType] }

/-- The operation that a registration makes; without a name it gets a fresh one. -/
def newOperation (problem : Problem ν) (operatorType : String) (name : Option String) : Operation :=
  ⟨name.getD problem.freshName, operatorType, none⟩

/-- The problem with one more operation. -/
def addOperation (problem : Problem ν) (operation : Operation) : Problem ν :=
  { problem with operations := problem.operations ++ [operation] }

/-- The problem with one more dependence. -/
def addDependence (problem : Problem ν) (dependence : Dependence ν) : Problem ν :=
  { problem with dependences := problem.dependences ++ [dependence] }

/-- The first operation of a name. -/
def operation? (problem : Problem ν) (name : String) : Option Operation :=
  -- Names may be repeated until a problem is checked, so the first one counts.
  problem.operations.find? (·.name = name)

/-- The first operator type of a name. -/
def operatorType? (problem : Problem ν) (name : String) : Option (OperatorType ν) :=
  problem.operatorTypes.find? (·.name = name)

/-- The operations of an operator type. -/
def operationsOfType (problem : Problem ν) (operatorType : String) : List Operation :=
  problem.operations.filter (·.operatorType = operatorType)

/-- The stored start of every operation. -/
def startTimes (problem : Problem ν) : NameTable (Option Int) :=
  .ofPairs (problem.operations.map fun operation => (operation.name, operation.start))

/-- Whether some dependence has a distance other than zero. -/
def hasDistances [Quantity ν κ] (problem : Problem ν) : Bool :=
  -- What is equal to zero is no distance, whatever kind of number it is.
  problem.dependences.any fun dependence => !Quantity.isZero dependence.distance

/-- Whether some operator type has a limit. -/
def hasLimits (problem : Problem ν) : Bool :=
  problem.operatorTypes.any (·.limit.isSome)

/-- The variant that takes in the extensions in use; distances go before limits. -/
def inferVariant [Quantity ν κ] (problem : Problem ν) : Variant :=
  -- A problem with distances and limits is cyclic, and its limits are ignored.
  if problem.hasDistances then .cyclic
  else if problem.hasLimits then .sharedOperators
  else .basic

/-- The problem without a stored schedule. -/
def clearSchedule (problem : Problem ν) : Problem ν :=
  { problem with
    -- What is stored is removed, and the registrations stay.
    operations := problem.operations.map fun operation => { operation with start := none }
    interval := none }

/-- A one-line account of a problem. -/
def summary (problem : Problem ν) : String :=
  "Problem(name=" ++ Text.quote problem.name ++
    ", operator_types=" ++ toString problem.operatorTypes.length ++
    ", operations=" ++ toString problem.operations.length ++
    ", dependences=" ++ toString problem.dependences.length ++ ")"

end Problem

end CycleSchedule
