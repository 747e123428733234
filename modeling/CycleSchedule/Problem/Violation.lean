import CycleSchedule.Problem.Basic

/-! What can be wrong with the registrations of a problem, and the search for all of it. -/

namespace CycleSchedule

/-- One way in which a problem fails to be well formed. -/
inductive Violation where
  | repeatedType (name : String) (count : Nat)
  | repeatedOperation (name : String) (count : Nat)
  | badLatency (operatorType : String) (latency : Value)
  | badLimit (operatorType : String) (limit : Value)
  | unregisteredType (operation : String) (operatorType : String)
  | unknownEndpoint (dependence : Dependence Value) (endpoint : String)
  | badDistance (dependence : Dependence Value)
  | unsupportedDistance (dependence : Dependence Value) (variant : Variant)
deriving Repr

namespace Violation

/-- How a violation reads. -/
def message : Violation → Phrase
  | repeatedType name count =>
    "operator type '" ++ name ++ "' is registered " ++ Phrase.count count ++ " times"
  | repeatedOperation name count =>
    "operation '" ++ name ++ "' is registered " ++ Phrase.count count ++ " times"
  | badLatency name latency =>
    "operator type '" ++ name ++ "' has invalid latency " ++ latency.literal
  | badLimit name limit => "operator type '" ++ name ++ "' has invalid limit " ++ limit.literal
  | unregisteredType operation operatorType =>
    "operation '" ++ operation ++ "' uses unregistered operator type '" ++ operatorType ++ "'"
  | unknownEndpoint dependence endpoint =>
    "dependence " ++ dependence.text ++ " references unknown operation '" ++ endpoint ++ "'"
  | badDistance dependence =>
    "dependence " ++ dependence.text ++ " has invalid distance " ++ dependence.distance.literal
  | unsupportedDistance dependence variant =>
    "dependence " ++ dependence.text ++ " has distance " ++ dependence.distance.display ++
      ", which the " ++ variant.name ++ " variant does not support"

/-- The registration that a violation blames, if it has a name. -/
def culprit? : Violation → Option String
  | repeatedType name _ => some name
  | repeatedOperation name _ => some name
  | badLatency name _ => some name
  | badLimit name _ => some name
  | unregisteredType operation _ => some operation
  | unknownEndpoint _ endpoint => some endpoint
  | badDistance _ => none
  | unsupportedDistance _ _ => none

end Violation

/-- Whether a value is a whole number, no truth value, and at least a given number. -/
def Value.isWholeFrom (least : Int) : Value → Bool
  -- A truth value is no whole number here, although it could be counted with.
  | .int n => least ≤ n
  | _ => false

/-- Each name that occurs more than once, with its count, in order of first occurrence. -/
def repeated (names : List String) : List (String × Nat) :=
  -- What is counted are all occurrences, not only those after the first.
  (names.eraseDups.map fun name => (name, names.count name)).filter (1 < ·.2)

namespace Problem

/-- The latency and the limit of an operator type, each checked by itself. -/
def typeViolations (operatorType : OperatorType Value) : List Violation :=
  -- Both checks are made, whatever the other one finds.
  (if operatorType.latency.isWholeFrom 0 then []
    else [.badLatency operatorType.name operatorType.latency]) ++
  match operatorType.limit with
  | none => []
  | some limit => if limit.isWholeFrom 1 then [] else [.badLimit operatorType.name limit]

/-- An operation has to be of a registered type. -/
def operationViolations (problem : Problem Value) (operation : Operation) : List Violation :=
  if (problem.operatorTypes.map (·.name)).contains operation.operatorType then []
  else [.unregisteredType operation.name operation.operatorType]

/-- Both ends of a dependence have to be operations, and its distance one that the variant allows.
-/
def dependenceViolations (problem : Problem Value) (variant : Variant)
    (dependence : Dependence Value) : List Violation :=
  -- An unknown operation that waits for itself is told of twice, once for each end.
  ([dependence.source, dependence.destination].filter fun endpoint =>
    !problem.operationNames.contains endpoint).map (.unknownEndpoint dependence) ++
  -- What the variant allows is only asked of a distance that is usable.
  (if !dependence.distance.isWholeFrom 0 then [.badDistance dependence]
    else if !dependence.distance.isZero && !variant.allowsDistances then
      [.unsupportedDistance dependence variant]
    else [])

/-- Everything that is wrong with a problem, in the order in which it is reported. -/
def violations (problem : Problem Value) (variant : Variant) : List Violation :=
  -- Repeated names come first, then the registrations one by one.
  (repeated (problem.operatorTypes.map (·.name))).map (fun r => .repeatedType r.1 r.2) ++
  (repeated problem.operationNames).map (fun r => .repeatedOperation r.1 r.2) ++
  problem.operatorTypes.flatMap typeViolations ++
  problem.operations.flatMap problem.operationViolations ++
  problem.dependences.flatMap (problem.dependenceViolations variant)

end Problem

end CycleSchedule
