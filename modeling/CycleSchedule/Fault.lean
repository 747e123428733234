import CycleSchedule.Problem.Violation
import CycleSchedule.Rational

/-! Why something could not be done, by cause, and how each cause is reported. -/

namespace CycleSchedule

/-- The kinds of failure that a schedule result can report. -/
inductive FailureKind where
  | malformedProblem
  | cyclicDependence
  | infeasibleCycle
  | solverInternalError
  | invalidSchedule
deriving DecidableEq, Repr

/-- The name of a kind of failure. -/
def FailureKind.name : FailureKind → String
  | malformedProblem => "malformed_problem"
  | cyclicDependence => "cyclic_dependence"
  | infeasibleCycle => "infeasible_cycle"
  | solverInternalError => "solver_internal_error"
  | invalidSchedule => "invalid_schedule"

/-- The first constraint that candidate start times break. -/
inductive Defect where
  | noStart (operation : String)
  | negativeStart (operation : String) (start : Int)
  | noInterval (problem : String)
  | brokenDependence (dependence : Dependence Number) (start : Int) (available : Number)
  | overusedType (operatorType : String) (count : Nat) (cycle : Int) (limit : Number)
deriving DecidableEq, Repr

namespace Defect

/-- How a defect reads. -/
def message : Defect → Phrase
  | noStart operation => "Operation '" ++ operation ++ "' has no start time"
  | negativeStart operation start =>
    "Operation '" ++ operation ++ "' starts at negative cycle " ++ Phrase.number start
  | noInterval problem => "Cyclic problem '" ++ problem ++ "' has no valid initiation interval"
  | brokenDependence dependence start available =>
    "Dependence " ++ dependence.text ++ " violated: '" ++ dependence.destination ++
      "' starts at " ++ Phrase.number start ++ ", source result available at " ++ available.text
  | overusedType operatorType count cycle limit =>
    "Operator type '" ++ operatorType ++ "' is used " ++ Phrase.count count ++
      " times in cycle " ++ Phrase.number cycle ++ ", limit is " ++ limit.text

/-- The registrations that a defect blames. -/
def entities : Defect → List String
  -- An operation is blamed for its own start, a dependence for both of its ends.
  | noStart operation => [operation]
  | negativeStart operation _ => [operation]
  -- An interval belongs to the whole schedule, so nothing is registered that could be blamed.
  | noInterval _ => []
  | brokenDependence dependence _ _ => [dependence.source, dependence.destination]
  | overusedType operatorType _ _ _ => [operatorType]

end Defect

/-- A request that was refused because of its arguments. -/
inductive Rejection where
  | repeatedVariable (name : String)
  | unknownVariable (label name : String)
  | unknownObjectiveVariable (name : String)
  | unlimitedType (operatorType : String)
  | fullyUsed (operatorType : String) (cycle : Int)
  | badShorthand (text : String)
  | longNumber (digits : Nat)
  | unknownAlgorithm (name : String)
deriving DecidableEq, Repr

/-- How a rejection reads. -/
def Rejection.message : Rejection → Phrase
  | repeatedVariable name => "Variable '" ++ name ++ "' already exists"
  | unknownVariable label name =>
    "Constraint '" ++ label ++ "' uses unknown variable '" ++ name ++ "'"
  | unknownObjectiveVariable name => "Objective uses unknown variable '" ++ name ++ "'"
  | unlimitedType operatorType => "Operator type '" ++ operatorType ++ "' has no limit"
  | fullyUsed operatorType cycle =>
    "Operator type '" ++ operatorType ++ "' is fully used at cycle " ++ Phrase.number cycle
  | badShorthand text =>
    "Invalid dependence '" ++ text ++ "', expected 'src -> dst [@ distance]'"
  | longNumber digits => Text.digitLimitMessage digits
  | unknownAlgorithm name => "Unknown algorithm type: " ++ name

/-- Why something could not be done. The last cause is a text with a number too long to be written.
-/
inductive Fault where
  | malformed (problem : String) (violations : List Violation)
  | unknownOperation (name : String)
  | unregisteredType (operation operatorType : String)
  | unsupportedVariant (variant : Variant)
  | unknownLast (operation problem : String)
  | cyclicDependence (cycle : List String)
  | infeasibleCycle (cycle : List String)
  | unexplainedInfeasibility (problem : String)
  | unboundedProgram (purpose problem : String)
  | unsolvedProgram (purpose problem status : String)
  | fractionalStart (value : Rat) (operation : String)
  | pinnedTooEarly (operation : String) (slot : Int) (ready : Number)
  | disagreement (problem : String)
  | invalidResult (defect : Defect)
  | invalidSchedule (defect : Defect)
  | rejected (rejection : Rejection)
  | missingName (name : String)
  | unusable (fault : QuantityFault)
  | noLastOperation
  | exhaustedSearch
  | unwritable
deriving Repr

namespace Fault

/-- Names in a row with the first one repeated at the end, arrows between them. -/
def closedWalk (cycle : List String) : String := " -> ".intercalate (cycle ++ cycle.take 1)

/-- How a fault reads. -/
def message : Fault → Phrase
  | malformed problem violations =>
    "Problem '" ++ problem ++ "' is malformed: " ++
      Phrase.joined "; " (violations.map Violation.message)
  | unknownOperation name => "Unknown operation '" ++ name ++ "'"
  | unregisteredType operation operatorType =>
    "Operation '" ++ operation ++ "' uses unregistered operator type '" ++ operatorType ++ "'"
  | unsupportedVariant variant =>
    "ASAP scheduling only supports the basic variant, not " ++ variant.name
  | unknownLast operation problem =>
    "Last operation '" ++ operation ++ "' is not part of problem '" ++ problem ++ "'"
  | cyclicDependence cycle => "Dependence graph contains a cycle: " ++ closedWalk cycle
  | infeasibleCycle cycle =>
    "No initiation interval satisfies the zero-distance cycle " ++ closedWalk cycle
  | unexplainedInfeasibility problem =>
    "Linear program for problem '" ++ problem ++
      "' is infeasible, but no zero-distance cycle explains it"
  | unboundedProgram purpose problem =>
    "Linear program for " ++ purpose ++ " of problem '" ++ problem ++ "' is unbounded"
  | unsolvedProgram purpose problem status =>
    "Linear program for " ++ purpose ++ " of problem '" ++ problem ++ "' is " ++ status
  | fractionalStart value operation =>
    "Simplex produced non-integral start time " ++ rationalText value ++ " for operation '" ++
      operation ++ "'"
  | pinnedTooEarly operation slot ready =>
    "Operation '" ++ operation ++ "' was pinned to cycle " ++ Phrase.number slot ++
      ", but its inputs are ready at cycle " ++ ready.text
  | disagreement problem =>
    "Linear program for problem '" ++ problem ++ "' disagrees with the propagated schedule"
  -- The verification of a result reports the defect as a fault of the solver.
  | invalidResult defect => "Computed schedule is invalid: " ++ defect.message
  | invalidSchedule defect => defect.message
  | rejected rejection => rejection.message
  -- A look-up that fails tells the name alone, in quotes.
  | missingName name => Text.quote name
  | unusable fault => fault.message
  | noLastOperation => "there is no last operation"
  | exhaustedSearch => "the search came to an end"
  | unwritable => Text.unwritableMessage

/-- The registrations that a fault blames, each once. -/
def entities : Fault → List String
  -- A name that is blamed more than once stands where it came first.
  | malformed _ violations => (violations.filterMap Violation.culprit?).eraseDups
  | unknownOperation name => [name]
  | unregisteredType operation _ => [operation]
  | unsupportedVariant _ => []
  | unknownLast operation _ => [operation]
  | cyclicDependence cycle => cycle
  | infeasibleCycle cycle => cycle
  | unexplainedInfeasibility _ => []
  | unboundedProgram _ _ => []
  | unsolvedProgram _ _ _ => []
  | fractionalStart _ operation => [operation]
  | pinnedTooEarly operation _ _ => [operation]
  | disagreement _ => []
  | invalidResult defect => defect.entities
  | invalidSchedule defect => defect.entities
  -- All others blame nothing that is registered.
  | _ => []

/-- The kind of failure that a fault is reported as, unless it is not a failure of scheduling. -/
def kind? : Fault → Option FailureKind
  | malformed _ _ => some .malformedProblem
  | unknownOperation _ => some .malformedProblem
  | unregisteredType _ _ => some .malformedProblem
  | unsupportedVariant _ => some .malformedProblem
  | unknownLast _ _ => some .malformedProblem
  | cyclicDependence _ => some .cyclicDependence
  | infeasibleCycle _ => some .infeasibleCycle
  -- What cannot happen to a checked problem is a fault of the solver.
  | unexplainedInfeasibility _ => some .solverInternalError
  | unboundedProgram _ _ => some .solverInternalError
  | unsolvedProgram _ _ _ => some .solverInternalError
  | fractionalStart _ _ => some .solverInternalError
  | pinnedTooEarly _ _ _ => some .solverInternalError
  | disagreement _ => some .solverInternalError
  | invalidResult _ => some .solverInternalError
  | invalidSchedule _ => some .invalidSchedule
  -- From here on nothing is a failure of scheduling, and such faults become no results.
  | rejected _ => none
  | missingName _ => none
  | unusable _ => none
  | noLastOperation => none
  | exhaustedSearch => none
  | unwritable => none

/-- What comes of a fault when its message is put together. -/
def reported (fault : Fault) : Fault :=
  -- A number that is too long to be written takes the place of what there was to tell.
  if fault.message.isWritable then fault else .unwritable

end Fault

/-- What comes of a computation when the message of its fault, if there is one, is put together. -/
def reported {α : Type} (outcome : Except Fault α) : Except Fault α :=
  -- A computation that succeeds has no message, so nothing is put together.
  outcome.mapError Fault.reported

/-- The characters of a text, which has to be one that can be written. -/
def Phrase.written (phrase : Phrase) : Except Fault String :=
  match phrase.write? with
  | some s => .ok s
  | none => .error .unwritable

/-- What a result tells about a failure, once its message has been written. -/
structure Failure where
  kind : FailureKind
  message : String
  entities : List String
deriving DecidableEq, Repr

/-- A failure in one line. -/
def Failure.text (failure : Failure) : String := failure.kind.name ++ ": " ++ failure.message

/-- The failure of scheduling that a fault is, if it is one. -/
def Fault.failure? (fault : Fault) : Option Failure :=
  -- The message is told of before there is a result, so it can be written by then.
  fault.kind?.map fun kind => ⟨kind, fault.message.spelled, fault.entities⟩

end CycleSchedule
