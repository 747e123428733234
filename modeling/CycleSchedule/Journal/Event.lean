import CycleSchedule.Journal.Level
import CycleSchedule.Problem.Basic
import CycleSchedule.Rational

/-! What happens during scheduling that a text is put together for: messages of some importance, and
labels, which nobody is shown. -/

namespace CycleSchedule

/-- One thing that happened. -/
inductive Event where
  | schedulingStarted (problem : String) (variant : Variant) (algorithm : String)
  | limitsIgnored (problem : String)
  | schedulingFailed (message : Phrase)
  | scheduled (operation : String) (start : Number)
  | announced (operation : String) (start : Number)
  | intervalFound (interval : Int) (relaxed : Rat)
  | lowerBoundFound (operation : String) (cycle : Int)
  | considered (operation operatorType : String) (cycle : Int)
  | reserved (operatorType operation : String) (first last : Int)
  | delayed (operation : String) (wanted given : Int) (operatorType : String) (limit : Number)
  | recurrenceBound (problem : String) (interval : Number)
  | solving (purpose : String) (unknowns constraints : Nat)
  | tableauBuilt (unknowns constraints artificials : Nat)
  | pivoting (count column leaving : Nat) (objective : Rat)
  | foundInfeasible (objective : Rat)
  | foundUnbounded
  | foundOptimal (objective : Rat) (pivots : Nat)
  | labelled (label : Phrase)
deriving DecidableEq, Repr

namespace Event

/-- The importance of the message on an event; a label is no message. -/
def level? : Event → Option Level
  -- What changes the schedule is told at this level, and what is merely looked at below it.
  | schedulingStarted _ _ _ => some .changes
  | limitsIgnored _ => some .warning
  | schedulingFailed _ => some .changes
  | scheduled _ _ => some .changes
  | announced _ _ => some .changes
  | intervalFound _ _ => some .changes
  | lowerBoundFound _ _ => some .changes
  | considered _ _ _ => some .checks
  | reserved _ _ _ _ => some .checks
  | delayed _ _ _ _ _ => some .changes
  | recurrenceBound _ _ => some .debug
  | solving _ _ _ => some .checks
  -- The solver tells its steps at the lowest level.
  | tableauBuilt _ _ _ => some .debug
  | pivoting _ _ _ _ => some .debug
  | foundInfeasible _ => some .debug
  | foundUnbounded => some .debug
  | foundOptimal _ _ => some .debug
  | labelled _ => none

/-- Whether the message on an event is only put together where it is going to be shown. -/
def isGuarded : Event → Bool
  -- These come in numbers, so their texts are not put together in vain.
  | announced _ _ => true
  | considered _ _ _ => true
  | pivoting _ _ _ _ => true
  | _ => false

/-- How an event reads. -/
def text : Event → Phrase
  | schedulingStarted problem variant algorithm =>
    "Scheduling problem '" ++ problem ++ "' (" ++ variant.name ++ " variant, " ++ algorithm ++ ")"
  | limitsIgnored problem =>
    "Operator limits of problem '" ++ problem ++ "' are ignored by the cyclic variant"
  | schedulingFailed message => "Scheduling failed: " ++ message
  -- Two kinds of event read alike, but only one of them is guarded.
  | scheduled operation start => "Scheduled operation " ++ operation ++ " at cycle " ++ start.text
  | announced operation start => "Scheduled operation " ++ operation ++ " at cycle " ++ start.text
  | intervalFound interval relaxed =>
    "Initiation interval " ++ Phrase.number interval ++ " (recurrence bound " ++
      rationalText relaxed ++ ")"
  | lowerBoundFound operation cycle =>
    "Unconstrained start time of " ++ operation ++ ": cycle " ++ Phrase.number cycle
  | considered operation operatorType cycle =>
    "  Considering " ++ operation ++ " (" ++ operatorType ++ ") at cycle " ++ Phrase.number cycle
  | reserved operatorType operation first last =>
    "    Reserved " ++ operatorType ++ " for " ++ operation ++ " at cycles " ++
      Phrase.number first ++ ".." ++ Phrase.number last
  | delayed operation wanted given operatorType limit =>
    "Delayed operation " ++ operation ++ " from cycle " ++ Phrase.number wanted ++ " to " ++
      Phrase.number given ++ " (" ++ operatorType ++ " limit " ++ limit.text ++ ")"
  | recurrenceBound problem interval =>
    "Recurrence bound for problem '" ++ problem ++ "': II >= " ++ interval.text
  | solving purpose unknowns constraints =>
    "  Solving for " ++ purpose ++ ": " ++ Phrase.count unknowns ++ " variables, " ++
      Phrase.count constraints ++ " constraints"
  | tableauBuilt unknowns constraints artificials =>
    "  simplex: " ++ Phrase.count unknowns ++ " variables, " ++ Phrase.count constraints ++
      " constraints, " ++ Phrase.count artificials ++ " artificial variables"
  | pivoting count column leaving objective =>
    "    pivot " ++ Phrase.count count ++ ": column " ++ Phrase.count column ++
      " enters, column " ++ Phrase.count leaving ++ " leaves, objective " ++ rationalText objective
  | foundInfeasible objective =>
    "  simplex: infeasible, phase 1 objective " ++ rationalText objective
  | foundUnbounded => "  simplex: unbounded"
  | foundOptimal objective pivots =>
    "  simplex: optimal objective " ++ rationalText objective ++ " after " ++ Phrase.count pivots ++
      " pivots"
  | labelled label => label

/-- Whether the message on an event is shown where a level and all above it are. -/
def isShown (cutoff : Level) (event : Event) : Bool :=
  match event.level? with
  | some level => level.passes cutoff
  -- A label is never shown, but put together all the same.
  | none => false

/-- Whether the text of an event is put together where messages from a level on are shown. -/
def isComposed (cutoff : Level) (event : Event) : Bool := !event.isGuarded || event.isShown cutoff

end Event

end CycleSchedule
