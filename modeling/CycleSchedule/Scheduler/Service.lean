import CycleSchedule.Scheduler.Choice

/-! Scheduling as a whole: check the problem, schedule it, verify the schedule and store it. -/

namespace CycleSchedule

/-- The outcome of scheduling: start times, or the failure that stood in the way. -/
structure ScheduleResult where
  variant : Variant
  starts : NameTable Int
  interval : Option Int
  failure : Option Failure
  metadata : Option Metadata
deriving DecidableEq, Repr

namespace ScheduleResult

/-- Whether a schedule was found. -/
def ok (result : ScheduleResult) : Bool := result.failure.isNone

/-- The outcome without a schedule. -/
def failed (variant : Variant) (failure : Failure) : ScheduleResult :=
  ⟨variant, [], none, some failure, none⟩

/-- The outcome with the schedule that an algorithm found. -/
def found (variant : Variant) (result : AlgorithmResult Int) : ScheduleResult :=
  ⟨variant, result.starts, result.interval, none, some result.metadata⟩

end ScheduleResult

/-- Start times of which none is missing. -/
def NameTable.known (starts : NameTable Int) : NameTable (Option Int) := starts.mapValues some

namespace Problem

/-- Checks a computed schedule; an invalid one is the fault of the scheduler. -/
def confirm {ν κ : Type} [Quantity ν κ] [Measure κ] (problem : Problem ν)
    (starts : NameTable (Option Int)) (interval : Option Int) (variant : Variant) :
    Except Fault Unit :=
  match problem.checkSchedule starts interval variant with
  -- The defect stays the same, only whose fault it is changes.
  | .error (.invalidSchedule defect) => .error (.invalidResult defect)
  | outcome => outcome

/-- The schedule of a problem that passes its check, confirmed if the settings ask for it. -/
def attempt (problem : Problem Value) (config : SchedulingConfig) (variant : Variant) :
    Narrated (AlgorithmResult Int) := do
  -- The settings are only looked at once the problem has passed.
  problem.check (some variant)
  let task ← problem.whole
  let scheduler ← Scheduler.create task config.algorithm variant config.last config.minimizeSum
  let result ← scheduler.run task
  if config.verifySolution then task.confirm result.starts.known result.interval variant
  return result

/-- What is said before scheduling starts. -/
def opening (problem : Problem Value) (config : SchedulingConfig) (variant : Variant) :
    List Event :=
  let started := Event.schedulingStarted problem.name variant config.algorithm.name
  -- Overlapping iterations are scheduled without a look at limits, which is worth a warning.
  if variant = .cyclic && problem.hasLimits then [started, .limitsIgnored problem.name]
  else [started]

/-- The outcome of scheduling a problem, and the problem with the schedule stored if there is one;
after a failure the problem is as it was. -/
def schedule (problem : Problem Value) (config : SchedulingConfig) :
    Narrated (ScheduleResult × Problem Value) :=
  let variant := config.variant.getD problem.inferVariant
  let opening := problem.opening config variant
  let attempted := problem.attempt config variant
  -- Nothing is stored before the attempt has succeeded as a whole.
  match attempted.outcome with
  | .ok result =>
    let (stored, outcome) := problem.applySchedule result.starts.known result.interval
    ⟨opening ++ attempted.events, outcome.map fun _ => (.found variant result, stored)⟩
  | .error fault =>
    match fault.failure? with
    | some failure =>
      -- The message of the fault is put together before it is told.
      ⟨opening ++ attempted.events ++ [.schedulingFailed fault.message],
        .ok (.failed variant failure, problem)⟩
    | none => ⟨opening ++ attempted.events, .error fault⟩

/-- Schedules a problem without distances as soon as possible, whatever its limits. -/
def scheduleAsap (problem : Problem Value) : Narrated (ScheduleResult × Problem Value) :=
  problem.schedule { SchedulingConfig.default with algorithm := .asap, variant := some .basic }

/-- Schedules a problem by linear programs. -/
def scheduleSimplex (problem : Problem Value) (last : Option String) (variant : Option Variant) :
    Narrated (ScheduleResult × Problem Value) :=
  problem.schedule { SchedulingConfig.default with last, variant }

/-- The least interval that the recurrences of a problem allow, told once it is found. -/
def narratedMinimumInterval {ν κ : Type} [Quantity ν κ] [Measure κ] (problem : Problem ν) :
    Narrated (Option κ) := do
  let found ← problem.minimumInterval
  match found with
  | some interval =>
    Narrated.tell [.recurrenceBound problem.name (Measure.number interval)]
    return some interval
  | none => return none

end Problem

end CycleSchedule
