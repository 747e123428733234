import CycleSchedule.Proofs.Problem.Registrations
import CycleSchedule.Proofs.Scheduler.Service

/-! Scheduling does not depend on what happened to a problem before, but for its registrations. -/

namespace CycleSchedule

section Schedulers

variable {ν κ : Type} [Quantity ν κ] {problem : Problem ν}

namespace Problem

/-- The start variables do not depend on a stored schedule. -/
@[simp] theorem startVariables_clearSchedule :
    problem.clearSchedule.startVariables = problem.startVariables := by
  rw [startVariables, operations_clearSchedule, List.foldlM_map]
  rfl

/-- The program of one iteration, with the events of its building, does not depend on a stored
schedule. -/
@[simp] theorem narratedPrecedenceProgram_clearSchedule :
    problem.clearSchedule.narratedPrecedenceProgram = problem.narratedPrecedenceProgram := by
  simp [narratedPrecedenceProgram]

/-- Nor does the program of overlapping iterations. -/
@[simp] theorem narratedCyclicProgram_clearSchedule [Measure κ] :
    problem.clearSchedule.narratedCyclicProgram = problem.narratedCyclicProgram := by
  simp [narratedCyclicProgram]

/-- A solution is decoded to the same starts. -/
@[simp] theorem decodeStarts_clearSchedule (values : NameTable Rat) :
    problem.clearSchedule.decodeStarts values = problem.decodeStarts values := by
  rw [decodeStarts, operations_clearSchedule, List.mapM_map]
  rfl

/-- The same operation is taken for the last one. -/
@[simp] theorem resolveLast_clearSchedule (last : Option String) :
    problem.clearSchedule.resolveLast last = problem.resolveLast last := by
  cases last <;> simp [resolveLast, Operation.unscheduled, Function.comp_def]

/-- A program is solved in the same way. -/
@[simp] theorem solveFor_clearSchedule (program : LinearProgram) (objective : LinearForm)
    (purpose : String) :
    problem.clearSchedule.solveFor program objective purpose =
      problem.solveFor program objective purpose := rfl

/-- The same solutions are refused, in the same words. -/
@[simp] theorem requireOptimal_clearSchedule (solution : Solution) (purpose : String) :
    problem.clearSchedule.requireOptimal solution purpose =
      problem.requireOptimal solution purpose := rfl

/-- The two programs, last start and sum of starts, are solved in the same way. -/
@[simp] theorem solveForLast_clearSchedule (last : Option String) (minimizeSum : Bool)
    (program : LinearProgram) :
    problem.clearSchedule.solveForLast last minimizeSum program =
      problem.solveForLast last minimizeSum program := by
  simp only [solveForLast, operations_clearSchedule, List.map_map]
  rfl

end Problem

/-- The scheduler of one iteration sees no stored schedule. -/
@[simp] theorem Precedence.schedule_clearSchedule (last : Option String) (minimizeSum : Bool) :
    Precedence.schedule problem.clearSchedule last minimizeSum =
      Precedence.schedule problem last minimizeSum := by
  simp [Precedence.schedule]

variable [Measure κ]

/-- An infeasible recurrence is explained without the stored schedule. -/
@[simp] theorem Cyclic.explainInfeasibility_clearSchedule :
    explainInfeasibility problem.clearSchedule = explainInfeasibility problem := by
  simp [explainInfeasibility]

/-- The scheduler of earliest starts sees no stored schedule. -/
@[simp] theorem Asap.schedule_clearSchedule :
    Asap.schedule problem.clearSchedule = Asap.schedule problem := by
  simp [Asap.schedule]

/-- The scheduler of overlapping iterations sees no stored schedule. -/
@[simp] theorem Cyclic.schedule_clearSchedule (last : Option String) (minimizeSum : Bool) :
    Cyclic.schedule problem.clearSchedule last minimizeSum =
      Cyclic.schedule problem last minimizeSum := by
  simp [Cyclic.schedule]

namespace Shared

/-- An operation has the same limited type, or none. -/
@[simp] theorem limitedType?_clearSchedule (name : String) :
    limitedType? problem.clearSchedule name = limitedType? problem name := rfl

/-- The operations that wait for an operator are the same. -/
@[simp] theorem pendingOperations_clearSchedule :
    pendingOperations problem.clearSchedule = pendingOperations problem := by
  simp [pendingOperations, List.filter_map, Function.comp_def, Operation.unscheduled]

/-- A reservation table is found or opened in the same way. -/
@[simp] theorem tableOf_clearSchedule (tables : NameTable (ReservationTable κ)) (name : String) :
    tableOf problem.clearSchedule tables name = tableOf problem tables name := by
  unfold tableOf
  rw [Problem.operation?_clearSchedule]
  cases problem.operation? name <;> rfl

variable {graph : Graph ν} {order : List String}

/-- An operation is pinned at the same place. -/
@[simp] theorem pin_clearSchedule (progress : Progress κ) (name : String) :
    pin ⟨problem.clearSchedule, graph, order⟩ progress name =
      pin ⟨problem, graph, order⟩ progress name := by
  simp [pin]

/-- All operations are pinned at the same places. -/
@[simp] theorem pinAll_clearSchedule (fuel : Nat) (pending : List String)
    (progress : Progress κ) :
    pinAll ⟨problem.clearSchedule, graph, order⟩ fuel pending progress =
      pinAll ⟨problem, graph, order⟩ fuel pending progress := by
  -- By induction on the fuel, one pin at a time.
  induction fuel generalizing pending progress with
  | zero => rfl
  | succ fuel ih =>
    cases pending with
    | nil => rfl
    | cons name names => simp only [pinAll, pin_clearSchedule, ih]

/-- The scheduler of shared operators sees no stored schedule. -/
@[simp] theorem schedule_clearSchedule (last : Option String) (minimizeSum : Bool) :
    schedule problem.clearSchedule last minimizeSum = schedule problem last minimizeSum := by
  simp [schedule]

end Shared

/-- The final check of a result sees no stored schedule. -/
@[simp] theorem Problem.confirm_clearSchedule (starts : NameTable (Option Int))
    (interval : Option Int) (variant : Variant) :
    problem.clearSchedule.confirm starts interval variant =
      problem.confirm starts interval variant := by
  simp [confirm]

namespace Scheduler

/-- A scheduler is created, or refused, in the same way. -/
@[simp] theorem create_clearSchedule (algorithm : Algorithm) (variant : Variant)
    (last : Option String) (minimizeSum : Bool) :
    create problem.clearSchedule algorithm variant last minimizeSum =
      create problem algorithm variant last minimizeSum := by
  simp [create, forVariant]

/-- A scheduler run does not depend on a stored schedule. -/
@[simp] theorem run_clearSchedule (scheduler : Scheduler) :
    scheduler.run problem.clearSchedule = scheduler.run problem := by
  unfold run
  split <;> simp

end Scheduler

end Schedulers

namespace Problem

variable {problem other : Problem Value} {config : SchedulingConfig} {variant : Variant}

/-- Creating a scheduler, running it and checking the result does not depend on a stored schedule.
-/
@[simp] theorem attempt_clearSchedule :
    problem.clearSchedule.attempt config variant = problem.attempt config variant := by
  unfold attempt
  -- The check and the task do not depend on a stored schedule, and all that follows only on them.
  rw [check_clearSchedule, whole_clearSchedule]
  cases problem.whole with
  | error fault => rfl
  | ok task => simp [Except.map, Narrated.lift_ok_bind]

/-- A call is announced in the same words. -/
@[simp] theorem opening_clearSchedule :
    problem.clearSchedule.opening config variant = problem.opening config variant := rfl

/-- An attempt fails for a reason that is reported, or finds a start for every operation. -/
theorem attempt_outcome (problem : Problem Value) (config : SchedulingConfig) (variant : Variant) :
    (∃ fault failure, (problem.attempt config variant).outcome = .error fault ∧
      fault.failure? = some failure) ∨
    ∃ result, (problem.attempt config variant).outcome = .ok result ∧
      ∀ name ∈ problem.operationNames, name ∈ result.starts.names := by
  rcases check_cases problem variant with checked | ⟨violations, failed⟩
  · -- What has passed the check is a problem over whole numbers.
    obtain ⟨task, rfl, -⟩ := exists_values_of_check checked
    rcases attempt_cases task config variant with ⟨fault, kind, failed, told⟩ |
      ⟨result, found, solves, -⟩
    · refine .inl ⟨fault, ⟨kind, fault.message.spelled, fault.entities⟩, failed, ?_⟩
      rw [Fault.failure?, told]
      rfl
    · obtain ⟨_, respects, -⟩ := solves.respects
      exact .inr ⟨result, found, fun name known => respects.names ▸ known⟩
  · refine .inl ⟨.malformed problem.name violations, _, ?_, rfl⟩
    simp only [attempt, Narrated.outcome_bind, Narrated.outcome_lift, failed, error_bind]

/-- What a problem becomes with a result: a schedule is stored, and a failure leaves it as it is. -/
def keeping (problem : Problem Value) (result : ScheduleResult) : Problem Value :=
  if result.ok then problem.withSchedule result.starts result.interval else problem

/-- What does not see a stored schedule is the same for problems with the same registrations. -/
theorem eq_of_clearSchedule_eq {β : Type} (same : other.clearSchedule = problem.clearSchedule)
    (f : Problem Value → β) (blind : ∀ problem, f problem.clearSchedule = f problem) :
    f other = f problem := by
  rw [← blind other, same, blind]

/-- Storing a schedule overwrites all that two problems with the same registrations differ in. -/
theorem withSchedule_eq_of_clearSchedule_eq (same : other.clearSchedule = problem.clearSchedule)
    (starts : NameTable Int) (interval : Option Int) :
    other.withSchedule starts interval = problem.withSchedule starts interval :=
  eq_of_clearSchedule_eq same (·.withSchedule starts interval) fun problem => by
    simp [withSchedule, clearSchedule, Function.comp_def]

/-- Problems with the same registrations have the same result, and each keeps it. -/
theorem exists_schedule (problem : Problem Value) (config : SchedulingConfig) :
    ∃ events result, ∀ other : Problem Value, other.clearSchedule = problem.clearSchedule →
      other.schedule config = ⟨events, .ok (result, other.keeping result)⟩ := by
  let variant := config.variant.getD problem.inferVariant
  let events := problem.opening config variant ++ (problem.attempt config variant).events
  have alike (other : Problem Value) (same : other.clearSchedule = problem.clearSchedule) :
      other.inferVariant = problem.inferVariant ∧
        other.opening config variant = problem.opening config variant ∧
        other.attempt config variant = problem.attempt config variant :=
    ⟨eq_of_clearSchedule_eq same inferVariant fun _ => inferVariant_clearSchedule,
      eq_of_clearSchedule_eq same (·.opening config variant) fun _ => opening_clearSchedule,
      eq_of_clearSchedule_eq same (·.attempt config variant) fun _ => attempt_clearSchedule⟩
  rcases attempt_outcome problem config variant with ⟨fault, failure, failed, told⟩ |
    ⟨result, found, all⟩
  · -- The failure is reported in the same words for all of them.
    refine ⟨events ++ [.schedulingFailed fault.message], .failed variant failure,
      fun other same => ?_⟩
    obtain ⟨inferred, opened, attempted⟩ := alike other same
    simp only [schedule, inferred, opened, attempted, failed, told, events, variant]
    rfl
  · -- With a start for every operation the schedule is stored, whatever was stored before.
    refine ⟨events, .found variant result, fun other same => ?_⟩
    obtain ⟨inferred, opened, attempted⟩ := alike other same
    have names : other.operationNames = problem.operationNames :=
      eq_of_clearSchedule_eq same operationNames fun _ => operationNames_clearSchedule
    have stored : other.applySchedule result.starts.known result.interval =
        (other.withSchedule result.starts result.interval, .ok ()) :=
      applySchedule_known (names ▸ all) result.interval
    simp only [schedule, inferred, opened, attempted, found, stored, events, variant]
    rfl

/-- Clearing a stored schedule gives back what clearing gave before. -/
theorem clearSchedule_withSchedule (starts : NameTable Int) (interval : Option Int) :
    (problem.withSchedule starts interval).clearSchedule = problem.clearSchedule := by
  simp [withSchedule, clearSchedule, Function.comp_def]

/-- Clearing what a call has kept gives back what clearing gave before. -/
theorem clearSchedule_keeping (result : ScheduleResult) :
    (problem.keeping result).clearSchedule = problem.clearSchedule := by
  unfold keeping
  -- Only a schedule that was found is kept.
  split
  · exact clearSchedule_withSchedule _ _
  · rfl

/-- A result that is kept twice is kept once. -/
theorem keeping_keeping (result : ScheduleResult) :
    (problem.keeping result).keeping result = problem.keeping result := by
  -- What is kept a second time takes the place of what was kept before.
  by_cases ok : result.ok = true
  · simp only [keeping, ok, if_true]
    exact withSchedule_eq_of_clearSchedule_eq (clearSchedule_withSchedule _ _) _ _
  · simp [keeping, ok]

end Problem

/-- What can be done to a problem. -/
inductive Action where
  | addOperatorType (operatorType : OperatorType Value)
  | addOperation (operatorType : String) (name : Option String)
  | addDependence (dependence : Dependence Value)
  | schedule (config : SchedulingConfig)
  | applySchedule (starts : NameTable (Option Int)) (interval : Option Int)
  | clearSchedule
  | validate (variant : Option Variant)
  | verify (variant : Option Variant)

namespace Action

/-- Whether an action registers something. -/
def registers : Action → Bool
  | addOperatorType _ => true
  | addOperation _ _ => true
  | addDependence _ => true
  | _ => false

/-- The problem after an action, whether or not the action succeeds. -/
def perform (problem : Problem Value) : Action → Problem Value
  | addOperatorType operatorType => problem.addOperatorType operatorType
  | addOperation operatorType name =>
    problem.addOperation (problem.newOperation operatorType name)
  | addDependence dependence => problem.addDependence dependence
  | schedule config => match (problem.schedule config).outcome with
    | .ok (_, stored) => stored
    | .error _ => problem
  | applySchedule starts interval => (problem.applySchedule starts interval).1
  | clearSchedule => problem.clearSchedule
  -- Checks change nothing.
  | validate _ => problem
  | verify _ => problem

/-- What is registered after an action does not depend on what was stored before, and is what was
registered before unless the action registers something. -/
theorem clearSchedule_perform (problem : Problem Value) (action : Action) :
    (action.perform problem).clearSchedule =
      if action.registers then action.perform problem.clearSchedule else problem.clearSchedule := by
  cases action with
  | addOperatorType operatorType => rfl
  | addOperation operatorType name =>
    -- A fresh name only depends on the names there are.
    have anew : (problem.newOperation operatorType name).unscheduled =
        problem.clearSchedule.newOperation operatorType name := by
      simp [Problem.newOperation, Operation.unscheduled]
    simp [perform, registers, Problem.addOperation, Problem.clearSchedule_eq, anew]
  | addDependence dependence => rfl
  | schedule config =>
    -- Scheduling keeps a result, or leaves the problem as it is.
    obtain ⟨events, result, keeps⟩ := problem.exists_schedule config
    simp only [perform, keeps problem rfl]
    exact Problem.clearSchedule_keeping result
  | applySchedule starts interval => exact Problem.clearSchedule_applySchedule starts interval
  | clearSchedule => exact Problem.clearSchedule_clearSchedule
  | validate variant => rfl
  | verify variant => rfl

/-- The problem after a row of actions. -/
def performAll (problem : Problem Value) (history : List Action) : Problem Value :=
  history.foldl perform problem

/-- Without its stored schedule, a problem is what the registrations of its history make of it. -/
theorem clearSchedule_performAll (problem : Problem Value) (history : List Action) :
    (performAll problem history).clearSchedule =
      performAll problem.clearSchedule (history.filter registers) := by
  -- By induction on the history, from whatever problem it starts with.
  induction history generalizing problem with
  | nil => rfl
  | cons action history ih =>
    have step := ih (action.perform problem)
    rw [clearSchedule_perform] at step
    cases counts : action.registers with
    | true => simpa [performAll, counts] using step
    | false => simpa [performAll, counts] using step

end Action

/-- Scheduling forgets history. Whatever registrations, schedules and checks a problem has been
through, in whatever order and with whatever settings, scheduling it comes to the result, and tells
the events, of a fresh problem of its name with the same registrations in the same order. Where a
schedule is found the stored problems are the same too; where none is found the problem is as it
was. Scheduled once more, the problem has the same result and stays what it is. -/
theorem schedule_forgets_history (name : String) (history : List Action)
    (config : SchedulingConfig) :
    let problem := Action.performAll (.empty name) history
    let fresh := Action.performAll (.empty name) (history.filter Action.registers)
    ∃ events result stored anew,
      problem.schedule config = ⟨events, .ok (result, stored)⟩ ∧
      fresh.schedule config = ⟨events, .ok (result, anew)⟩ ∧
      stored.schedule config = ⟨events, .ok (result, stored)⟩ ∧
      (result.ok = true → stored = anew) ∧ (result.ok = false → stored = problem) := by
  intro problem fresh
  -- The fresh problem is the problem without its stored schedule.
  have same : fresh.clearSchedule = problem.clearSchedule := by
    -- Filtering twice leaves as much as filtering once.
    rw [Action.clearSchedule_performAll, Action.clearSchedule_performAll, List.filter_filter]
    simp
  obtain ⟨events, result, keeps⟩ := problem.exists_schedule config
  refine ⟨events, result, problem.keeping result, fresh.keeping result, keeps problem rfl,
    keeps fresh same, ?_, fun ok => ?_, fun failed => ?_⟩
  · -- A problem that keeps the result is scheduled as before.
    rw [keeps _ (Problem.clearSchedule_keeping result), Problem.keeping_keeping]
  · simp only [Problem.keeping, ok, if_true]
    exact (Problem.withSchedule_eq_of_clearSchedule_eq same _ _).symm
  · simp [Problem.keeping, failed]

end CycleSchedule
