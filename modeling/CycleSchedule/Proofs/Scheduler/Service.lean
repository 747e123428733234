import CycleSchedule.Proofs.Problem.Storage
import CycleSchedule.Proofs.Scheduler.Cyclic
import CycleSchedule.Proofs.Scheduler.Limits

/-! Scheduling as a whole: it always comes to a result, which is a valid schedule or tells why there
is none, and stores the schedule as a whole or leaves the problem as it was. -/

namespace CycleSchedule

namespace Problem

variable {problem : Problem Int} {variant : Variant} {resolved : Option String}
  {config : SchedulingConfig}

/-- A result that respects all that a variant asks for. -/
structure Solves (problem : Problem Int) (variant : Variant) (result : AlgorithmResult Int) :
    Prop where
  respects : ∃ interval, problem.Respects result.starts interval ∧
    (variant = .cyclic → 1 ≤ interval ∧ result.interval = some interval)
  within : variant = .sharedOperators → problem.WithinLimits result.starts

/-- Such a result is confirmed. -/
theorem Solves.confirm {result : AlgorithmResult Int} (solves : problem.Solves variant result)
    (wellFormed : problem.WellFormed) (fits : problem.Fits variant) :
    problem.confirm result.starts.known result.interval variant = .ok () := by
  obtain ⟨interval, respects, usable⟩ := solves.respects
  exact confirm_ok (respects.checkSchedule wellFormed fits usable solves.within)

/-- What stands in the way of a schedule: any cycle, or for overlapping iterations one that takes
time. -/
def Obstructed (problem : Problem Int) (variant : Variant) : Prop :=
  variant ≠ .cyclic ∧ HasCycle problem.dependences ∨ variant = .cyclic ∧ problem.Recurs

/-- The failure that tells of it. -/
def obstruction (variant : Variant) : FailureKind :=
  if variant = .cyclic then .infeasibleCycle else .cyclicDependence

/-- How a run can end: with a schedule, or with what stands in the way of one. -/
inductive Ends (problem : Problem Int) (variant : Variant) :
    Except Fault (AlgorithmResult Int) → Prop
  | found {result : AlgorithmResult Int} (solves : problem.Solves variant result)
      (free : ¬problem.Obstructed variant) : Ends problem variant (.ok result)
  | obstructed {fault : Fault} (told : fault.kind? = some (obstruction variant))
      (inTheWay : problem.Obstructed variant) : Ends problem variant (.error fault)

section Sorted

variable (wellFormed : problem.WellFormed)
  (single : ∀ dependence ∈ problem.dependences, dependence.distance = 0)

include wellFormed single

/-- A scheduler that starts by sorting ends well if it does so for every order. -/
theorem WellFormed.ends_of_topologicalOrder (acyclic : variant ≠ .cyclic)
    {outcome : Except Fault (AlgorithmResult Int)}
    (stops : ∀ fault, problem.topologicalOrder = .error fault → outcome = .error fault)
    (goesOn : ∀ order, problem.topologicalOrder = .ok order → order.Perm problem.operationNames →
      Graph.Follows problem.dependences [] order → ∃ starts metadata,
        outcome = .ok ⟨starts, none, metadata⟩ ∧ problem.Respects starts 0 ∧
          (variant = .sharedOperators → problem.WithinLimits starts)) :
    problem.Ends variant outcome := by
  rcases wellFormed.topologicalOrder single with ⟨order, sorted, all, follows⟩ |
    ⟨⟨cycle, failed⟩, hasCycle⟩
  · obtain ⟨starts, metadata, rfl, respects, within⟩ := goesOn order sorted all follows
    refine .found ⟨⟨0, respects, fun cyclic => absurd cyclic acyclic⟩, within⟩ ?_
    -- Operations that are sorted have no cycle among them.
    rintro (⟨_, hasCycle⟩ | ⟨cyclic, _⟩)
    · exact follows.not_hasCycle (fun edge member =>
        all.mem_iff.mpr (wellFormed.endpoints edge member).2) hasCycle
    · exact acyclic cyclic
  · -- Where sorting fails there is a cycle, and the failure tells of it.
    rw [stops _ failed]
    exact .obstructed (by simp [Fault.kind?, obstruction, acyclic]) (Or.inl ⟨acyclic, hasCycle⟩)

/-- The scheduler of earliest starts ends as a scheduler may: with a schedule, or with a cycle
named. -/
theorem WellFormed.ends_asap : problem.Ends .basic (Asap.schedule problem).outcome := by
  refine wellFormed.ends_of_topologicalOrder single (by simp)
    (fun fault failed => congrArg Narrated.outcome (asap_of_cycle wellFormed failed))
    fun order sorted all follows => ?_
  -- The order leads to starts, and they are the least ones.
  obtain ⟨starts, least, names, found, -⟩ := wellFormed.outcome_asap single sorted all follows
  exact ⟨starts, _, found, least.respects names, by simp⟩

/-- So does the scheduler of one iteration. -/
theorem WellFormed.ends_precedence (hasLast : problem.HasLast resolved) (minimizeSum : Bool) :
    problem.Ends .basic (Precedence.schedule problem resolved minimizeSum).outcome := by
  refine wellFormed.ends_of_topologicalOrder single (by simp)
    (fun fault failed => congrArg Narrated.outcome (precedence_of_cycle failed))
    fun order sorted all follows => ?_
  -- Sorted operations have a schedule by linear programs.
  obtain ⟨starts, metadata, found, respects, _⟩ :=
    wellFormed.outcome_precedence single sorted all follows hasLast minimizeSum
  exact ⟨starts, metadata, found, respects, by simp⟩

/-- So does the scheduler of shared operators. -/
theorem WellFormed.ends_shared (hasLast : problem.HasLast resolved) :
    problem.Ends .sharedOperators (Shared.schedule problem resolved true).outcome := by
  refine wellFormed.ends_of_topologicalOrder single (by simp)
    (fun fault => outcome_shared_of_cycle wellFormed) fun order sorted all follows => ?_
  -- Sorted operations have a schedule within the limits.
  obtain ⟨starts, metadata, found, respects, within, _⟩ :=
    wellFormed.exists_sharedSchedule single sorted all follows hasLast
  exact ⟨starts, metadata, found, respects, fun _ => within⟩

end Sorted

/-- So does the scheduler of overlapping iterations. -/
theorem WellFormed.ends_cyclic (wellFormed : problem.WellFormed)
    (hasLast : problem.HasLast resolved) (minimizeSum : Bool) :
    problem.Ends .cyclic (Cyclic.schedule problem resolved minimizeSum).outcome := by
  by_cases recurs : problem.Recurs
  · -- No interval makes up for the cycle, and one is named.
    obtain ⟨cycle, failed⟩ := wellFormed.outcome_cyclic_of_recurs recurs hasLast
    rw [failed]
    exact .obstructed rfl (Or.inr ⟨rfl, recurs⟩)
  · obtain ⟨starts, interval, metadata, found, least, respects, _⟩ :=
      wellFormed.exists_cyclicSchedule recurs hasLast minimizeSum
    rw [found]
    exact .found ⟨⟨interval, respects, fun _ => ⟨one_le_of_mem_intervals least.1, rfl⟩⟩, by simp⟩
      (by simp [Obstructed, recurs])

/-- Every scheduler that can be set up ends well. -/
theorem WellFormed.ends_run (wellFormed : problem.WellFormed) (fits : problem.Fits variant)
    {algorithm : Algorithm} {last : Option String} (able : algorithm = .asap → variant = .basic)
    (known : algorithm = .simplex → ∀ name, last = some name → name ∈ problem.operationNames)
    (minimizeSum : Bool) :
    ∃ scheduler, Scheduler.create problem algorithm variant last minimizeSum = .ok scheduler ∧
      problem.Ends variant (scheduler.run problem).outcome := by
  cases algorithm with
  | asap =>
    obtain rfl := able rfl
    exact ⟨.asap, rfl, wellFormed.ends_asap (fits.single (by simp))⟩
  | simplex =>
    -- The last operation is known, so the scheduler can be set up for each variant.
    obtain ⟨resolved, isResolved, hasLast⟩ := resolveLast_ok (known rfl)
    refine ⟨.simplex variant resolved (minimizeSum || variant = .sharedOperators), by
      simp [Problem.create_simplex isResolved], ?_⟩
    rw [outcome_run_simplex]
    cases variant with
    | basic => exact wellFormed.ends_precedence (fits.single (by simp)) hasLast _
    | cyclic => exact wellFormed.ends_cyclic hasLast _
    | sharedOperators => simpa using wellFormed.ends_shared (fits.single (by simp)) hasLast

/-- Whether a problem is refused before it is scheduled: by its check, for an algorithm that cannot
handle the variant, or for a last operation that it does not have. -/
def Refused (problem : Problem Int) (config : SchedulingConfig) (variant : Variant) : Prop :=
  problem.values.check (some variant) ≠ .ok () ∨
    (config.algorithm = .asap ∧ variant ≠ .basic) ∨
    (config.algorithm = .simplex ∧ ∃ name, config.last = some name ∧ name ∉ problem.operationNames)

/-- The check either passes or reports violations, and does nothing else. -/
theorem check_cases (problem : Problem Value) (variant : Variant) :
    problem.check (some variant) = .ok () ∨
      ∃ violations, problem.check (some variant) = .error (.malformed problem.name violations) := by
  -- The check only asks whether the list of violations is empty.
  rw [check]
  split
  · exact Or.inl rfl
  · exact Or.inr ⟨_, rfl⟩

/-- What is refused is reported as malformed. -/
theorem Refused.outcome_attempt (refused : problem.Refused config variant) :
    ∃ fault, (problem.values.attempt config variant).outcome = .error fault ∧
      fault.kind? = some .malformedProblem := by
  rcases check_cases problem.values variant with checked | ⟨violations, failed⟩
  · -- The problem itself is fine, so it is the scheduler that cannot be set up.
    obtain ⟨fault, failed, kind⟩ : ∃ fault, Scheduler.create problem config.algorithm variant
        config.last config.minimizeSum = .error fault ∧
          fault.kind? = some .malformedProblem := by
      rcases refused.resolve_left (not_not.mpr checked) with ⟨asap, notBasic⟩ |
        ⟨simplex, name, given, unknown⟩
      · refine ⟨.unsupportedVariant variant, ?_, rfl⟩
        rw [asap]
        exact if_neg notBasic
      · refine ⟨.unknownLast name problem.name, ?_, rfl⟩
        have notFound : problem.resolveLast (some name) =
            .error (.unknownLast name problem.name) :=
          if_neg fun found => unknown (operation?_isSome.mp found)
        simp [simplex, given, Scheduler.create, Scheduler.forVariant, notFound]
    refine ⟨fault, ?_, kind⟩
    simp only [attempt, Narrated.outcome_bind, Narrated.outcome_lift, checked, ok_bind,
      whole_values, failed, error_bind]
  · -- The check reports what is wrong with the problem.
    refine ⟨.malformed problem.values.name violations, ?_, rfl⟩
    simp only [attempt, Narrated.outcome_bind, Narrated.outcome_lift, failed, error_bind]

/-- What is not refused is scheduled, and the attempt comes to what the scheduler does, since a
schedule that is found is confirmed. -/
theorem outcome_attempt (accepted : ¬problem.Refused config variant) :
    ∃ scheduler, Scheduler.create problem config.algorithm variant config.last
        config.minimizeSum = .ok scheduler ∧
      problem.Ends variant (scheduler.run problem).outcome ∧
      (problem.values.attempt config variant).outcome = (scheduler.run problem).outcome := by
  simp only [Refused, not_or, not_not, not_and, not_exists] at accepted
  -- Nothing stands against scheduling the problem.
  obtain ⟨checked, able, known⟩ := accepted
  obtain ⟨wellFormed, fits⟩ := check_values_iff.mp checked
  obtain ⟨scheduler, created, ends⟩ := wellFormed.ends_run fits able known config.minimizeSum
  refine ⟨scheduler, created, ends, ?_⟩
  -- Once it is checked, all that is left is to run the scheduler and to confirm its result.
  have outcome : (problem.values.attempt config variant).outcome =
      (scheduler.run problem).outcome >>= fun result => do
        if config.verifySolution then
          problem.confirm result.starts.known result.interval variant
        return result := by
    simp only [attempt, Narrated.outcome_bind, Narrated.outcome_lift, checked, ok_bind,
      whole_values, created]
    refine congrArg _ (funext fun result => ?_)
    cases config.verifySolution with
    | false => rfl
    | true =>
      simp only [if_true, Narrated.outcome_bind, Narrated.outcome_lift, Narrated.outcome_pure]
      rfl
  rw [outcome]
  generalize (scheduler.run problem).outcome = run at ends ⊢
  cases ends with
  | found solves free =>
    rw [ok_bind, solves.confirm wellFormed fits]
    cases config.verifySolution <;> rfl
  | obstructed told inTheWay => rfl

/-- What is not refused is attempted, and the attempt ends well. -/
theorem ends_attempt (accepted : ¬problem.Refused config variant) :
    problem.Ends variant (problem.values.attempt config variant).outcome := by
  obtain ⟨_, _, ends, same⟩ := outcome_attempt accepted
  rwa [same]

/-- An attempt fails for a reason that is reported, or finds a schedule for a well-formed problem.
-/
theorem attempt_cases (problem : Problem Int) (config : SchedulingConfig) (variant : Variant) :
    (∃ fault kind, (problem.values.attempt config variant).outcome = .error fault ∧
      fault.kind? = some kind) ∨
    ∃ result, (problem.values.attempt config variant).outcome = .ok result ∧
      problem.Solves variant result ∧ problem.WellFormed ∧ problem.Fits variant := by
  by_cases refused : problem.Refused config variant
  · obtain ⟨fault, failed, kind⟩ := refused.outcome_attempt
    exact Or.inl ⟨fault, _, failed, kind⟩
  · -- What is not refused has passed the check.
    have checked : problem.values.check (some variant) = .ok () :=
      not_not.mp (not_or.mp refused).1
    have ends := ends_attempt refused
    generalize (problem.values.attempt config variant).outcome = run at ends ⊢
    cases ends with
    | found solves _ => exact Or.inr ⟨_, rfl, solves, check_values_iff.mp checked⟩
    | obstructed told _ => exact Or.inl ⟨_, _, rfl, told⟩

/-- An attempt that fails for a reason that is reported comes to a result with that failure. -/
theorem outcome_schedule_of_error {problem : Problem Value} {fault : Fault} {kind : FailureKind}
    (failed : (problem.attempt config (config.variant.getD problem.inferVariant)).outcome =
      .error fault) (told : fault.kind? = some kind) :
    ∃ result, (problem.schedule config).outcome = .ok (result, problem) ∧
      result.failure.map (·.kind) = some kind := by
  -- The failure takes its message and its entities from the fault.
  have failure : fault.failure? = some ⟨kind, fault.message.spelled, fault.entities⟩ := by
    rw [Fault.failure?, told]
    rfl
  refine ⟨.failed (config.variant.getD problem.inferVariant)
    ⟨kind, fault.message.spelled, fault.entities⟩, ?_, rfl⟩
  simp only [schedule, failed, failure]

/-- An attempt that succeeds comes to a result without failure, and its schedule is stored. -/
theorem Solves.outcome_stored {result : AlgorithmResult Int}
    (solves : problem.Solves (config.variant.getD problem.values.inferVariant) result)
    (found : (problem.values.attempt config
      (config.variant.getD problem.values.inferVariant)).outcome = .ok result) :
    (problem.values.schedule config).outcome =
      .ok (.found (config.variant.getD problem.values.inferVariant) result,
        (problem.withSchedule result.starts result.interval).values) := by
  obtain ⟨interval, respects, _⟩ := solves.respects
  -- Every operation has a start, so that all of them can be stored.
  have stored : problem.values.applySchedule result.starts.known result.interval =
      ((problem.withSchedule result.starts result.interval).values, .ok ()) :=
    applySchedule_known (fun name known => respects.names ▸ known) result.interval
  simp only [schedule, found, stored]
  rfl

end Problem

/-- Scheduling a problem over whole numbers stores a whole schedule or nothing. With a failure the
problem is as it was, whatever schedule it held. Otherwise the result has one start for each
operation, the problem differs from what it was in having these starts and the interval of the
result, and it is verified. A schedule in which an operation is missing is never stored. -/
theorem schedule_stores_all_or_nothing (problem : Problem Int) (config : SchedulingConfig) :
    let variant := config.variant.getD problem.values.inferVariant
    (∃ result stored, (problem.values.schedule config).outcome = .ok (result, stored) ∧
      (result.ok = false ∧ stored = problem.values ∨
        result.ok = true ∧ result.variant = variant ∧ problem.operationNames.Nodup ∧
        result.starts.names = problem.operationNames ∧
        stored = { problem.values with
          operations := problem.operations.map fun operation =>
            { operation with start := result.starts.get? operation.name }
          interval := result.interval } ∧
        stored.verify (some result.variant) = .ok ())) ∧
    ∀ found, (problem.values.attempt config variant).outcome = .ok found →
      ∀ name ∈ problem.operationNames, ∃ start, found.starts.get? name = some start := by
  intro variant
  rcases Problem.attempt_cases problem config variant with ⟨fault, kind, failed, told⟩ |
    ⟨result, attempted, solves, wellFormed, fits⟩
  · -- Nothing is stored where the attempt fails.
    obtain ⟨result, outcome, failure⟩ := Problem.outcome_schedule_of_error failed told
    obtain ⟨_, isFailure, _⟩ := Option.map_eq_some_iff.mp failure
    refine ⟨⟨result, problem.values, outcome, Or.inl ⟨?_, rfl⟩⟩, fun found attempted => ?_⟩
    · rw [ScheduleResult.ok, isFailure]
      rfl
    · rw [failed] at attempted
      simp at attempted
  · -- What is found has a start for every operation, and is valid once it is stored.
    obtain ⟨interval, respects, usable⟩ := solves.respects
    have verified := respects.verify_withSchedule wellFormed fits usable solves.within
    refine ⟨⟨_, _, solves.outcome_stored attempted, Or.inr ⟨rfl, rfl, wellFormed.operations,
      respects.names, rfl, verified⟩⟩, fun found again name known => ?_⟩
    obtain rfl := Except.ok.inj (attempted.symm.trans again)
    exact NameTable.exists_get?_of_mem (respects.names ▸ known)

end CycleSchedule
