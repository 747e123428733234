import CycleSchedule.Proofs.Scheduler.Cyclic

/-! The linear programs and the check of schedules are about the same schedules: starts satisfy all
constraints of a program just when they pass the check. -/

namespace CycleSchedule

namespace Problem

variable {problem : Problem Int} {given : NameTable (Option Int)} {start : String → Int}
  {interval : Int} {x : String → Rat}

section Encoding

variable (wellFormed : problem.WellFormed)
  (each : ∀ name ∈ problem.operationNames,
    given.get? name = some (some (start name)) ∧ 0 ≤ start name)
  (agrees : ∀ name ∈ problem.operationNames, x (startVariable name) = start name)

include wellFormed each agrees

/-- Within one iteration the constraints of the dependences hold just when the starts pass. -/
theorem WellFormed.holds_precedenceConstraints_iff :
    (∀ dependence ∈ problem.dependences, (problem.precedenceConstraint dependence).Holds x) ↔
      problem.checkSchedule given none .basic = .ok () := by
  rw [wellFormed.checkSchedule_eq_ok_iff_ordered (by simp) fun name known => (each name known).1]
  -- At whole starts a constraint says what the check asks of its dependence.
  have ordered {dependence : Dependence Int} (member : dependence ∈ problem.dependences) :
      (problem.precedenceConstraint dependence).Holds x ↔
        start dependence.source + problem.latencyOf dependence.source ≤
          start dependence.destination + 0 * dependence.distance := by
    obtain ⟨source, destination⟩ := wellFormed.endpoints dependence member
    rw [holds_precedenceConstraint, agrees _ source, agrees _ destination, zero_mul, add_zero]
    norm_cast
  constructor
  · intro holds
    exact ⟨0, rfl, fun name known => (each name known).2, fun dependence member =>
      (ordered member).mp (holds dependence member)⟩
  · -- All iterations are taken for one, so that the interval is zero.
    rintro ⟨length, usable, _, passes⟩ dependence member
    obtain rfl : 0 = length := by simpa [usableInterval] using usable
    exact (ordered member).mpr (passes dependence member)

/-- Between iterations the constraints of the interval and of the dependences hold just when the
starts pass with the interval. -/
theorem WellFormed.holds_cyclicConstraints_iff (isInterval : x intervalVariable = interval) :
    (positiveInterval.Holds x ∧
        ∀ dependence ∈ problem.dependences, (problem.cyclicConstraint dependence).Holds x) ↔
      problem.checkSchedule given (some interval) .cyclic = .ok () := by
  rw [wellFormed.checkSchedule_eq_ok_iff_ordered (by simp) fun name known => (each name known).1]
  have positive : positiveInterval.Holds x ↔ 1 ≤ interval := by
    rw [holds_positiveInterval, isInterval]
    norm_cast
  -- Both ends of a dependence start when the map says.
  have ordered {dependence : Dependence Int} (member : dependence ∈ problem.dependences) :
      (problem.cyclicConstraint dependence).Holds x ↔
        start dependence.source + problem.latencyOf dependence.source ≤
          start dependence.destination + interval * dependence.distance := by
    obtain ⟨source, destination⟩ := wellFormed.endpoints dependence member
    rw [holds_cyclicConstraint, agrees _ source, agrees _ destination, isInterval]
    norm_cast
  constructor
  · rintro ⟨bounded, holds⟩
    exact ⟨interval, usableInterval_cyclic_eq_ok_iff.mpr ⟨rfl, positive.mp bounded⟩,
      fun name known => (each name known).2, fun dependence member =>
        (ordered member).mp (holds dependence member)⟩
  · -- The check takes the interval as it is, and refuses one that is not positive.
    rintro ⟨length, usable, _, passes⟩
    obtain ⟨same, bounded⟩ := usableInterval_cyclic_eq_ok_iff.mp usable
    obtain rfl := Option.some.inj same
    exact ⟨positive.mpr bounded, fun dependence member =>
      (ordered member).mpr (passes dependence member)⟩

end Encoding

end Problem

/-- For every checked problem and all starts that are not negative, the starts satisfy every
constraint of the linear program just when they pass the check of schedules; where iterations
overlap, this is so together with every interval, whether it is positive or not. The program is
always there without distances, and with them if all distances can be written. -/
theorem programs_encode_check {problem : Problem Value} {given : NameTable (Option Int)}
    {start : String → Int} (each : ∀ name ∈ problem.operationNames,
      given.get? name = some (some (start name)) ∧ 0 ≤ start name) (cutoff : Level) :
    (problem.check (some .basic) = .ok () → ∃ (task : Problem Int) (program : LinearProgram),
      problem.whole = .ok task ∧
      (task.narratedPrecedenceProgram.told cutoff).outcome = .ok program ∧
      ∀ x : String → Rat,
        (∀ name ∈ problem.operationNames, x (startVariable name) = start name) →
          ((∀ constraint ∈ program.constraints, constraint.Holds x) ↔
            task.checkSchedule given none .basic = .ok ())) ∧
    (problem.check (some .cyclic) = .ok () → ∃ (task : Problem Int) (program : LinearProgram),
      problem.whole = .ok task ∧
      (task.narratedCyclicProgram.told cutoff).outcome =
        (if ∀ dependence ∈ task.dependences, Text.isWritable dependence.distance = true then
          .ok program
        else .error .unwritable) ∧
      ∀ (x : String → Rat) (interval : Int),
        (∀ name ∈ problem.operationNames, x (startVariable name) = start name) →
          x intervalVariable = interval →
            ((∀ constraint ∈ program.constraints, constraint.Holds x) ↔
              task.checkSchedule given (some interval) .cyclic = .ok ())) := by
  constructor
  · intro checked
    obtain ⟨task, rfl, wellFormed, fits⟩ := Problem.exists_values_of_check checked
    -- Within one iteration no label shows a distance, so all of them can be written.
    refine ⟨task, _, task.whole_values, Problem.told_precedenceProgram (fits.single (by simp))
      wellFormed.precedenceProgram_eq cutoff, fun x agrees => ?_⟩
    rw [List.forall_mem_map]
    exact wellFormed.holds_precedenceConstraints_iff each agrees
  · intro checked
    obtain ⟨task, rfl, wellFormed, _⟩ := Problem.exists_values_of_check checked
    -- The labels show the distances, and it is on them that the building can end.
    refine ⟨task, _, task.whole_values,
      Problem.told_cyclicProgram wellFormed.cyclicProgram_eq cutoff,
      fun x interval agrees isInterval => ?_⟩
    rw [List.forall_mem_cons, List.forall_mem_map]
    exact wellFormed.holds_cyclicConstraints_iff each agrees isInterval

/-- The sum may start when the products are done, in both programs and for both checks. -/
theorem sumOfProducts_programs_encode_check :
    ∃ (task : Problem Int) (single overlapping : LinearProgram),
      Problem.sumOfProducts.values.whole = .ok task ∧
      (task.narratedPrecedenceProgram.told .error).outcome = .ok single ∧
      (task.narratedCyclicProgram.told .error).outcome =
        (if ∀ dependence ∈ task.dependences, Text.isWritable dependence.distance = true then
          .ok overlapping
        else .error .unwritable) ∧
      ∀ x : String → Rat, (∀ name ∈ ["x", "y", "sum"], x (startVariable name) =
          ((if name = "sum" then 2 else 0 : Int) : Rat)) →
        ((∀ constraint ∈ single.constraints, constraint.Holds x) ↔
          task.checkSchedule [("x", some 0), ("y", some 0), ("sum", some 2)] none .basic =
            .ok ()) ∧
        ∀ interval : Int, x intervalVariable = interval →
          ((∀ constraint ∈ overlapping.constraints, constraint.Holds x) ↔
            task.checkSchedule [("x", some 0), ("y", some 0), ("sum", some 2)] (some interval)
              .cyclic = .ok ()) := by
  obtain ⟨basic, cyclic⟩ := programs_encode_check
    (show ∀ name ∈ Problem.sumOfProducts.values.operationNames,
      NameTable.get? [("x", some 0), ("y", some 0), ("sum", some 2)] name =
        some (some (if name = "sum" then 2 else 0 : Int)) ∧
      (0 : Int) ≤ if name = "sum" then 2 else 0 by decide) .error
  -- Both programs are of one problem, which is whole in one way.
  obtain ⟨task, single, whole, built, agree⟩ := basic (Problem.check_sumOfProducts .basic)
  obtain ⟨other, overlapping, again, builtAgain, agreeAgain⟩ :=
    cyclic (Problem.check_sumOfProducts .cyclic)
  obtain rfl := Except.ok.inj (whole.symm.trans again)
  exact ⟨task, single, overlapping, whole, built, builtAgain, fun x starts =>
    ⟨agree x starts, fun interval isInterval => agreeAgain x interval starts isInterval⟩⟩

/-- Starts pass the check with an interval, and there is no program that they could satisfy. -/
theorem reverb_program_is_lost :
    let problem := Problem.reverb 1 Text.leastUnwritable
    problem.values.check (some .cyclic) = .ok () ∧
      problem.checkSchedule [("tap", some 0)] (some 1) .cyclic = .ok () ∧
      (problem.narratedCyclicProgram.told .error).outcome = .error .unwritable := by
  refine ⟨Problem.check_reverb (by decide) (by decide +kernel), ?_, ?_⟩
  · -- The distance is no matter for the check, which puts no text together.
    exact eq_ok_of_toOption (by decide +kernel)
  · rw [Narrated.outcome_told, if_neg (by decide +kernel)]

end CycleSchedule
