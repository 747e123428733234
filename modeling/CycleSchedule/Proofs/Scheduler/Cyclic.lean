import CycleSchedule.Proofs.Scheduler.Precedence
import CycleSchedule.Proofs.Scheduler.Recurrence

/-! Scheduling of overlapping iterations: it gives the least valid starts for every problem that has
an interval, and names a cycle for every other one. -/

namespace CycleSchedule

namespace Problem

open LinearProgram

variable {problem : Problem Int} {last : String}

/-- The form that is the interval alone has the interval's value. -/
theorem eval_interval (x : String → Rat) :
    LinearForm.eval [(intervalVariable, 1)] x = x intervalVariable := by
  simp

/-- The program is solved for the interval: the least one is found, or none does. -/
theorem WellFormed.outcome_leastInterval (wellFormed : problem.WellFormed) :
    ∃ program bound, problem.cyclicProgram = .ok program ∧
      program.Describes problem.cyclicUnknowns (fun x =>
        problem.Overlaps (fun name => x (startVariable name)) (x intervalVariable)) ∧
      (problem.solveFor program [(intervalVariable, 1)] "minimum initiation interval").outcome =
        .ok bound ∧
      (bound.status = .optimal ∧ Settles problem.cyclicUnknowns (fun x =>
          problem.Overlaps (fun name => x (startVariable name)) (x intervalVariable))
            [(intervalVariable, 1)] bound ∨
        bound.status = .infeasible ∧ ∀ x : String → Rat,
          ¬problem.Overlaps (fun name => x (startVariable name)) (x intervalVariable)) := by
  obtain ⟨program, built, describes⟩ := wellFormed.cyclicProgram
  -- No interval is negative, so the program is bounded.
  obtain ⟨bound, solved, answer⟩ := outcome_solveFor problem "minimum initiation interval" describes
    interval_known fun x overlaps => by
      rw [eval_interval]
      exact zero_le_one.trans overlaps.positive
  exact ⟨program, bound, built, describes, solved, answer⟩

/-- What the program is solved for is the least interval that does, whole or not. -/
theorem isLeast_relaxed {bound : Solution}
    (settles : Settles problem.cyclicUnknowns (fun x =>
      problem.Overlaps (fun name => x (startVariable name)) (x intervalVariable))
        [(intervalVariable, 1)] bound) :
    IsLeast problem.RelaxedIntervals (bound.assignment intervalVariable) := by
  refine ⟨⟨_, settles.point⟩, ?_⟩
  -- Any other one is that of some point, at which the solution is no greater.
  rintro other ⟨x, overlaps⟩
  obtain ⟨point, isOther, rfl⟩ := exists_point x other
  have bounded := settles.least point (by rwa [isOther])
  rwa [eval_interval, eval_interval, isOther] at bounded

/-- The next whole number after the least interval is the least whole interval that does. -/
theorem WellFormed.isLeast_ceil (wellFormed : problem.WellFormed) {relaxed : Rat}
    (isLeast : IsLeast problem.RelaxedIntervals relaxed) :
    IsLeast problem.Intervals relaxed.ceil := by
  obtain ⟨⟨x, overlaps⟩, least⟩ := isLeast
  refine ⟨⟨x, overlaps.mono wellFormed Rat.le_ceil⟩, ?_⟩
  -- Any other one is no less than the bound, and so it is no less than the next whole number.
  intro other does
  exact Rat.ceil_le_iff.mpr (least does)

/-- With an interval fixed that does, the program is solved for whole starts. -/
theorem WellFormed.outcome_fixedInterval (wellFormed : problem.WellFormed)
    {program : LinearProgram} (describes : program.Describes problem.cyclicUnknowns (fun x =>
      problem.Overlaps (fun name => x (startVariable name)) (x intervalVariable)))
    (known : last ∈ problem.operationNames) (minimizeSum : Bool) {interval : Int}
    (does : interval ∈ problem.Intervals) :
    ∃ fixed solution effort, program.fix [(intervalVariable, 1)] interval "fix ii" = .ok fixed ∧
      (problem.solveForLast (some last) minimizeSum fixed).outcome = .ok (solution, effort) ∧
      problem.LastFirst problem.cyclicUnknowns (fun x =>
        problem.Overlaps (fun name => x (startVariable name)) interval ∧
          x intervalVariable = interval) last minimizeSum solution := by
  obtain ⟨fixed, fixes, described⟩ := describes.addConstraint interval_known
    (keepsWhole_interval 1 interval .equal "fix ii" fun x => by simp)
  -- The interval of a point is the one that is fixed.
  have points := described.congr fun x => (show _ ↔
      problem.Overlaps (fun name => x (startVariable name)) interval ∧
        x intervalVariable = interval by
    rw [eval_interval, Relation.Holds]
    exact and_congr_left fun same => by rw [same])
  -- Some starts overlap in the interval, which makes a point of the program.
  obtain ⟨x, overlaps⟩ := does
  obtain ⟨point, isInterval, rfl⟩ := exists_point x interval
  obtain ⟨solution, effort, solved, lastFirst⟩ :=
    wellFormed.outcome_solveForLast points (fun name => mem_cyclicUnknowns)
      (fun solution _ point => by rw [point.2, Int.fract_intCast]) known minimizeSum
      ⟨point, overlaps, isInterval⟩
  exact ⟨fixed, solution, effort, fixes, solved, lastFirst⟩

/-- No starts that do with the interval are before the given ones. -/
def NoneBefore (problem : Problem Int) (starts : NameTable Int) (interval : Rat) : Prop :=
  ∀ x, problem.Overlaps x interval → ∀ name ∈ problem.operationNames,
    (starts.valueAt name : Rat) ≤ x name

/-- With the sum of starts minimised, no starts are before those of the solution. -/
theorem LastFirst.noneBefore {solution : Solution} {interval : Int}
    (lastFirst : problem.LastFirst problem.cyclicUnknowns (fun x =>
      problem.Overlaps (fun name => x (startVariable name)) interval ∧
        x intervalVariable = interval) last true solution) :
    problem.NoneBefore (solution.startsOf problem.operationNames) interval := by
  intro x overlaps name known
  obtain ⟨point, isInterval, rfl⟩ := exists_point x interval
  rw [Solution.valueAt_startsOf known (lastFirst.whole _ (mem_cyclicUnknowns known))]
  -- The lesser of two points has the interval that is fixed, as both of them have it.
  refine lastFirst.le_of_inf (fun x y first second => ⟨first.1.inf second.1, ?_⟩)
    ⟨overlaps, isInterval⟩ name known
  rw [Pi.inf_apply, first.2, second.2, inf_idem]

/-- What scheduling of overlapping iterations comes to: the least whole interval, and starts for it
that respect the dependences. The last operation starts as early as it can; with the sum of starts
minimised, all others do so as well. -/
structure Pipelined (problem : Problem Int) (last : Option String) (minimizeSum : Bool)
    (starts : NameTable Int) (interval : Int) : Prop where
  least : IsLeast problem.Intervals interval
  respects : problem.Respects starts interval
  earliest : ∀ name, last = some name → ∀ x, problem.Overlaps x interval →
    (starts.valueAt name : Rat) ≤ x name
  noneBefore : minimizeSum = true → problem.NoneBefore starts interval

/-- Where some interval does, the scheduler finds and reports the least one, and rounds it up. -/
theorem WellFormed.outcome_cyclic (wellFormed : problem.WellFormed) (free : ¬problem.Recurs)
    (known : last ∈ problem.operationNames) (minimizeSum : Bool) :
    ∃ starts relaxed effort, (Cyclic.schedule problem (some last) minimizeSum).outcome =
        .ok ⟨starts, some relaxed.ceil, Cyclic.report (some last) effort (some relaxed)⟩ ∧
      IsLeast problem.RelaxedIntervals relaxed ∧
      problem.Pipelined (some last) minimizeSum starts relaxed.ceil := by
  -- First the least interval, which may lie between two whole numbers.
  obtain ⟨program, bound, built, describes, solved, answer⟩ := wellFormed.outcome_leastInterval
  obtain ⟨status, settles⟩ := answer.resolve_right fun none_ => by
    obtain ⟨x, interval, overlaps⟩ := wellFormed.exists_overlaps free
    obtain ⟨point, isInterval, rfl⟩ := exists_point x interval
    exact none_.2 point (by rwa [isInterval])
  have found : bound.values.get? intervalVariable = some (bound.assignment intervalVariable) :=
    Solution.get?_of_mem (settles.names ▸ intervalVariable_mem)
  -- Then the starts for the next whole number.
  have relaxed := isLeast_relaxed settles
  have least := wellFormed.isLeast_ceil relaxed
  obtain ⟨fixed, solution, effort, fixes, solvedAgain, lastFirst⟩ :=
    wellFormed.outcome_fixedInterval describes known minimizeSum least.1
  refine ⟨solution.startsOf problem.operationNames, bound.assignment intervalVariable,
    (effortOf bound).plus effort, ?_, relaxed, least,
    wellFormed.respects_startsOf (fun name known => lastFirst.whole _ (mem_cyclicUnknowns known))
      lastFirst.point.1.nonneg lastFirst.point.1.ordered, ?_, ?_⟩
  · have feasible : bound.status ≠ .infeasible := by simp [status]
    simp only [Cyclic.schedule, Narrated.outcome_bind, Option.isNone_some, Bool.false_eq_true,
      if_false, outcome_narratedCyclicProgram, built, ok_bind, solved]
    rw [if_neg feasible]
    simp only [found, Narrated.outcome_bind, Narrated.outcome_lift, Narrated.outcome_tell, ok_bind,
      fixes, solvedAgain, lastFirst.decodeStarts_ok wellFormed fun _ => mem_cyclicUnknowns]
    rfl
  · -- Other starts are a point with the interval that is fixed.
    rintro name isLast x overlaps
    obtain rfl := Option.some.inj isLast
    obtain ⟨point, isInterval, rfl⟩ := exists_point x (bound.assignment intervalVariable).ceil
    rw [Solution.valueAt_startsOf known (lastFirst.whole _ (mem_cyclicUnknowns known))]
    exact lastFirst.earliest point ⟨overlaps, isInterval⟩
  · rintro rfl
    exact lastFirst.noneBefore

/-- Also where there is nothing to start there is an interval. -/
theorem WellFormed.exists_cyclicSchedule (wellFormed : problem.WellFormed)
    (free : ¬problem.Recurs) {resolved : Option String} (hasLast : problem.HasLast resolved)
    (minimizeSum : Bool) :
    ∃ starts interval metadata, (Cyclic.schedule problem resolved minimizeSum).outcome =
        .ok ⟨starts, some interval, metadata⟩ ∧
      problem.Pipelined resolved minimizeSum starts interval := by
  cases resolved with
  | some last =>
    obtain ⟨starts, relaxed, effort, found, _, pipelined⟩ :=
      wellFormed.outcome_cyclic free hasLast minimizeSum
    exact ⟨starts, relaxed.ceil, _, found, pipelined⟩
  | none =>
    have nameless : problem.operationNames = [] := by
      rw [operationNames, show problem.operations = [] from hasLast]
      rfl
    -- There are no dependences either.
    have none_ (dependence : Dependence Int) : dependence ∉ problem.dependences := fun member => by
      have source := (wellFormed.endpoints dependence member).1
      simp [nameless] at source
    refine ⟨[], 1, Cyclic.report none .none none, rfl, ⟨⟨fun _ => 0, ?_⟩, ?_⟩, ⟨nameless.symm,
      by simp [nameless], fun dependence member => absurd member (none_ dependence)⟩, by simp,
      by simp [NoneBefore, nameless]⟩
    · -- Without operations every interval will do, and 1 is the least.
      exact ⟨fun _ _ => le_rfl, by simp, fun dependence member => absurd member (none_ dependence)⟩
    · exact fun other => one_le_of_mem_intervals

/-- Where no interval does, a cycle within one iteration is named that takes time. -/
theorem WellFormed.outcome_cyclic_of_recurs (wellFormed : problem.WellFormed)
    (recurs : problem.Recurs) {resolved : Option String} (hasLast : problem.HasLast resolved) :
    ∃ cycle, ∀ minimizeSum, (Cyclic.schedule problem resolved minimizeSum).outcome =
      .error (.infeasibleCycle cycle) := by
  obtain ⟨program, bound, built, _, solved, answer⟩ := wellFormed.outcome_leastInterval
  -- An optimum would be an interval that does.
  obtain ⟨infeasible, _⟩ := answer.resolve_left fun settled =>
    settled.2.point.not_recurs recurs
  -- The search finds a cycle, so that there are operations, and a last one of them.
  obtain ⟨names, first, found, _, _, known, isFirst, _⟩ :=
    wellFormed.infeasibleCycle_cases.resolve_left fun nothing => nothing.2 recurs
  obtain ⟨last, rfl⟩ : ∃ last, resolved = some last := by
    refine Option.ne_none_iff_exists'.mp fun none_ => ?_
    rw [none_] at hasLast
    have operation := known first (List.mem_of_head? isFirst)
    rw [operationNames, show problem.operations = [] from hasLast] at operation
    simp at operation
  refine ⟨names, fun minimizeSum => ?_⟩
  simp only [Cyclic.schedule, Narrated.outcome_bind, Option.isNone_some, Bool.false_eq_true,
    if_false, outcome_narratedCyclicProgram, built, ok_bind, solved]
  rw [if_pos infeasible]
  simp only [Narrated.outcome_bind, Narrated.outcome_lift, Cyclic.explainInfeasibility, found,
    ok_bind]
  rfl

/-- Two wires that wait for each other, and a sum that waits for its last result but one, as it is
and over the wires. -/
def accumulator : Problem Int :=
  ⟨"accumulator", [⟨"add", 3, none⟩, ⟨"wire", 0, none⟩],
    [⟨"sum", "add", none⟩, ⟨"there", "wire", none⟩, ⟨"back", "wire", none⟩],
    [⟨"sum", "sum", 2⟩, ⟨"sum", "there", 0⟩, ⟨"there", "back", 0⟩, ⟨"back", "there", 0⟩,
      ⟨"back", "sum", 2⟩], none⟩

/-- An operation that waits for its own result. -/
def reverb (latency distance : Int) : Problem Int :=
  ⟨"reverb", [⟨"delay", latency, none⟩], [⟨"tap", "delay", none⟩], [⟨"tap", "tap", distance⟩], none⟩

/-- A reverb is well formed, however long it takes and however late it comes. -/
theorem check_reverb {latency distance : Int} (nonneg : 0 ≤ latency) (forward : 0 ≤ distance) :
    (reverb latency distance).values.check (some .cyclic) = .ok () := by
  refine check_values_iff.mpr ⟨⟨?_, ?_, ?_, ?_, ?_, ?_, ?_⟩, ?_⟩ <;>
    simp [reverb, operationNames, Fits, nonneg, forward]

end Problem

end CycleSchedule
