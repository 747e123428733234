import CycleSchedule.Proofs.Linear.Verdict

/-! Programs as schedulers pose them: bounds on differences of variables, in which multiples of one
more variable may count once that is fixed. Their optima are whole, whatever is minimised. -/

namespace CycleSchedule

/-- A variable with a whole value is not shifted. -/
theorem sharing_eq_zero {x : String → Rat} {name : String} (whole : Int.fract (x name) = 0)
    {part : Rat} (fractional : part ≠ 0) : sharing x part name = 0 :=
  if_neg fun same => fractional (same.symm.trans whole)

namespace Constraint

variable {constraint : Constraint} {interval : String} {held : Prop} {x : String → Rat} {part : Rat}

/-- A constraint that fixes a variable at a whole number. -/
def Fixes (constraint : Constraint) (name : String) (value : Int) : Prop :=
  constraint.relation = .equal ∧ constraint.bound = value ∧ ∀ x, constraint.form.eval x = x name

/-- A constraint as schedulers pose them. The interval only occurs in it if that is held. -/
inductive Schedules (constraint : Constraint) (interval : String) (held : Prop) : Prop
  /-- One variable exceeds another one, or itself, by a whole number at least. -/
  | apart (later earlier : String) (bound : Int) (relation : constraint.relation = .atLeast)
      (isBound : constraint.bound = bound)
      (form : ∀ x, constraint.form.eval x = x later - x earlier)
  /-- It does so with a whole multiple of the interval added to it. -/
  | overlapping (isHeld : held) (later earlier : String) (factor bound : Int)
      (relation : constraint.relation = .atLeast) (isBound : constraint.bound = bound)
      (form : ∀ x, constraint.form.eval x = x later - x earlier + factor * x interval)
  /-- The interval is one at least. -/
  | positive (isHeld : held) (relation : constraint.relation = .atLeast)
      (isBound : constraint.bound = 1) (form : ∀ x, constraint.form.eval x = x interval)
  /-- A variable, which may be the interval, is fixed at a whole number. -/
  | fixed (name : String) (value : Int) (fixes : constraint.Fixes name value)

/-- A form that schedules under one condition does so under any weaker one. -/
theorem Schedules.mono {held' : Prop} (schedules : constraint.Schedules interval held)
    (implies : held → held') : constraint.Schedules interval held' := by
  -- Only two of the four forms ask for the condition.
  cases schedules with
  | apart later earlier bound relation isBound form =>
    exact .apart later earlier bound relation isBound form
  | overlapping isHeld later earlier factor bound relation isBound form =>
    exact .overlapping (implies isHeld) later earlier factor bound relation isBound form
  | positive isHeld relation isBound form => exact .positive (implies isHeld) relation isBound form
  | fixed name value fixes => exact .fixed name value fixes

/-- A variable that is fixed at a whole number is whole. -/
theorem Fixes.whole {name : String} {value : Int} (fixes : constraint.Fixes name value)
    (holds : constraint.Holds x) : Int.fract (x name) = 0 := by
  obtain ⟨relation, isValue, form⟩ := fixes
  -- The constraint says nothing but that the variable has this value.
  have same : x name = value := by
    simpa [Constraint.Holds, relation, isValue, form, Relation.Holds] using holds
  rw [same, Int.fract_intCast]

/-- A bound on a difference bears the shift of variables that are not whole, also where a multiple
of another variable counts that is whole. -/
theorem bears_difference (later earlier other : String) (factor bound : Int)
    (relation : constraint.relation = .atLeast) (isBound : constraint.bound = bound)
    (form : ∀ x, constraint.form.eval x = x later - x earlier + factor * x other)
    (whole : factor = 0 ∨ Int.fract (x other) = 0) (holds : constraint.Holds x)
    (fractional : part ≠ 0) : constraint.Bears x (sharing x part) := by
  have atLeast : (bound : Rat) ≤ x later - x earlier + factor * x other := by
    simpa [Constraint.Holds, relation, isBound, form, Relation.Holds] using holds
  -- The other variable does not move, or does not count.
  have still : factor * sharing x part other = 0 := by
    rcases whole with rfl | whole
    · simp
    · rw [sharing_eq_zero whole fractional, mul_zero]
  -- What it adds is a whole number.
  obtain ⟨multiple, isMultiple⟩ : ∃ n : Int, factor * x other = n := by
    rcases whole with rfl | whole
    · exact ⟨0, by simp⟩
    · obtain ⟨n, isWhole⟩ := Int.fract_eq_zero_iff.mp whole
      exact ⟨factor * n, by rw [← isWhole, Int.cast_mul]⟩
  simp only [Constraint.Bears, form, still, relation, isBound, add_zero]
  -- Variables with the same fraction are shifted together, and their difference stays as it is.
  by_cases same : Int.fract (x later) = Int.fract (x earlier)
  · left
    simp [sharing, same]
  · -- The difference is not whole, so it is not equal to its bound.
    refine Or.inr ⟨trivial, lt_of_le_of_ne atLeast fun tight => same ?_⟩
    rw [isMultiple] at tight
    rw [Int.fract_eq_fract]
    refine ⟨bound - multiple, ?_⟩
    push_cast
    linarith

/-- A constraint as schedulers pose them bears the shift of variables that are not whole. -/
theorem Schedules.bears (schedules : constraint.Schedules interval held)
    (whole : held → Int.fract (x interval) = 0) (holds : constraint.Holds x)
    (fractional : part ≠ 0) : constraint.Bears x (sharing x part) := by
  cases schedules with
  | apart later earlier bound relation isBound form =>
    -- The interval does not count, as if its factor were zero.
    exact bears_difference later earlier interval 0 bound relation isBound (by simpa using form)
      (.inl rfl) holds fractional
  | overlapping isHeld later earlier factor bound relation isBound form =>
    exact bears_difference later earlier interval factor bound relation isBound form
      (.inr (whole isHeld)) holds fractional
  | positive isHeld relation isBound form =>
    -- The interval is whole, so it stays where it is.
    left
    rw [form, sharing_eq_zero (whole isHeld) fractional]
  | fixed name value fixes =>
    -- A fixed variable is whole as well.
    left
    rw [fixes.2.2, sharing_eq_zero (fixes.whole holds) fractional]

end Constraint

namespace LinearProgram

variable {program : LinearProgram} {interval : String} {x : String → Rat}

/-- A program with a constraint that fixes a variable at a whole number. -/
def Fixes (program : LinearProgram) (name : String) : Prop :=
  ∃ constraint ∈ program.constraints, ∃ value, constraint.Fixes name value

/-- What a program fixes stays fixed with one more constraint. -/
theorem Fixes.of_addConstraint {next : LinearProgram} {form : LinearForm} {relation : Relation}
    {bound : Rat} {name label : String} (fixes : program.Fixes name)
    (added : program.addConstraint form relation bound label = .ok next) : next.Fixes name := by
  obtain ⟨-, rfl⟩ := addConstraint_eq_ok_iff.mp added
  obtain ⟨constraint, member, held⟩ := fixes
  exact ⟨constraint, List.mem_append_left _ member, held⟩

/-- A program as schedulers pose them: wherever the interval occurs, it is fixed. -/
def Schedules (program : LinearProgram) (interval : String) : Prop :=
  ∀ constraint ∈ program.constraints, constraint.Schedules interval (program.Fixes interval)

/-- The corners of such a program are whole. -/
theorem Corner.whole_of_schedules (corner : program.Corner x)
    (schedules : program.Schedules interval) :
    ∀ name ∈ program.unknowns, Int.fract (x name) = 0 := by
  -- A corner is whole if every constraint that binds it bears on whole parts.
  refine corner.whole fun part fractional constraint member => ?_
  refine (schedules constraint member).bears ?_ (corner.feasible.2 constraint member) fractional
  rintro ⟨holder, isHolder, value, fixes⟩
  exact fixes.whole (corner.feasible.2 holder isHolder)

end LinearProgram

/-- A solution that gives each of some variables a whole value. -/
structure Solution.WholeOver (solution : Solution) (unknowns : List String) : Prop where
  names : solution.values.names = unknowns
  whole : ∀ name ∈ unknowns, Int.fract (solution.assignment name) = 0

/-- All values of such a solution are whole. -/
theorem Solution.WholeOver.of_mem {solution : Solution} {unknowns : List String}
    (wholeOver : solution.WholeOver unknowns) (distinct : unknowns.Nodup) {entry : String × Rat}
    (member : entry ∈ solution.values) : entry.2.den = 1 := by
  have known : entry.1 ∈ unknowns := wholeOver.names ▸ List.mem_map_of_mem member
  -- Each value is found under its name.
  have value : solution.assignment entry.1 = entry.2 := by
    rw [Solution.assignment, NameTable.get?_of_mem (wholeOver.names ▸ distinct) member,
      Option.getD_some]
  obtain ⟨n, isWhole⟩ := Int.fract_eq_zero_iff.mp (wholeOver.whole entry.1 known)
  rw [← value, ← isWhole, Rat.den_intCast]

/-- The optimum of a program as schedulers pose them is whole. -/
theorem LinearProgram.WellFormed.wholeOver_solve {program : LinearProgram} {interval : String}
    (wellFormed : program.WellFormed) (schedules : program.Schedules interval)
    (optimal : program.solve.status = .optimal) : program.solve.WholeOver program.unknowns := by
  have optimum := wellFormed.answers_solve.optimum optimal
  exact ⟨optimum.names, optimum.corner.whole_of_schedules schedules⟩

end CycleSchedule
