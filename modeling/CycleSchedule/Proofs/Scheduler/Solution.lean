import CycleSchedule.Proofs.Problem.Validity
import CycleSchedule.Proofs.Scheduler.Lexicographic

/-! Solving the programs of a problem: every outcome but an optimum means that nothing is feasible,
and the optimum has whole starts. -/

namespace CycleSchedule

open LinearProgram

/-- A solution with the least objective among given points, whole if the interval is. -/
structure Settles (unknowns : List String) (points : (String → Rat) → Prop) (objective : LinearForm)
    (solution : Solution) : Prop where
  names : solution.values.names = unknowns
  point : points solution.assignment
  least : ∀ x, points x → objective.eval solution.assignment ≤ objective.eval x
  whole : Int.fract (solution.assignment intervalVariable) = 0 → ∀ name ∈ unknowns,
    Int.fract (solution.assignment name) = 0

/-- The start times that a solution gives to operations. -/
def Solution.startsOf (solution : Solution) (names : List String) : NameTable Int :=
  names.map fun name => (name, (solution.assignment (startVariable name)).num)

/-- The starts that are read off a solution are those of the names asked for. -/
@[simp] theorem Solution.names_startsOf (solution : Solution) (names : List String) :
    NameTable.names (solution.startsOf names) = names :=
  NameTable.names_map_pair _ _

/-- A whole number is its own numerator. -/
theorem num_of_fract_eq_zero {q : Rat} (whole : Int.fract q = 0) :
    q.den = 1 ∧ (q.num : Rat) = q := by
  -- A rational number without a fraction is an integer.
  obtain ⟨n, rfl⟩ := Int.fract_eq_zero_iff.mp whole
  exact ⟨Rat.den_intCast n, by rw [Rat.num_intCast]⟩

/-- The start of an operation is the value of its variable, where that is whole. -/
theorem Solution.valueAt_startsOf {solution : Solution} {names : List String} {name : String}
    (member : name ∈ names) (whole : Int.fract (solution.assignment (startVariable name)) = 0) :
    (NameTable.valueAt (solution.startsOf names) name : Rat) =
      solution.assignment (startVariable name) := by
  rw [← (num_of_fract_eq_zero whole).2, startsOf, NameTable.valueAt_map_pair _ member]

/-- A variable that a solution does not know is zero in it. -/
theorem Solution.assignment_of_not_mem {solution : Solution} {name : String}
    (absent : name ∉ solution.values.names) : solution.assignment name = 0 := by
  rw [Solution.assignment, NameTable.get?_eq_none_iff.mpr absent, Option.getD_none]

/-- Starts and an interval make up a point of the program, as its variables are distinct. -/
theorem exists_point (x : String → Rat) (interval : Rat) :
    ∃ point : String → Rat, point intervalVariable = interval ∧
      (fun name => point (startVariable name)) = x := by
  -- Start variables are distinct from each other and from the interval, so all can be set freely.
  refine ⟨Function.update (Function.extend startVariable x fun _ => 0) intervalVariable interval,
    Function.update_self _ _ _, funext fun name => ?_⟩
  rw [Function.update_of_ne (startVariable_ne_intervalVariable name),
    startVariable_injective.extend_apply]

namespace Problem

variable {problem : Problem Int} {program : LinearProgram} {unknowns : List String}
  {points : (String → Rat) → Prop} {objective : LinearForm} {purpose last : String}
  {minimizeSum : Bool}

/-- Corners of a program that keeps its points whole are whole if the interval is. -/
theorem whole_of_corner (describes : program.Describes unknowns points) {x : String → Rat}
    (corner : program.Corner x) (interval : Int.fract (x intervalVariable) = 0) :
    ∀ name ∈ unknowns, Int.fract (x name) = 0 := by
  rw [← describes.unknowns]
  -- Every constraint bears a shift of what is not whole, and a corner bears none.
  refine corner.whole fun part fractional constraint member => ?_
  exact describes.whole constraint member x (corner.feasible.2 constraint member) interval part
    fractional

/-- A bounded program is solved: to a least feasible point, or to the finding that there is none. -/
theorem outcome_solveFor (problem : Problem Int) (purpose : String)
    (describes : program.Describes unknowns points)
    (known : ∀ term ∈ objective, term.1 ∈ unknowns)
    (bounded : ∀ x, points x → 0 ≤ objective.eval x) :
    ∃ solution, (problem.solveFor program objective purpose).outcome = .ok solution ∧
      (solution.status = .optimal ∧ Settles unknowns points objective solution ∨
        solution.status = .infeasible ∧ ∀ x, ¬points x) := by
  -- What is known of the program's feasible points is said of the points that it describes.
  obtain ⟨solution, solved, answer⟩ := outcome_solveFor_of_bounded problem purpose
    describes.wellFormed (describes.unknowns ▸ known) fun x feasible =>
      bounded x ((describes.feasible x).mp feasible)
  refine ⟨solution, solved, ?_⟩
  simp only [describes.feasible] at answer
  rcases answer with ⟨status, names, corner, least⟩ | infeasible
  · simp only [describes.feasible] at least
    exact Or.inl ⟨status, names.trans describes.unknowns,
      (describes.feasible _).mp corner.feasible, least, whole_of_corner describes corner⟩
  · exact Or.inr infeasible

/-- The objective that adds up all starts. -/
def startSum (problem : Problem Int) : LinearForm :=
  problem.operations.map fun operation => (startVariable operation.name, 1)

/-- The sum of starts, as a form, has the sum of the start variables for its value. -/
theorem eval_startSum (problem : Problem Int) (x : String → Rat) :
    problem.startSum.eval x =
      (problem.operationNames.map fun name => x (startVariable name)).sum := by
  unfold startSum operationNames
  -- By induction on the operations: each adds its start.
  induction problem.operations with
  | nil => rfl
  | cons operation operations ih => simp [ih]

/-- A whole solution in which the last operation is as early as it can be and, with the sum of
starts minimised, so are all of them together. -/
structure LastFirst (problem : Problem Int) (unknowns : List String)
    (points : (String → Rat) → Prop) (last : String) (minimizeSum : Bool) (solution : Solution) :
    Prop where
  names : solution.values.names = unknowns
  point : points solution.assignment
  whole : ∀ name ∈ unknowns, Int.fract (solution.assignment name) = 0
  earliest : ∀ x, points x → solution.assignment (startVariable last) ≤ x (startVariable last)
  sum : minimizeSum = true → ∀ x, points x →
    x (startVariable last) = solution.assignment (startVariable last) →
    problem.startSum.eval solution.assignment ≤ problem.startSum.eval x

/-- With names that are distinct the sum of all starts counts each operation once. -/
theorem WellFormed.startTotal_eq (wellFormed : problem.WellFormed) (x : String → Rat) :
    problem.startTotal x = problem.startSum.eval x := by
  rw [startTotal, List.sum_toFinset _ wellFormed.operations, eval_startSum]

/-- Where something is feasible, minimising the start of the last operation first succeeds. -/
theorem WellFormed.outcome_solveForLast (describes : program.Describes unknowns points)
    (covered : ∀ name ∈ problem.operationNames, startVariable name ∈ unknowns)
    (interval : ∀ solution : Solution, solution.values.names = unknowns →
      points solution.assignment → Int.fract (solution.assignment intervalVariable) = 0)
    (known : last ∈ problem.operationNames) (wellFormed : problem.WellFormed) (minimizeSum : Bool)
    (feasible : ∃ x, points x) :
    ∃ solution effort,
      (problem.solveForLast (some last) minimizeSum program).outcome = .ok (solution, effort) ∧
        problem.LastFirst unknowns points last minimizeSum solution := by
  -- Infeasible it cannot be, since it describes some point.
  rcases outcome_solveForLast_cases describes.wellFormed (describes.unknowns ▸ covered) known
    minimizeSum with ⟨solution, effort, solved, names, corner, earliest, sum⟩ | ⟨_, nothing⟩
  · simp only [describes.feasible, wellFormed.startTotal_eq] at earliest sum
    have names := names.trans describes.unknowns
    have point := (describes.feasible _).mp corner.feasible
    exact ⟨solution, effort, solved, names, point,
      whole_of_corner describes corner (interval solution names point), earliest, sum⟩
  · obtain ⟨x, point⟩ := feasible
    exact absurd ((describes.feasible x).mpr point) (nothing x)

/-- Whole solutions can be decoded. -/
theorem WellFormed.decodeStarts_ok (wellFormed : problem.WellFormed) {solution : Solution}
    (known : ∀ name ∈ problem.operationNames, startVariable name ∈ solution.values.names)
    (whole : ∀ name ∈ problem.operationNames,
      Int.fract (solution.assignment (startVariable name)) = 0) :
    problem.decodeStarts solution.values = .ok (solution.startsOf problem.operationNames) := by
  -- No name occurs twice, so the table keeps all starts.
  have distinct : ((solution.startsOf problem.operationNames).map (·.1)).Nodup := by
    rw [show List.map _ _ = _ from Solution.names_startsOf solution problem.operationNames]
    exact wellFormed.operations
  have same : (problem.operations.map fun operation =>
      (operation.name, (solution.assignment (startVariable operation.name)).num)) =
        solution.startsOf problem.operationNames := by
    simp [Solution.startsOf, operationNames, Function.comp_def]
  rw [decodeStarts, mapM_ok (fun operation : Operation =>
    (operation.name, (solution.assignment (startVariable operation.name)).num)) ?_, same, ok_bind,
    NameTable.ofPairs_of_nodup distinct]
  · rfl
  · -- Every value that is looked up is there, and is whole.
    intro operation member
    have named : operation.name ∈ problem.operationNames := mem_operationNames member
    rw [Solution.get?_of_mem (known _ named)]
    exact if_pos (num_of_fract_eq_zero (whole _ named)).1

/-- The starts of whole solutions respect the dependences that the solutions do. -/
theorem WellFormed.respects_startsOf (wellFormed : problem.WellFormed) {solution : Solution}
    {interval : Int}
    (whole : ∀ name ∈ problem.operationNames,
      Int.fract (solution.assignment (startVariable name)) = 0)
    (nonneg : ∀ name ∈ problem.operationNames, 0 ≤ solution.assignment (startVariable name))
    (ordered : ∀ dependence ∈ problem.dependences,
      solution.assignment (startVariable dependence.source) +
          problem.latencyOf dependence.source ≤
        solution.assignment (startVariable dependence.destination) +
          interval * dependence.distance) :
    problem.Respects (solution.startsOf problem.operationNames) interval := by
  have value {name : String} (known : name ∈ problem.operationNames) :
      (NameTable.valueAt (solution.startsOf problem.operationNames) name : Rat) =
        solution.assignment (startVariable name) :=
    Solution.valueAt_startsOf known (whole name known)
  -- What holds of the values holds of the starts, which are the same numbers.
  refine ⟨Solution.names_startsOf _ _, fun name known => ?_, fun dependence member => ?_⟩
  · have start := nonneg name known
    rw [← value known] at start
    exact_mod_cast start
  · obtain ⟨source, destination⟩ := wellFormed.endpoints dependence member
    have here := ordered dependence member
    rw [← value source, ← value destination] at here
    exact_mod_cast here

/-- Numbers that are each at least as great as others, but not so together, are the same. -/
private theorem eq_of_sum_le {names : List String} {low high : String → Rat}
    (each : ∀ name ∈ names, low name ≤ high name)
    (together : (names.map high).sum ≤ (names.map low).sum) :
    ∀ name ∈ names, low name = high name := by
  intro name member
  -- If one of them were smaller, so would be the sum.
  by_contra different
  exact absurd together (not_le.mpr (List.sum_lt_sum low high each
    ⟨name, member, lt_of_le_of_ne (each name member) different⟩))

/-- If the lesser of two points is always a point as well, minimising the last start first and the
sum of all then finds starts that no others are before. -/
theorem LastFirst.le_of_inf {last : String} {solution : Solution}
    (lastFirst : problem.LastFirst unknowns points last true solution)
    (lesser : ∀ x y, points x → points y → points (x ⊓ y)) {x : String → Rat} (point : points x) :
    ∀ name ∈ problem.operationNames,
      solution.assignment (startVariable name) ≤ x (startVariable name) := by
  -- The lesser of the solution and the other point has the last start as early as it can be.
  have meet := lesser _ _ lastFirst.point point
  have lastSame : (solution.assignment ⊓ x) (startVariable last) =
      solution.assignment (startVariable last) :=
    le_antisymm inf_le_left (lastFirst.earliest _ meet)
  -- So its sum is not smaller than that of the solution, and it is the solution itself.
  have together := lastFirst.sum rfl _ meet lastSame
  simp only [eval_startSum] at together
  intro name known
  have same := eq_of_sum_le (fun name _ => inf_le_left) together name known
  exact inf_eq_left.mp same

/-- The lesser of admissible starts are admissible. -/
theorem Admissible.inf {pinned : NameTable Int} {x y : String → Rat}
    (first : problem.Admissible pinned x) (second : problem.Admissible pinned y) :
    problem.Admissible pinned (x ⊓ y) where
  nonneg name known := le_inf (first.nonneg name known) (second.nonneg name known)
  ordered dependence member := by
    -- The lesser of two destinations is at one of them, and there the source ends in time.
    rw [Pi.inf_apply, Pi.inf_apply, ← min_add_add_right]
    exact inf_le_inf (first.ordered dependence member) (second.ordered dependence member)
  held name slot isPinned := by
    rw [Pi.inf_apply, first.held name slot isPinned, second.held name slot isPinned, inf_idem]

/-- Where there are least starts, minimising the last one first and the sum of all then finds
them. -/
theorem LastFirst.eq_least {pinned starts : NameTable Int} {last : String} {solution : Solution}
    (lastFirst : problem.LastFirst unknowns (fun x =>
      problem.Admissible pinned fun name => x (startVariable name)) last true solution)
    (least : problem.Least pinned starts) :
    ∀ name ∈ problem.operationNames,
      (starts.valueAt name : Rat) = solution.assignment (startVariable name) := by
  -- The least starts are a point of the program.
  obtain ⟨point, _, isPoint⟩ := exists_point (fun name => (starts.valueAt name : Rat)) 0
  have admissible : problem.Admissible pinned fun name => point (startVariable name) :=
    isPoint ▸ least.admissible
  intro name known
  -- Neither the least starts nor those of the solution are before the other ones.
  have above := lastFirst.le_of_inf (fun _ _ => Admissible.inf) admissible name known
  rw [congrFun isPoint name] at above
  exact le_antisymm (least.least _ lastFirst.point name known) above

/-- The decoded starts of such a solution are the least ones. -/
theorem LastFirst.get?_startsOf {pinned starts : NameTable Int} {last : String}
    {solution : Solution}
    (lastFirst : problem.LastFirst problem.startUnknowns (fun x =>
      problem.Admissible pinned fun name => x (startVariable name)) last true solution)
    (least : problem.Least pinned starts) (name : String) :
    NameTable.get? (solution.startsOf problem.operationNames) name = starts.get? name := by
  -- Under each name both tables have the same start, or none.
  rw [Solution.startsOf, NameTable.get?_map_pair]
  split
  · rename_i member
    have value := lastFirst.eq_least least name member
    rw [NameTable.get?_of_mem_names ((least.names name).mpr member), ← value, Rat.num_intCast]
  · rename_i absent
    exact (NameTable.get?_eq_none_iff.mpr fun found => absent ((least.names name).mp found)).symm

/-- A program of starts has no variable for the interval, so that all its solutions are whole. -/
theorem Formulates.outcome_solveForLast {pinned : NameTable Int} {last : String}
    (formulates : problem.Formulates pinned program) (minimizeSum : Bool)
    (wellFormed : problem.WellFormed) (known : last ∈ problem.operationNames)
    (feasible : ∃ x, problem.Admissible pinned x) :
    ∃ solution effort,
      (problem.solveForLast (some last) minimizeSum program).outcome = .ok (solution, effort) ∧
        problem.LastFirst problem.startUnknowns
          (fun x => problem.Admissible pinned fun name => x (startVariable name)) last
          minimizeSum solution := by
  refine wellFormed.outcome_solveForLast formulates (fun name => mem_startUnknowns.mpr)
    (fun solution names _ => ?_) known minimizeSum ?_
  · -- What is no variable of the program counts as zero.
    rw [Solution.assignment_of_not_mem (names ▸ intervalVariable_not_mem), Int.fract_zero]
  · -- Admissible starts become a point, with anything for the other variables.
    obtain ⟨x, admissible⟩ := feasible
    obtain ⟨point, _, rfl⟩ := exists_point x 0
    exact ⟨point, admissible⟩

/-- Such solutions can be decoded. -/
theorem LastFirst.decodeStarts_ok {last : String} {solution : Solution}
    (lastFirst : problem.LastFirst unknowns points last minimizeSum solution)
    (wellFormed : problem.WellFormed)
    (covered : ∀ name ∈ problem.operationNames, startVariable name ∈ unknowns) :
    problem.decodeStarts solution.values = .ok (solution.startsOf problem.operationNames) :=
  wellFormed.decodeStarts_ok (fun name member => lastFirst.names ▸ covered name member)
    fun name member => lastFirst.whole _ (covered name member)

end Problem

end CycleSchedule
