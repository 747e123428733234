import CycleSchedule.Proofs.Linear.Verdict
import CycleSchedule.Proofs.Scheduler.Formulation
import CycleSchedule.Scheduler.Choice
import Mathlib.Algebra.BigOperators.Group.Finset.Basic
import Mathlib.Data.Finset.Image

/-! Two objectives, one after the other: over any program with start variables the last operation
starts as early as it can, and among the points at which it does so all starts together are least.
-/

namespace CycleSchedule

open LinearProgram

namespace LinearForm

/-- The form with each of some variables once, even if it is listed more than once, is their sum. -/
theorem eval_ofPairs_one (names : List String) (x : String → Rat) :
    eval (NameTable.ofPairs (names.map fun name => (name, (1 : Rat)))) x =
      ∑ name ∈ names.toFinset, x name := by
  -- By induction on the names, in the order in which they are put.
  induction names using List.reverseRecOn with
  | nil => rfl
  | append_singleton names latest ih =>
    have found := NameTable.get?_ofPairs_map_pair names (fun _ => (1 : Rat)) latest
    rw [List.map_append, List.map_singleton, NameTable.ofPairs_append, List.toFinset_append]
    by_cases listed : latest ∈ names
    · -- A name that is there already adds nothing.
      rw [if_pos listed] at found
      have same : names.toFinset ∪ [latest].toFinset = names.toFinset := by simpa using listed
      rw [NameTable.put_of_get? found, ih, same]
    · -- A new name comes last, and adds its value.
      rw [if_neg listed] at found
      rw [NameTable.put_of_not_mem (NameTable.get?_eq_none_iff.mp found), eval_append, ih,
        Finset.sum_union (by simpa using listed)]
      simp

end LinearForm

namespace LinearProgram

/-- A corner at which an objective is least, as a solution gives it. -/
structure Minimises (program : LinearProgram) (objective : LinearForm) (solution : Solution) :
    Prop where
  names : solution.values.names = program.unknowns
  corner : program.Corner solution.assignment
  least : ∀ x, program.Feasible x →
    objective.eval solution.assignment ≤ objective.eval x

end LinearProgram

namespace Problem

variable {ν : Type} {problem : Problem ν} {program : LinearProgram} {objective : LinearForm}
  {purpose last : String}

/-- A program on which the objective is bounded is solved: to a corner at which it is least, or to
the finding that nothing is feasible. -/
theorem outcome_solveFor_of_bounded (problem : Problem ν) (purpose : String)
    (wellFormed : program.WellFormed) (known : ∀ term ∈ objective, term.1 ∈ program.unknowns)
    (bounded : ∀ x, program.Feasible x → 0 ≤ objective.eval x) :
    ∃ solution, (problem.solveFor program objective purpose).outcome = .ok solution ∧
      (solution.status = .optimal ∧ program.Minimises objective solution ∨
        solution.status = .infeasible ∧ ∀ x, ¬program.Feasible x) := by
  set next : LinearProgram := { program with objective := objective.nonzero }
  have value (x : String → Rat) : next.objective.eval x = objective.eval x :=
    LinearForm.eval_nonzero objective x
  -- The solver answers every well-formed program, and what it answers holds.
  have answers : next.Answers next.solve := (wellFormed.withObjective known).answers_solve
  have outcome : (problem.solveFor program objective purpose).outcome =
      if next.solve.status = .unbounded then .error (.unboundedProgram purpose problem.name)
      else .ok next.solve := by
    simp only [solveFor, Narrated.outcome_bind, Narrated.outcome_lift, minimize_ok known, ok_bind,
      Narrated.outcome_tell]
    show Narrated.outcome (if next.solve.status = .unbounded then _ else _) = _
    split <;> rfl
  -- The objective is bounded, so that the program is not reported as unbounded.
  have never : next.solve.status ≠ .unbounded := by
    intro unbounded
    obtain ⟨x, feasible, negative⟩ := (answers.unbounded_iff.mp unbounded).2 0
    rw [value] at negative
    exact absurd (bounded x feasible) (not_le.mpr negative)
  refine ⟨next.solve, by rw [outcome, if_neg never], ?_⟩
  cases answers with
  | optimal status optimum =>
    refine Or.inl ⟨status, optimum.names, ⟨optimum.corner.feasible, optimum.corner.alone⟩,
      fun x feasible => ?_⟩
    rw [← value, ← value]
    exact optimum.least x feasible
  | infeasible status nothing => exact Or.inr ⟨status, nothing⟩
  | unbounded status _ => exact absurd status never

/-- An optimum passes as one. -/
theorem requireOptimal_ok {solution : Solution} (optimal : solution.status = .optimal) :
    problem.requireOptimal solution purpose = .ok solution := by
  rw [requireOptimal, if_pos optimal]

/-- The form that is one start variable alone has its value. -/
theorem eval_startVariable (name : String) (x : String → Rat) :
    LinearForm.eval [(startVariable name, 1)] x = x (startVariable name) := by
  simp

/-- All starts together, each operation counted once. -/
def startTotal (problem : Problem ν) (x : String → Rat) : Rat :=
  ∑ name ∈ problem.operationNames.toFinset, x (startVariable name)

/-- The objective that adds up all starts. -/
def startObjective (problem : Problem ν) : LinearForm :=
  .ofPairs (problem.operations.map fun operation => (startVariable operation.name, 1))

/-- The second objective has coefficient 1 at every start variable. -/
theorem startObjective_eq (problem : Problem ν) : problem.startObjective = .ofPairs
    ((problem.operationNames.map startVariable).map fun name => (name, (1 : Rat))) := by
  simp only [startObjective, operationNames, List.map_map]
  rfl

/-- The second objective is the sum of the starts. -/
theorem eval_startObjective (problem : Problem ν) (x : String → Rat) :
    problem.startObjective.eval x = problem.startTotal x := by
  have each : (problem.operationNames.map startVariable).toFinset =
      problem.operationNames.toFinset.image startVariable :=
    Finset.ext fun name => by simp
  -- Different operations have different start variables.
  rw [startObjective_eq, LinearForm.eval_ofPairs_one, each,
    Finset.sum_image startVariable_injective.injOn]
  rfl

/-- The second objective names variables of the program only. -/
theorem startObjective_known
    (covered : ∀ name ∈ problem.operationNames, startVariable name ∈ program.unknowns) :
    ∀ term ∈ problem.startObjective, term.1 ∈ program.unknowns := by
  intro term member
  rw [startObjective_eq] at member
  -- The objective names nothing but the start variables of operations.
  have listed : term.1 ∈ problem.operationNames.map startVariable := by
    by_contra other
    have absent := NameTable.get?_ofPairs_map_pair (problem.operationNames.map startVariable)
      (fun _ => (1 : Rat)) term.1
    rw [if_neg other] at absent
    exact NameTable.get?_eq_none_iff.mp absent (List.mem_map_of_mem member)
  obtain ⟨name, known, same⟩ := List.mem_map.mp listed
  exact same ▸ covered name known

/-- A corner at which the last operation is as early as it can be and, with the sum of starts
minimised, so are all of them together. -/
structure LexLeast (problem : Problem ν) (program : LinearProgram) (last : String)
    (minimizeSum : Bool) (solution : Solution) : Prop where
  names : solution.values.names = program.unknowns
  corner : program.Corner solution.assignment
  earliest : ∀ x, program.Feasible x →
    solution.assignment (startVariable last) ≤ x (startVariable last)
  sum : minimizeSum = true → ∀ x, program.Feasible x →
    x (startVariable last) = solution.assignment (startVariable last) →
      problem.startTotal solution.assignment ≤ problem.startTotal x

section TwoObjectives

variable (wellFormed : program.WellFormed)
  (covered : ∀ name ∈ problem.operationNames, startVariable name ∈ program.unknowns)
  (known : last ∈ problem.operationNames)

include wellFormed covered known

/-- The first objective has an optimum just when something is feasible. -/
theorem outcome_solveFor_last (purpose : String) :
    ∃ first, (problem.solveFor program [(startVariable last, 1)] purpose).outcome = .ok first ∧
      (first.status = .optimal ∧ problem.LexLeast program last false first ∨
        first.status = .infeasible ∧ ∀ x, ¬program.Feasible x) := by
  have lastKnown := covered last known
  -- The objective is a single variable, which is nowhere negative, so it is bounded.
  obtain ⟨first, solved, answer⟩ := outcome_solveFor_of_bounded problem purpose wellFormed
    (show ∀ term ∈ [(startVariable last, (1 : Rat))], term.1 ∈ program.unknowns by
      simpa using lastKnown) fun x feasible => by
    rw [eval_startVariable]
    exact feasible.1 _ lastKnown
  refine ⟨first, solved, answer.imp_left fun ⟨optimal, minimises⟩ => ⟨optimal, minimises.names,
    minimises.corner, fun x feasible => ?_, by simp⟩⟩
  simpa only [eval_startVariable] using minimises.least x feasible

/-- With the last operation held where the first objective is least, the second one has an optimum,
which is one for both. -/
theorem exists_leastTotal {first : Solution}
    (earliest : problem.LexLeast program last false first) (label purpose : String) :
    ∃ held second,
      program.fix [(startVariable last, 1)] (first.assignment (startVariable last)) label =
        .ok held ∧
      (problem.solveFor held problem.startObjective purpose).outcome = .ok second ∧
      second.status = .optimal ∧ problem.LexLeast program last true second := by
  set least := first.assignment (startVariable last)
  have single : ∀ term ∈ [(startVariable last, (1 : Rat))], term.1 ∈ program.unknowns := by
    simpa using covered last known
  set held := program.withConstraint [(startVariable last, 1)] .equal least label
  -- What is feasible with the last operation held is what was feasible with its start the least.
  have feasible (x : String → Rat) :
      held.Feasible x ↔ program.Feasible x ∧ x (startVariable last) = least := by
    rw [← eval_startVariable last x]
    exact feasible_withConstraint
  have fixes : program.fix [(startVariable last, 1)] least label = .ok held :=
    addConstraint_ok single
  obtain ⟨second, solved, answer⟩ := outcome_solveFor_of_bounded problem purpose
    (wellFormed.withConstraint single) (startObjective_known covered) fun x point => by
    rw [eval_startObjective]
    refine Finset.sum_nonneg fun name member => ?_
    exact point.1 _ (covered name (List.mem_toFinset.mp member))
  -- The first solution is feasible for the program that holds it, so that there is a second one.
  obtain ⟨optimal, minimises⟩ := answer.resolve_right fun none_ =>
    none_.2 first.assignment ((feasible _).mpr ⟨earliest.corner.feasible, rfl⟩)
  have same := ((feasible _).mp minimises.corner.feasible).2
  refine ⟨held, second, fixes, solved, optimal, minimises.names, ?_, fun x point => ?_,
    fun _ x point here => ?_⟩
  · -- The points at which the last start is least are a face of the program.
    refine minimises.corner.of_face [(startVariable last, 1)] rfl (fun y => ?_) fun y point => ?_
    · rw [eval_startVariable, eval_startVariable, same, feasible]
    · rw [eval_startVariable, eval_startVariable, same]
      exact earliest.earliest y point
  · rw [same]
    exact earliest.earliest x point
  · rw [← eval_startObjective, ← eval_startObjective]
    exact minimises.least x ((feasible x).mpr ⟨point, here.trans same⟩)

/-- Minimising the start of the last operation first and then, if asked for, the sum of all starts
fails just where nothing is feasible. -/
theorem outcome_solveForLast_cases (minimizeSum : Bool) :
    (∃ solution effort, (problem.solveForLast (some last) minimizeSum program).outcome =
        .ok (solution, effort) ∧
        problem.LexLeast program last minimizeSum solution) ∨
      (problem.solveForLast (some last) minimizeSum program).outcome =
        .error (.unsolvedProgram "last operation" problem.name "infeasible") ∧
        ∀ x, ¬program.Feasible x := by
  -- The start of the last operation cannot fall without end, so there are two answers only.
  obtain ⟨first, solved, answer⟩ :=
    outcome_solveFor_last wellFormed covered known ("start time of " ++ last)
  unfold solveForLast
  simp only [Narrated.outcome_bind, solved, ok_bind, Narrated.outcome_lift]
  rcases answer with ⟨optimal, earliest⟩ | ⟨infeasible, nothing⟩
  · left
    rw [requireOptimal_ok optimal, ok_bind]
    cases minimizeSum with
    | false =>
      -- Without the sum the first solution is what is asked for.
      exact ⟨first, effortOf first, rfl, earliest⟩
    | true =>
      -- The least start is read off the first solution and fixed for the second.
      have found : first.values.get? (startVariable last) =
          some (first.assignment (startVariable last)) :=
        Solution.get?_of_mem (earliest.names.symm ▸ covered last known)
      obtain ⟨held, second, fixes, solvedAgain, optimalAgain, both⟩ :=
        exists_leastTotal wellFormed covered known earliest ("fix " ++ startVariable last)
          "sum of start times"
      refine ⟨second, (effortOf first).plus (effortOf second), ?_, both⟩
      simp only [Bool.not_true, Bool.false_eq_true, if_false, found, Narrated.outcome_bind,
        Narrated.outcome_lift, fixes, ok_bind]
      rw [show NameTable.ofPairs (problem.operations.map fun operation =>
        (startVariable operation.name, (1 : Rat))) = problem.startObjective from rfl, solvedAgain,
        ok_bind, requireOptimal_ok optimalAgain]
      rfl
  · -- An infeasible program is refused at the first solve.
    right
    refine ⟨?_, nothing⟩
    rw [requireOptimal, if_neg (by simp [infeasible]), infeasible]
    rfl

end TwoObjectives

/-- Minimising the start of the last operation takes one solution, and minimising the sum of all
starts one more. -/
theorem solves_of_solveForLast {last : Option String} {minimizeSum : Bool} {solution : Solution}
    {effort : Effort}
    (solved : (problem.solveForLast last minimizeSum program).outcome = .ok (solution, effort)) :
    effort.solves = if minimizeSum then 2 else 1 := by
  unfold solveForLast at solved
  cases last with
  | none => simp at solved
  | some last =>
    simp only [Narrated.outcome_bind, Narrated.outcome_lift, bind_eq_ok_iff] at solved
    obtain ⟨_, _, first, _, solved⟩ := solved
    -- With one program solved there is nothing to add up.
    cases minimizeSum with
    | false =>
      obtain ⟨rfl, rfl⟩ := Prod.mk.inj (Except.ok.inj solved)
      rfl
    | true =>
      simp only [Bool.not_true, Bool.false_eq_true, if_false] at solved
      split at solved
      · simp at solved
      · -- Each of the two solutions counts once.
        simp only [Narrated.outcome_bind, Narrated.outcome_lift, bind_eq_ok_iff] at solved
        obtain ⟨_, _, _, _, second, _, solved⟩ := solved
        obtain ⟨rfl, rfl⟩ := Prod.mk.inj (Except.ok.inj solved)
        rfl

/-- The last operation of a scheduler is one of its problem. -/
theorem mem_of_create_simplex {variant other : Variant} {choice : Option String}
    {minimizeSum both : Bool}
    (created : Scheduler.create problem .simplex variant choice minimizeSum =
      .ok (.simplex other (some last) both)) : last ∈ problem.operationNames := by
  obtain ⟨resolved, found, same⟩ := bind_eq_ok_iff.mp created
  obtain ⟨-, rfl, -⟩ := Scheduler.simplex.inj (Except.ok.inj same)
  cases choice with
  | none =>
    -- If none is given, it is the one that is registered last.
    obtain ⟨operation, isLast, rfl⟩ := Option.map_eq_some_iff.mp (Except.ok.inj found)
    exact mem_operationNames (List.mem_of_getLast? isLast)
  | some name =>
    simp only [resolveLast] at found
    split at found
    · rename_i known
      obtain rfl := Option.some.inj (Except.ok.inj found)
      exact operation?_isSome.mp known
    · simp at found

end Problem

end CycleSchedule
