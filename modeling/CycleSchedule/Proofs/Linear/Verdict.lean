import CycleSchedule.Proofs.Linear.Build
import CycleSchedule.Proofs.Linear.Optimum
import CycleSchedule.Proofs.Told

/-! Solving comes to an end, and what its status says about a program that edits have built. -/

namespace CycleSchedule

namespace LinearProgram

variable {program : LinearProgram}

/-- Whatever is told of it, there is a solution in the end. -/
@[simp] theorem outcome_narratedSolve (program : LinearProgram) :
    program.narratedSolve.outcome = .ok program.solve := rfl

/-- Adding up term by term comes to the value of a form, more than the total at the start. -/
private theorem foldlM_total {step : Rat → String × Rat → Except Fault Rat} {x : String → Rat}
    (form : LinearForm) (adds : ∀ term ∈ form, ∀ total,
      step total term = .ok (total + term.2 * x term.1)) :
    ∀ total, form.foldlM step total = .ok (total + form.eval x) := by
  -- The induction is on the terms, for every total of the terms before them.
  induction form with
  | nil =>
    intro total
    rw [LinearForm.eval_nil, add_zero]
    rfl
  | cons term form ih =>
    intro total
    have rest := ih (fun other member => adds other (List.mem_cons_of_mem _ member))
      (total + term.2 * x term.1)
    rw [List.foldlM_cons, adds term (by simp), LinearForm.eval_cons, ← add_assoc]
    exact rest

/-- With a value for each of its variables the objective can be evaluated. -/
theorem evaluate_ok {solution : Solution}
    (given : ∀ term ∈ program.objective, term.1 ∈ solution.values.names) :
    program.evaluate solution.values = .ok (program.objective.eval solution.assignment) := by
  -- Every variable that is looked up has a value, which the assignment has as well.
  unfold evaluate
  rw [foldlM_total program.objective (x := solution.assignment) ?_ 0, zero_add]
  intro term member total
  obtain ⟨value, found⟩ := NameTable.exists_get?_of_mem (given term member)
  simp only [Solution.assignment, found, Option.getD_some]

/-- A program that is answered is unbounded only if something is feasible, with the objective as low
as one likes. -/
theorem Answers.unbounded_iff {solution : Solution} (answers : program.Answers solution) :
    solution.status = .unbounded ↔ (∃ x, program.Feasible x) ∧
      ∀ limit : Rat, ∃ x, program.Feasible x ∧ program.objective.eval x < limit := by
  cases answers with
  | optimal status optimum =>
    -- Nothing feasible has the objective below the optimum.
    refine ⟨fun other => ?_, fun ⟨_, below⟩ => ?_⟩
    · simp [status] at other
    · obtain ⟨x, feasible, less⟩ := below (program.objective.eval solution.assignment)
      exact absurd (optimum.least x feasible) (not_le.mpr less)
  | infeasible status nothing =>
    refine ⟨fun other => ?_, fun ⟨⟨x, feasible⟩, _⟩ => absurd feasible (nothing x)⟩
    simp [status] at other
  | unbounded status below =>
    refine ⟨fun _ => ⟨?_, below⟩, fun _ => status⟩
    exact (below 0).imp fun _ both => both.1

/-- A solution that is reported as optimal is an optimum. -/
theorem Answers.optimum {solution : Solution} (answers : program.Answers solution)
    (status : solution.status = .optimal) : program.Optimum solution := by
  cases answers with
  | optimal _ optimum => exact optimum
  -- Another status than the one that the solution has tells nothing.
  | infeasible other _ => simp [status] at other
  | unbounded other _ => simp [status] at other

/-- The tableaux from which solving a program pivots, with the columns that may enter. -/
inductive PivotsFrom (program : LinearProgram) : (Nat → Bool) → Tableau → Prop
  /-- The first phase lets all columns enter. -/
  | first (needed : program.columns.artificials ≠ 0) :
      PivotsFrom program (fun _ => true)
        (program.startingTableau.price (artificialCosts program.columns))
  /-- The second phase keeps artificial columns from entering. -/
  | second {start : Tableau} (found : program.secondStart? = some start) :
      PivotsFrom program (· < program.columns.real)
        (start.price (program.objectiveCosts program.columns))

/-- All pivoting starts from a proper tableau. -/
theorem PivotsFrom.proper {allowed : Nat → Bool} {start : Tableau}
    (pivots : program.PivotsFrom allowed start) : start.Proper program.columns.width := by
  cases pivots with
  | first _ => exact proper_artificialCosts program
  | second found => exact (ready_of_secondStart? found).proper_price

end LinearProgram

open LinearProgram

/-- An optimal solution gives every variable a value that is not negative, satisfies all
constraints, tells what the objective evaluates to, and no feasible point has a lower objective. -/
theorem optimal_solution_is_least {edits : List Edit}
    (optimal : (ofEdits edits).solve.status = .optimal) :
    let program := ofEdits edits
    (∀ name ∈ program.unknowns, ∃ value,
        program.solve.values.get? name = some value ∧ 0 ≤ value) ∧
      (∀ constraint ∈ program.constraints, constraint.Holds program.solve.assignment) ∧
      ∃ least, program.solve.objective = some least ∧
        program.evaluate program.solve.values = .ok least ∧
        ∀ x, program.Feasible x → least ≤ program.objective.eval x := by
  intro program
  have wellFormed : program.WellFormed := wellFormed_ofEdits edits
  have optimum := wellFormed.answers_solve.optimum optimal
  obtain ⟨nonneg, holds⟩ := optimum.corner.feasible
  refine ⟨fun name member => ?_, holds, ?_⟩
  · -- The values are those of the feasible point that they make up.
    obtain ⟨value, found⟩ := NameTable.exists_get?_of_mem (optimum.names.symm ▸ member)
    have assigned : program.solve.assignment name = value := by
      rw [Solution.assignment, found, Option.getD_some]
    exact ⟨value, found, assigned ▸ nonneg name member⟩
  · -- The objective names variables of the program only, and all of these have values.
    refine ⟨_, optimum.objective, evaluate_ok fun term member => ?_, optimum.least⟩
    exact optimum.names.symm ▸ wellFormed.objective term member

/-- Two equal constraints, one of them given as an equation, and a bound with a fraction. -/
def redundantEdits : List Edit :=
  [.addVariable "x", .addVariable "y", .addVariable "x",
    .addConstraint [("x", 1), ("y", 1)] .atLeast 2 "together",
    .fix [("x", 1), ("y", 1)] 2 "again", .addConstraint [("x", 1), ("y", -1 / 2)] .atMost 1 "apart",
    .addDifference "y" "y" 0 "itself", .minimize [("x", -2), ("y", -1)]]

/-- Over the program with a redundant row the reported values are feasible and least. -/
theorem redundantEdits_least :
    let program := ofEdits redundantEdits
    program.solve.status = .optimal ∧
      (∀ name ∈ program.unknowns, ∃ value,
        program.solve.values.get? name = some value ∧ 0 ≤ value) ∧
      (∀ constraint ∈ program.constraints, constraint.Holds program.solve.assignment) ∧
      ∃ least, program.solve.objective = some least ∧
        program.evaluate program.solve.values = .ok least ∧
        ∀ x, program.Feasible x → least ≤ program.objective.eval x := by
  have optimal : (ofEdits redundantEdits).solve.status = .optimal := by decide +kernel
  exact ⟨optimal, optimal_solution_is_least optimal⟩

/-- A constraint without variables cannot hold if its bound is not met by zero. -/
example : (ofEdits [.addVariable "x", .addDifference "x" "x" 1 "itself"]).solve.status =
    .infeasible := by decide +kernel

/-- Where variables are tied by an equation that is given twice, both can still grow together. -/
example : (ofEdits [.addVariable "x", .addVariable "y", .fix [("x", 1), ("y", -1)] 1 "apart",
    .fix [("x", 1), ("y", -1)] 1 "again", .minimize [("x", -2), ("y", 1)]]).solve.status =
      .unbounded := by decide +kernel

end CycleSchedule
