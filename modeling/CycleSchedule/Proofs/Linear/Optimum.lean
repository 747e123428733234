import CycleSchedule.Proofs.Linear.Termination
import CycleSchedule.Proofs.Linear.Vertex
import CycleSchedule.Proofs.NameTable

/-! Solving a well-formed program answers it: an optimum that is a corner, or no feasible point, or
no bound on the objective. -/

namespace CycleSchedule

/-- The assignment that the values of a solution make up. -/
def Solution.assignment (solution : Solution) (name : String) : Rat :=
  (solution.values.get? name).getD 0

/-- The values of a solution are found under their names. -/
theorem Solution.get?_of_mem {solution : Solution} {name : String}
    (member : name ∈ solution.values.names) :
    solution.values.get? name = some (solution.assignment name) := by
  obtain ⟨value, found⟩ := NameTable.exists_get?_of_mem member
  rw [Solution.assignment, found, Option.getD_some]

namespace LinearProgram

open Tableau

variable {program : LinearProgram} {x : String → Rat}

/-- A solution that gives a value to each variable, with the least objective at a corner. -/
structure Optimum (program : LinearProgram) (solution : Solution) : Prop where
  names : solution.values.names = program.unknowns
  corner : program.Corner solution.assignment
  least : ∀ x, program.Feasible x →
    program.objective.eval solution.assignment ≤ program.objective.eval x
  objective : solution.objective = some (program.objective.eval solution.assignment)

/-- A solution whose status tells the truth about the program. -/
inductive Answers (program : LinearProgram) (solution : Solution) : Prop
  | optimal (status : solution.status = .optimal) (optimum : program.Optimum solution)
  | infeasible (status : solution.status = .infeasible) (nothing : ∀ x, ¬program.Feasible x)
  | unbounded (status : solution.status = .unbounded)
      (below : ∀ limit : Rat, ∃ x, program.Feasible x ∧ program.objective.eval x < limit)

/-- The costs of the objective add up to its value. -/
theorem WellFormed.combine_objectiveCosts (wellFormed : program.WellFormed) {y : Nat → Rat}
    (agrees : program.Agrees x y) :
    combine (program.objectiveCosts program.columns) y = program.objective.eval x := by
  rw [objectiveCosts, combine_append, combine_replicate_zero, add_zero,
    LinearForm.eval_eq_combine wellFormed.distinct wellFormed.objective agrees]

/-- The objective has a cost for each column. -/
theorem length_objectiveCosts :
    (program.objectiveCosts program.columns).length = program.columns.width := by
  -- Artificial columns cost nothing, and there is one zero for each of them.
  simp only [objectiveCosts, List.length_append, List.length_map, List.length_replicate,
    Columns.width, Columns.real]
  simp only [columns, Columns.ofEquations]
  omega

/-- The tableau that the second phase starts from has the objective for its cost. -/
theorem Ready.proper_price {tableau : Tableau} (ready : program.Ready tableau) :
    (tableau.price (program.objectiveCosts program.columns)).Proper program.columns.width where
  canonical := ready.canonical.price _
  feasible row member := ready.feasible row (rows_price tableau _ ▸ member)
  priced := ready.canonical.priced_price length_objectiveCosts

/-- Pivots on real columns lead from a ready tableau to a ready one. -/
theorem Ready.of_ends {tableau : Tableau} (ready : program.Ready tableau) {result : Optimized}
    (ends : Ends program.columns.width (· < program.columns.real)
      (tableau.price (program.objectiveCosts program.columns)) result) :
    program.Ready result.tableau where
  canonical := ends.proper.canonical
  feasible := ends.proper.feasible
  real row member := by
    -- A basic column was basic before or was allowed to enter.
    rcases ends.basics row.basic (mem_basics.mpr ⟨row, member, rfl⟩) with before | permitted
    · obtain ⟨old, oldMember, same⟩ := mem_basics.mp before
      rw [rows_price] at oldMember
      exact same ▸ ready.real old oldMember
    · simpa using permitted
  same y zero := by
    rw [ends.same.solves y, ← ready.same y zero]
    simp only [Solves, rows_price]

/-- The values of a solution that the second phase reads off a tableau. -/
theorem WellFormed.agrees_values (wellFormed : program.WellFormed) {solution : Solution}
    {value : Nat → Rat}
    (values : solution.values = program.unknowns.zipIdx.map fun entry => (entry.1, value entry.2)) :
    solution.values.names = program.unknowns ∧ program.Agrees solution.assignment value := by
  have names : solution.values.names = program.unknowns := by
    rw [values, NameTable.names, List.map_map]
    exact List.zipIdx_map_fst 0 program.unknowns
  refine ⟨names, fun place within => ?_⟩
  -- Each variable is listed with the value of its own place.
  have found : solution.values.get? program.unknowns[place] = some (value place) := by
    refine NameTable.get?_of_mem (names ▸ wellFormed.distinct) ?_
    rw [values]
    exact List.mem_map.mpr ⟨(program.unknowns[place], place),
      List.mk_mem_zipIdx_iff_getElem?.mpr (List.getElem?_eq_getElem within), rfl⟩
  rw [Solution.assignment, found, Option.getD_some]

section SecondPhase

variable {tableau : Tableau} {result : Optimized} (ready : program.Ready tableau)
  (wellFormed : program.WellFormed)
  (ends : Ends program.columns.width (· < program.columns.real)
    (tableau.price (program.objectiveCosts program.columns)) result)

include ready wellFormed ends

/-- The cost of a solution is the value of the objective at the point that it stands for. -/
theorem Ready.cost_of_ends {y : Nat → Rat} (agrees : program.Agrees x y)
    (solves : program.startingTableau.Solves y)
    (zero : ∀ column < program.columns.width, program.columns.real ≤ column → y column = 0) :
    result.tableau.cost y = program.objective.eval x := by
  -- The point solves the tableau that the second phase starts from, priced or not.
  have solvesTableau := (ready.same y zero).mpr solves
  have solvesPriced : (tableau.price (program.objectiveCosts program.columns)).Solves y := by
    simpa only [Solves, rows_price] using solvesTableau
  rw [ends.same.cost y solvesPriced, ready.canonical.cost_price length_objectiveCosts solvesTableau,
    wellFormed.combine_objectiveCosts agrees]

/-- If nothing bounds the last entering column, nothing bounds the objective. -/
theorem Ready.exists_below (halt : result.halt = .unbounded) (limit : Rat) :
    ∃ x, program.Feasible x ∧ program.objective.eval x < limit := by
  have reached := ready.of_ends ends
  obtain ⟨column, entering, leaving⟩ := ends.unbounded halt
  obtain ⟨y, solves, admits, less⟩ := ends.proper.exists_cost_lt (fun place basic => by
    obtain ⟨row, member, rfl⟩ := mem_basics.mp basic
    simpa using reached.real row member) entering leaving limit
  have zero := eq_zero_of_admits admits
  have solvesStart := (reached.same y zero).mp solves
  -- The point that the solution stands for looks up its variables in the decision columns.
  let point (name : String) : Rat := y (program.unknowns.idxOf name)
  have agrees : program.Agrees point y := fun place within => by
    simp only [point]
    rw [wellFormed.distinct.idxOf_getElem place within]
  refine ⟨point, wellFormed.feasible_of_solves agrees solvesStart admits, ?_⟩
  rwa [← ready.cost_of_ends wellFormed ends agrees solvesStart zero]

/-- If no column may enter any more, the values of the last tableau are an optimum. -/
theorem Ready.optimum_of_ends (halt : result.halt = .optimal) {solution : Solution}
    (values : solution.values = program.unknowns.zipIdx.map fun entry =>
      (entry.1, result.tableau.columnValue entry.2))
    (objective : solution.objective = some result.tableau.value) : program.Optimum solution := by
  have reached := ready.of_ends ends
  obtain ⟨names, agrees⟩ := wellFormed.agrees_values values
  have value : result.tableau.value = program.objective.eval solution.assignment := by
    rw [← ends.proper.priced.cost_columnValue]
    exact ready.cost_of_ends wellFormed ends agrees reached.solves_columnValue fun _ _ high =>
      reached.columnValue_eq_zero high
  refine ⟨names, reached.corner wellFormed agrees, fun x feasible => ?_,
    objective.trans (congrArg some value)⟩
  -- Any feasible point is an admitted solution, which costs no less than the basic point.
  obtain ⟨y, yAgrees, solves, admits⟩ := wellFormed.exists_solves feasible
  rw [← value, ← ready.cost_of_ends wellFormed ends yAgrees solves (eq_zero_of_admits admits)]
  exact ends.proper.value_le_cost (ends.optimal halt) admits

end SecondPhase

/-- From a ready tableau the second phase answers the program. -/
theorem Ready.answers_secondPhase {tableau : Tableau} (ready : program.Ready tableau)
    (wellFormed : program.WellFormed) :
    program.Answers (program.secondPhase program.columns tableau).1 := by
  -- Every way in which the pivoting can end is an answer, and there is fuel enough.
  have proper := ready.proper_price
  have ends := proper.optimize (· < program.columns.real) (pivotFuel program.columns)
  simp only [secondPhase]
  split
  · rename_i halt
    exact absurd halt (optimize_halt_ne_unfinished proper (Nat.le_succ _))
  · rename_i halt
    exact .unbounded rfl (ready.exists_below wellFormed ends halt)
  · rename_i halt
    exact .optimal rfl (ready.optimum_of_ends wellFormed ends halt rfl rfl)

section FirstPhase

variable {y : Nat → Rat}

/-- The first phase has a cost for each column. -/
theorem length_artificialCosts (columns : Columns) :
    (artificialCosts columns).length = columns.width := by
  simp [artificialCosts, Columns.width]

/-- The costs of the first phase add up the artificial columns. -/
theorem combine_artificialCosts (columns : Columns) (y : Nat → Rat) :
    combine (artificialCosts columns) y =
      ∑ number ∈ Finset.range columns.artificials, y (columns.real + number) := by
  rw [artificialCosts, combine_append, combine_replicate_zero, zero_add, combine_replicate_one,
    List.length_replicate]

/-- Without negative columns the first phase never comes below zero. -/
theorem combine_artificialCosts_nonneg {columns : Columns}
    (nonneg : ∀ column < columns.width, 0 ≤ y column) :
    0 ≤ combine (artificialCosts columns) y := by
  rw [combine_artificialCosts]
  -- Each artificial column is one of the columns, which are all nonnegative.
  refine Finset.sum_nonneg fun number member => nonneg _ ?_
  have within := Finset.mem_range.mp member
  simp only [Columns.width]
  omega

/-- Artificial columns that cost nothing are zero. -/
theorem eq_zero_of_combine_artificialCosts {columns : Columns}
    (nonneg : ∀ column < columns.width, 0 ≤ y column)
    (free : combine (artificialCosts columns) y ≤ 0) {column : Nat}
    (within : column < columns.width) (high : columns.real ≤ column) : y column = 0 := by
  -- Numbers that are not negative add up to zero only if all of them are zero.
  have each : ∀ number ∈ Finset.range columns.artificials, 0 ≤ y (columns.real + number) := by
    intro number member
    have below := Finset.mem_range.mp member
    refine nonneg _ ?_
    simp only [Columns.width]
    omega
  rw [combine_artificialCosts] at free
  have zero := (Finset.sum_eq_zero_iff_of_nonneg each).mp
    (le_antisymm free (Finset.sum_nonneg each)) (column - columns.real) (by
      simp only [Columns.width] at within
      simp only [Finset.mem_range]
      omega)
  rwa [Nat.add_sub_cancel' high] at zero

/-- Without artificial columns the starting tableau is ready. -/
theorem ready_startingTableau (none_ : program.columns.artificials = 0) :
    program.Ready program.startingTableau where
  canonical := canonical_startingTableau program
  feasible := feasible_startingTableau program
  real row member := by
    -- Without artificial columns all columns are real ones.
    have within := (canonical_startingTableau program).within row member
    rwa [Columns.width, none_, Nat.add_zero] at within
  same _ _ := Iff.rfl

/-- The tableau that the first phase starts from has the artificial columns for its cost. -/
theorem proper_artificialCosts (program : LinearProgram) :
    (program.startingTableau.price (artificialCosts program.columns)).Proper
      program.columns.width where
  canonical := (canonical_startingTableau program).price _
  feasible row member := feasible_startingTableau program row (rows_price _ _ ▸ member)
  priced := (canonical_startingTableau program).priced_price (length_artificialCosts _)

/-- The first phase ends properly from the starting tableau, priced with the artificial columns. -/
theorem ends_firstPhase (program : LinearProgram) :
    Ends program.columns.width (fun _ => true)
      (program.startingTableau.price (artificialCosts program.columns))
      (firstPhase program.columns program.startingTableau) :=
  (proper_artificialCosts program).optimize _ _

/-- The first phase loses no solution and finds no new one. -/
theorem solves_firstPhase :
    (firstPhase program.columns program.startingTableau).tableau.Solves y ↔
      program.startingTableau.Solves y := by
  rw [(ends_firstPhase program).same.solves y]
  simp only [Solves, rows_price]

/-- A solution costs in the end what its artificial columns add up to. -/
theorem cost_firstPhase (solves : program.startingTableau.Solves y) :
    (firstPhase program.columns program.startingTableau).tableau.cost y =
      combine (artificialCosts program.columns) y := by
  -- Pricing changes no row, so the point solves the priced tableau too.
  have solvesPriced :
      (program.startingTableau.price (artificialCosts program.columns)).Solves y := by
    simpa only [Solves, rows_price] using solves
  rw [(ends_firstPhase program).same.cost y solvesPriced,
    (canonical_startingTableau program).cost_price (length_artificialCosts _) solves]

/-- The first phase ends with an optimum, since its cost cannot fall below zero. -/
theorem halt_firstPhase (program : LinearProgram) :
    (firstPhase program.columns program.startingTableau).halt = .optimal := by
  -- The pivoting ends in time, and the cost of the first phase is never negative.
  have ends := ends_firstPhase program
  cases halt : (firstPhase program.columns program.startingTableau).halt with
  | optimal => rfl
  | unfinished =>
    exact absurd halt
      (optimize_halt_ne_unfinished (proper_artificialCosts program) (Nat.le_succ _))
  | unbounded =>
    obtain ⟨column, entering, leaving⟩ := ends.unbounded halt
    obtain ⟨y, solves, admits, negative⟩ :=
      ends.proper.exists_cost_lt (fun _ _ => rfl) entering leaving 0
    rw [cost_firstPhase (solves_firstPhase.mp solves)] at negative
    exact absurd (combine_artificialCosts_nonneg admits.nonneg) (not_le.mpr negative)

/-- An optimum of zero leaves a tableau from which all artificial columns can be evicted. -/
theorem evictable_firstPhase
    (small : (firstPhase program.columns program.startingTableau).tableau.value ≤ 0) :
    (firstPhase program.columns program.startingTableau).tableau.Evictable
      program.columns.width program.columns.real := by
  have proper := (ends_firstPhase program).proper
  have free := cost_firstPhase (solves_firstPhase.mp proper.canonical.solves_columnValue)
  rw [proper.priced.cost_columnValue] at free
  -- Artificial columns that cost nothing together are all zero.
  refine ⟨proper.canonical, proper.feasible, fun row member high => ?_⟩
  rw [← proper.canonical.columnValue_basic member]
  exact eq_zero_of_combine_artificialCosts
    (fun column _ => proper.canonical.columnValue_nonneg proper.feasible column)
    (free.symm.trans_le small) (proper.canonical.within row member) high

/-- After an optimum of zero the second phase can start once all artificial columns are evicted. -/
theorem ready_firstPhase
    (small : (firstPhase program.columns program.startingTableau).tableau.value ≤ 0) :
    program.Ready ((firstPhase program.columns program.startingTableau).tableau.evict
      program.columns.real) := by
  -- Eviction keeps the solutions in which the artificial columns are zero.
  obtain ⟨evicted, same, real⟩ := (evictable_firstPhase small).evict
  exact ⟨evicted.canonical, evicted.feasible, real, fun y zero =>
    (same y zero).trans solves_firstPhase⟩

/-- An optimum above zero means that nothing is feasible. -/
theorem WellFormed.not_feasible_of_firstPhase (wellFormed : program.WellFormed)
    (positive : 0 < (firstPhase program.columns program.startingTableau).tableau.value)
    (x : String → Rat) : ¬program.Feasible x := by
  intro feasible
  obtain ⟨y, _, solves, admits⟩ := wellFormed.exists_solves feasible
  have ends := ends_firstPhase program
  have least := ends.proper.value_le_cost (ends.optimal (halt_firstPhase program))
    (⟨admits.nonneg, by simp⟩ : Admits program.columns.width (fun _ => true) y)
  -- The columns of a feasible point cost nothing, since no artificial one is among them.
  rw [cost_firstPhase solves, combine_artificialCosts, Finset.sum_eq_zero] at least
  · exact absurd least (not_le.mpr positive)
  · intro number member
    have within := Finset.mem_range.mp member
    refine admits.zero _ ?_ (by simp)
    simp only [Columns.width]
    omega

end FirstPhase

/-- The tableau from which the second phase starts, unless nothing is feasible. -/
def secondStart? (program : LinearProgram) : Option Tableau :=
  let start := program.startingTableau
  let reached := (firstPhase program.columns start).tableau
  if program.columns.artificials = 0 then some start
  else if reached.value ≤ 0 then some (reached.evict program.columns.real)
  else none

/-- Solving is the second phase, where there is a tableau for it to start from. -/
theorem solve_eq (program : LinearProgram) :
    program.solve = match program.secondStart? with
      | some start => (program.secondPhase program.columns start).1
      | none => withoutValues .infeasible
          (firstPhase program.columns program.startingTableau).tableau := by
  simp only [solve, narratedSolution, secondStart?]
  -- Without artificial columns there is no first phase; otherwise it ends with an optimum.
  by_cases none_ : program.columns.artificials = 0
  · simp only [if_pos none_]
  · simp only [if_neg none_, halt_firstPhase, decide_true, Bool.true_and, decide_eq_true_eq]
    by_cases small : (firstPhase program.columns program.startingTableau).tableau.value ≤ 0
    · simp only [if_pos small]
    · simp only [if_neg small]

/-- The second phase starts from a ready tableau. -/
theorem ready_of_secondStart? {start : Tableau} (found : program.secondStart? = some start) :
    program.Ready start := by
  -- Either no artificial column was needed, or the first phase has made all of them zero.
  simp only [secondStart?] at found
  split at found
  · rename_i none_
    cases found
    exact ready_startingTableau none_
  · split at found
    · rename_i small
      cases found
      exact ready_firstPhase small
    · cases found

/-- Without a tableau to start from nothing is feasible. -/
theorem WellFormed.not_feasible_of_secondStart? (wellFormed : program.WellFormed)
    (nothing : program.secondStart? = none) (x : String → Rat) : ¬program.Feasible x := by
  -- The one case that is left is that the first phase ended above zero.
  simp only [secondStart?] at nothing
  split at nothing
  · cases nothing
  · split at nothing
    · cases nothing
    · rename_i large
      exact wellFormed.not_feasible_of_firstPhase (not_le.mp large) x

/-- Solving a well-formed program answers it. -/
theorem WellFormed.answers_solve (wellFormed : program.WellFormed) :
    program.Answers program.solve := by
  rw [solve_eq]
  -- Either the second phase starts somewhere, or the first one has shown that it cannot.
  cases found : program.secondStart? with
  | some start => exact (ready_of_secondStart? found).answers_secondPhase wellFormed
  | none => exact .infeasible rfl (wellFormed.not_feasible_of_secondStart? found)

end LinearProgram

end CycleSchedule
