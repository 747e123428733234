import CycleSchedule.Proofs.Journal.Logged

/-! Solving linear programs with a journal at hand: what is written is what the solution tells. -/

namespace CycleSchedule

namespace Logged

open LinearProgram

/-- Pivots until nothing improves, or nothing bounds the improvement, or the fuel is used up. -/
def optimize (allowed : Nat → Bool) : Nat → Tableau → Logged (Halt × Tableau)
  | 0, tableau => return (.unfinished, tableau)
  | fuel + 1, tableau =>
    match tableau.enteringColumn allowed with
    | none => return (.optimal, tableau)
    | some column =>
      match tableau.leavingRow column with
      | none => return (.unbounded, tableau)
      | some index => do
        -- The message is only put together for those who read it.
        whenEnabled .debug (emit (.pivoting tableau.pivots column (tableau.basicOf index)
          tableau.value))
        optimize allowed fuel (tableau.pivot index column)

/-- Minimises the objective from a tableau without artificial columns in its basis. -/
def secondPhase (program : LinearProgram) (columns : Columns) (tableau : Tableau) :
    Logged Solution := do
  -- The pivots write their own messages while they are made.
  let (halt, final) ← optimize (· < columns.real) (pivotFuel columns)
    (tableau.price (program.objectiveCosts columns))
  match halt with
  | .unfinished => return withoutValues .unfinished final
  | .unbounded => do
    emit .foundUnbounded
    return withoutValues .unbounded final
  | .optimal => do
    let values := program.unknowns.zipIdx.map fun entry => (entry.1, final.columnValue entry.2)
    emit (.foundOptimal final.value final.pivots)
    return ⟨.optimal, values, some final.value, final.pivots⟩

/-- The least value of the objective and where it is taken. -/
def solve (program : LinearProgram) : Logged Solution := do
  let columns := program.columns
  let start := program.startingTableau
  -- The size is told of before the first pivot.
  emit (.tableauBuilt columns.decisions start.rows.length columns.artificials)
  if columns.artificials = 0 then secondPhase program columns start
  else do
    let (halt, reached) ← optimize (fun _ => true) (pivotFuel columns)
      (start.price (artificialCosts columns))
    match halt with
    | .unfinished => return withoutValues .unfinished reached
    | halt =>
      if halt = .optimal && reached.value ≤ 0 then
        secondPhase program columns (reached.evict columns.real)
      else do
        emit (.foundInfeasible reached.value)
        return withoutValues .infeasible reached

/-- The loop that journals each pivot at once records what the narrated loop tells. -/
theorem records_optimize (allowed : Nat → Bool) : ∀ fuel (tableau : Tableau),
    Records (optimize allowed fuel tableau)
      ⟨(tableau.optimize allowed fuel).events,
        .ok ((tableau.optimize allowed fuel).halt, (tableau.optimize allowed fuel).tableau)⟩ := by
  -- The induction is on the fuel; every pivot adds one message to those of the rest.
  intro fuel
  induction fuel with
  | zero =>
    intro tableau
    exact records_pure _
  | succ fuel ih =>
    intro tableau
    unfold optimize Tableau.optimize
    cases entering : tableau.enteringColumn allowed with
    | none => exact records_pure _
    | some column =>
      dsimp only
      cases leaving : tableau.leavingRow column with
      | none => exact records_pure _
      | some index =>
        have message : Records (whenEnabled .debug (emit (.pivoting tableau.pivots column
            (tableau.basicOf index) tableau.value))) _ :=
          records_whenEnabled (by simp [Event.isGuarded, Event.level?]) fun journal composed =>
            emit_eq (composed _ (by simp))
        exact message.after (ih (tableau.pivot index column))

variable (program : LinearProgram) (columns : Columns) (tableau : Tableau)

/-- Each way to end the second phase has a message of its own, or none. -/
theorem records_secondPhase :
    Records (secondPhase program columns tableau)
      ⟨(program.secondPhase columns tableau).2, .ok (program.secondPhase columns tableau).1⟩ := by
  -- However the pivots halt, what they write comes first and one more message may follow.
  have optimized := records_optimize (· < columns.real) (pivotFuel columns)
    (tableau.price (program.objectiveCosts columns))
  unfold secondPhase LinearProgram.secondPhase
  dsimp only
  cases halt : ((tableau.price (program.objectiveCosts columns)).optimize (· < columns.real)
    (pivotFuel columns)).halt with
  | unfinished =>
    rw [halt] at optimized
    exact optimized.last (records_pure _)
  | unbounded =>
    rw [halt] at optimized
    refine optimized.after ?_
    exact (records_emit rfl).last (records_pure _)
  | optimal =>
    rw [halt] at optimized
    refine optimized.after ?_
    exact (records_emit rfl).last (records_pure _)

/-- Solving records what it tells. -/
theorem records_solve : Records (solve program) program.narratedSolve := by
  -- The pivots of the first phase write the same messages in both.
  have optimized := records_optimize (fun _ => true) (pivotFuel program.columns)
    (program.startingTableau.price (artificialCosts program.columns))
  unfold solve narratedSolve LinearProgram.solve narratedSolution firstPhase
  dsimp only
  by_cases feasible : program.columns.artificials = 0
  · -- Without artificial columns there is one phase only.
    rw [if_pos feasible, if_pos feasible]
    refine (records_emit rfl).after ?_
    exact records_secondPhase program _ _
  · rw [if_neg feasible, if_neg feasible]
    generalize ((program.startingTableau.price (artificialCosts program.columns)).optimize
      (fun _ => true) (pivotFuel program.columns)) = first at *
    obtain ⟨halt, reached, events⟩ := first
    -- The pivots of the first phase come before whatever its end leads to.
    cases halt with
    | unfinished =>
      refine (records_emit rfl).after ?_
      exact optimized.last (records_pure _)
    | unbounded =>
      refine (records_emit rfl).after ?_
      refine optimized.after ?_
      exact (records_emit rfl).last (records_pure _)
    | optimal =>
      by_cases zero : reached.value ≤ 0
      · simp only [zero, decide_true, Bool.and_self, if_true]
        refine (records_emit rfl).after ?_
        refine optimized.after ?_
        simp only [zero, decide_true, Bool.and_self, if_true]
        exact records_secondPhase program _ _
      · simp only [zero, decide_true, decide_false, Bool.and_false, Bool.false_eq_true, if_false]
        refine (records_emit rfl).after ?_
        refine optimized.after ?_
        simp only [zero, decide_true, decide_false, Bool.and_false, Bool.false_eq_true, if_false]
        exact (records_emit rfl).last (records_pure _)

end Logged

end CycleSchedule
