import CycleSchedule.Journal.Narrated
import CycleSchedule.Linear.Program
import CycleSchedule.Linear.Tableau

/-! Solving linear programs exactly, in two phases, by pivots that cannot run in a circle. -/

namespace CycleSchedule

/-- What is known of a program after solving it. -/
inductive Status where
  | optimal
  | infeasible
  | unbounded
  | unfinished
deriving DecidableEq, Repr

/-- The name of a status. -/
def Status.name : Status → String
  | optimal => "optimal"
  | infeasible => "infeasible"
  | unbounded => "unbounded"
  | unfinished => "unfinished"

/-- The result of solving a program; values and objective are given for an optimum only. -/
structure Solution where
  status : Status
  values : NameTable Rat
  objective : Option Rat
  iterations : Nat
deriving DecidableEq, Repr

/-- A constraint as an equation with a right-hand side that is not negative, before it is given
columns; the slack, if there is one, has the coefficient `slack`. -/
structure Equation where
  decision : List Rat
  rhs : Rat
  slack : Rat
deriving DecidableEq, Repr

/-- The coefficient of the slack that turns a relation into an equation. -/
def Relation.slack : Relation → Rat
  | atLeast => -1
  | atMost => 1
  | equal => 0

/-- A constraint over the variables of a program. A right-hand side of zero is negated too where
that makes the coefficient of the slack positive. -/
def Constraint.equation (unknowns : List String) (constraint : Constraint) : Equation :=
  let decision := unknowns.map constraint.form.coefficient
  let slack := constraint.relation.slack
  -- Negating both sides keeps the equation; a slack of coefficient one can then be basic.
  if constraint.bound < 0 || (constraint.bound = 0 && slack = -1) then
    ⟨decision.map (-·), -constraint.bound, -slack⟩
  else ⟨decision, constraint.bound, slack⟩

/-- Zeros, but for one place. -/
def unitList (length place : Nat) (value : Rat) : List Rat :=
  (List.range length).map fun i => if i = place then value else 0

/-- How many columns there are of each sort; they come in this order. -/
structure Columns where
  decisions : Nat
  slacks : Nat
  artificials : Nat
deriving DecidableEq, Repr

namespace Columns

/-- The number of columns that stand for something in the program. -/
def real (columns : Columns) : Nat := columns.decisions + columns.slacks

/-- The number of all columns. -/
def width (columns : Columns) : Nat := columns.real + columns.artificials

end Columns

/-- Whether the slack of an equation can be basic, so that no artificial column is needed. -/
def Equation.slackIsBasic (equation : Equation) : Bool := equation.slack = 1

/-- The columns that equations need. -/
def Columns.ofEquations (decisions : Nat) (equations : List Equation) : Columns :=
  { decisions
    slacks := equations.countP (·.slack ≠ 0)
    artificials := equations.countP (!·.slackIsBasic) }

/-- The row of an equation, given the places of its slack and artificial columns. -/
def Equation.row (columns : Columns) (slack artificial : Nat) (equation : Equation) : Row :=
  let slacks := unitList columns.slacks slack equation.slack
  -- An equation with a basic slack leaves the artificial columns alone.
  if equation.slackIsBasic then
    ⟨equation.decision ++ slacks ++ List.replicate columns.artificials 0, equation.rhs,
      columns.decisions + slack⟩
  else
    ⟨equation.decision ++ slacks ++ unitList columns.artificials artificial 1, equation.rhs,
      columns.real + artificial⟩

/-- The rows of equations; slack and artificial columns are handed out in order. -/
def layRows (columns : Columns) : Nat → Nat → List Equation → List Row
  | _, _, [] => []
  | slack, artificial, equation :: equations =>
    -- A counter only moves on where the equation has taken a column of its sort.
    equation.row columns slack artificial ::
      layRows columns (if equation.slack = 0 then slack else slack + 1)
        (if equation.slackIsBasic then artificial else artificial + 1) equations

namespace LinearProgram

/-- The constraints of a program as equations. -/
def equations (program : LinearProgram) : List Equation :=
  program.constraints.map (·.equation program.unknowns)

/-- The columns of the tableau of a program. -/
def columns (program : LinearProgram) : Columns :=
  .ofEquations program.unknowns.length program.equations

/-- The tableau whose basic columns are slacks where possible and artificial ones elsewhere. -/
def startingTableau (program : LinearProgram) : Tableau :=
  ⟨layRows program.columns 0 0 program.equations, [], 0, 0⟩

/-- The costs that add up the artificial columns. -/
def artificialCosts (columns : Columns) : List Rat :=
  List.replicate columns.real 0 ++ List.replicate columns.artificials 1

/-- The costs of the objective. -/
def objectiveCosts (program : LinearProgram) (columns : Columns) : List Rat :=
  -- The slack and artificial columns have no costs of their own.
  program.unknowns.map program.objective.coefficient ++
    List.replicate (columns.slacks + columns.artificials) 0

/-- More pivots than there are sets of columns to be basic. -/
def pivotFuel (columns : Columns) : Nat := Nat.pow 2 columns.width + 1

/-- The result of a program that has no values to give. -/
def withoutValues (status : Status) (tableau : Tableau) : Solution :=
  ⟨status, [], none, tableau.pivots⟩

/-- Minimises the objective from a tableau without artificial columns in its basis. -/
def secondPhase (program : LinearProgram) (columns : Columns) (tableau : Tableau) :
    Solution × List Event :=
  let priced := tableau.price (program.objectiveCosts columns)
  -- Artificial columns are zero for good and must not enter again.
  let optimized := priced.optimize (· < columns.real) (pivotFuel columns)
  let final := optimized.tableau
  match optimized.halt with
  | .unfinished => (withoutValues .unfinished final, optimized.events)
  | .unbounded => (withoutValues .unbounded final, optimized.events ++ [.foundUnbounded])
  | .optimal =>
    -- The variables are the first columns, in their order.
    let values := program.unknowns.zipIdx.map fun entry => (entry.1, final.columnValue entry.2)
    (⟨.optimal, values, some final.value, final.pivots⟩,
      optimized.events ++ [.foundOptimal final.value final.pivots])

/-- Minimises the sum of the artificial columns; unless that gives zero, nothing is feasible. -/
def firstPhase (columns : Columns) (tableau : Tableau) : Tableau.Optimized :=
  (tableau.price (artificialCosts columns)).optimize (fun _ => true) (pivotFuel columns)

/-- The least value of the objective and where it is taken, with the steps that lead to it. -/
def narratedSolution (program : LinearProgram) : Solution × List Event :=
  let columns := program.columns
  let start := program.startingTableau
  let built := Event.tableauBuilt columns.decisions start.rows.length columns.artificials
  -- Without artificial columns the starting tableau is feasible already.
  if columns.artificials = 0 then
    let (solution, events) := program.secondPhase columns start
    (solution, built :: events)
  else
    let first := firstPhase columns start
    let reached := first.tableau
    match first.halt with
    | .unfinished => (withoutValues .unfinished reached, built :: first.events)
    | halt =>
      -- Where the artificial columns cannot all be zero the constraints contradict each other.
      if halt = .optimal && reached.value ≤ 0 then
        let (solution, events) := program.secondPhase columns (reached.evict columns.real)
        (solution, built :: first.events ++ events)
      else
        (withoutValues .infeasible reached,
          built :: first.events ++ [.foundInfeasible reached.value])

/-- The least value of the objective and where it is taken. -/
def solve (program : LinearProgram) : Solution := program.narratedSolution.1

/-- Solves a program and tells the steps. The last of them is told before there is a solution to
hand back. -/
def narratedSolve (program : LinearProgram) : Narrated Solution :=
  ⟨program.narratedSolution.2, .ok program.solve⟩

end LinearProgram

end CycleSchedule
