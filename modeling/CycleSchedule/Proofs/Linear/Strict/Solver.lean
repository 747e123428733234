import CycleSchedule.Proofs.Linear.Strict.Layout
import CycleSchedule.Proofs.Linear.Strict.Tableau
import CycleSchedule.Proofs.Linear.Verdict

/-! The solver with every look-up, quotient, pairing and assertion made explicit: on a well-formed
program none of them fails, and the solution is the one that solving gives. -/

namespace CycleSchedule

namespace Strict

/-- The values of variables after one basic column has been read. -/
def readBasic (unknowns : List String) (values : NameTable Rat) (basic : Nat × Rat) :
    Except Slip (NameTable Rat) :=
  -- A basic column beyond the variables is not reported.
  if basic.1 < unknowns.length then do
    let name ← item unknowns basic.1
    return values.put name basic.2
  else return values

/-- Minimises the objective from a sheet without artificial columns in its basis. -/
def secondPhase (program : LinearProgram) (columns : Columns) (artificial : List Bool)
    (sheet : Sheet) : Except Slip Solution := do
  let costs ← spread (columnTable program.unknowns) columns.width program.objective
  let priced ← price costs sheet
  -- Artificial columns must not enter again.
  let (halt, final) ← optimize (artificial.map (!·)) (LinearProgram.pivotFuel columns) priced
  match halt with
  | .unfinished => return ⟨.unfinished, [], none, final.pivots⟩
  | .unbounded => return ⟨.unbounded, [], none, final.pivots⟩
  | .optimal => do
    let basics ← pairs final.basis final.rhs
    -- A variable that is basic nowhere stays at zero.
    let zeros := NameTable.ofPairs (program.unknowns.map fun name => (name, 0))
    let values ← basics.foldlM (readBasic program.unknowns) zeros
    return ⟨.optimal, values, some final.value, final.pivots⟩

/-- Minimises the sum of the artificial columns. -/
def firstPhase (columns : Columns) (artificial : List Bool) (sheet : Sheet) :
    Except Slip (Halt × Sheet) := do
  let costs := artificial.map fun isArtificial => if isArtificial then 1 else 0
  let priced ← price costs sheet
  optimize (List.replicate columns.width true) (LinearProgram.pivotFuel columns) priced

/-- The columns of a program and the sheet to start from. -/
def layOut (program : LinearProgram) : Except Slip (Columns × Sheet) := do
  let unknowns := program.unknowns.length
  let entries ← entries (columnTable program.unknowns) unknowns unknowns program.constraints
  -- The columns can only be counted once all entries are there.
  let columns : Columns :=
    { decisions := unknowns
      slacks := program.constraints.countP (·.relation ≠ .equal)
      artificials := entries.countP (!·.slackIsBasic) }
  let both ← pairs entries program.constraints
  let rows ← layAll (columns.width - unknowns) columns.real (both.map (·.1))
  return (columns, ⟨rows.map (·.1), rows.map (·.2.1), rows.map (·.2.2), [], 0, 0⟩)

/-- The least value of the objective and where it is taken. -/
def solve (program : LinearProgram) : Except Slip Solution := do
  let (columns, start) ← layOut program
  -- Which columns are artificial is kept as one mark for each column.
  let artificial := marks columns.width fun column => columns.real ≤ column
  if columns.artificials = 0 then secondPhase program columns artificial start
  else do
    let (halt, reached) ← firstPhase columns artificial start
    match halt with
    | .unfinished => return ⟨.unfinished, [], none, reached.pivots⟩
    -- Anything but an optimum of zero means that no point is feasible.
    | halt =>
      if halt = .optimal && reached.value ≤ 0 then do
        let evicted ← evictFrom artificial reached.basis.length 0 reached
        secondPhase program columns artificial evicted
      else return ⟨.infeasible, [], none, reached.pivots⟩

open Tableau LinearProgram

variable {program : LinearProgram} {width : Nat} {tableau : Tableau}

/-- The variables with the values of the columns at their places. -/
def valuesOf (unknowns : List String) (value : Nat → Rat) : NameTable Rat :=
  unknowns.zipIdx.map fun entry => (entry.1, value entry.2)

/-- The reported values are named as the variables are, in their order. -/
@[simp] theorem names_valuesOf (unknowns : List String) (value : Nat → Rat) :
    (valuesOf unknowns value).names = unknowns := by
  rw [valuesOf, NameTable.names, List.map_map]
  exact List.zipIdx_map_fst 0 unknowns

section Values

variable {unknowns : List String} (distinct : unknowns.Nodup)

include distinct

/-- A variable's reported value is the value at its place. -/
theorem get?_valuesOf {name : String} {place : Nat} (located : unknowns[place]? = some name)
    (value : Nat → Rat) : (valuesOf unknowns value).get? name = some (value place) := by
  refine NameTable.get?_of_mem (by rwa [names_valuesOf]) ?_
  exact List.mem_map.mpr ⟨(name, place), List.mem_zipIdx_iff_getElem?.mpr located, rfl⟩

/-- Putting a number under a variable changes the value of the column at its place. -/
theorem put_valuesOf {name : String} {place : Nat} (located : unknowns[place]? = some name)
    (value : Nat → Rat) (number : Rat) :
    (valuesOf unknowns value).put name number =
      valuesOf unknowns (Function.update value place number) := by
  -- The value replaces that of a known name, so the names stay.
  have names : ((valuesOf unknowns value).put name number).names = unknowns := by
    rw [NameTable.names_put_of_mem, names_valuesOf]
    rw [names_valuesOf]
    exact List.mem_of_getElem? located
  refine NameTable.ext_get? (by rw [names, names_valuesOf]) (by rwa [names]) fun other => ?_
  rw [NameTable.get?_put]
  by_cases same : name = other
  · subst same
    rw [if_pos rfl, get?_valuesOf distinct located, Function.update_self]
  rw [if_neg same]
  by_cases known : other ∈ unknowns
  · -- Another variable stands at another place.
    obtain ⟨at_, found⟩ := List.mem_iff_getElem?.mp known
    have elsewhere : at_ ≠ place := by
      rintro rfl
      exact same (Option.some.inj (located.symm.trans found))
    rw [get?_valuesOf distinct found, get?_valuesOf distinct found,
      Function.update_of_ne elsewhere]
  · rw [NameTable.get?_eq_none_iff.mpr (by rwa [names_valuesOf]),
      NameTable.get?_eq_none_iff.mpr (by rwa [names_valuesOf])]

/-- A basic column is read without a slip, whether it is that of a variable or not. -/
theorem readBasic_ok (value : Nat → Rat) (basic : Nat) (rhs : Rat) :
    readBasic unknowns (valuesOf unknowns value) (basic, rhs) =
      .ok (valuesOf unknowns (Function.update value basic rhs)) := by
  unfold readBasic
  split
  · rename_i within
    have located := List.getElem?_eq_getElem within
    rw [item_of_getElem? located, ok_bind, put_valuesOf distinct located]
    rfl
  · rename_i beyond
    -- No variable has a column there.
    refine congrArg Except.ok (List.map_congr_left fun entry member => ?_)
    have within := (List.getElem?_eq_some_iff.mp (List.mem_zipIdx_iff_getElem?.mp member)).1
    rw [Function.update_of_ne (by omega)]

end Values

/-- Rows with basic columns of their own give each of these columns its right-hand side. -/
theorem foldl_update_eq {rows : List Row} (distinct : (rows.map (·.basic)).Nodup)
    (start : Nat → Rat) (column : Nat) :
    rows.foldl (fun value row => Function.update value row.basic row.rhs) start column =
      ((rows.find? (·.basic = column)).map (·.rhs)).getD (start column) := by
  -- By induction on the rows: no later row is solved for the column of the first one.
  induction rows generalizing start with
  | nil => rfl
  | cons row rows ih =>
    rw [List.map_cons, List.nodup_cons] at distinct
    rw [List.foldl_cons, ih distinct.2]
    by_cases here : row.basic = column
    · -- The row itself is solved for the column, so no later one is.
      have absent : rows.find? (·.basic = column) = none := by
        refine List.find?_eq_none.mpr fun other member => ?_
        have different : other.basic ≠ column := fun same =>
          distinct.1 (List.mem_map.mpr ⟨other, member, same.trans here.symm⟩)
        simpa using different
      rw [absent, List.find?_cons_of_pos (by simpa using here)]
      simp [here]
    · rw [List.find?_cons_of_neg (by simpa using here),
        Function.update_of_ne (fun same => here same.symm)]

/-- The values of a program are read from its final sheet without a slip. -/
theorem readBasics_ok (wellFormed : program.WellFormed) (canonical : tableau.Canonical width) :
    (tableau.rows.map fun row => (row.basic, row.rhs)).foldlM (readBasic program.unknowns)
        (NameTable.ofPairs (program.unknowns.map fun name => (name, 0))) =
      .ok (valuesOf program.unknowns tableau.columnValue) := by
  -- Before the first row is read all variables are zero.
  have zeros : NameTable.ofPairs (program.unknowns.map fun name => (name, (0 : Rat))) =
      valuesOf program.unknowns fun _ => 0 := by
    rw [NameTable.ofPairs_of_nodup (by simpa [Function.comp_def] using wellFormed.distinct),
      valuesOf, ← List.zipIdx_map_fst 0 program.unknowns, List.map_map]
    simp
  -- Reading the rows one by one gives every column the value that the tableau gives it.
  have columns : tableau.rows.foldl
      (fun value row => Function.update value row.basic row.rhs) (fun _ => 0) =
        tableau.columnValue :=
    funext fun column => foldl_update_eq canonical.distinct _ column
  rw [zeros, List.foldlM_map, ← columns]
  exact foldlM_ok (valuesOf program.unknowns) (fun _ => True) _ trivial
    fun row _ value _ => ⟨readBasic_ok wellFormed.distinct value row.basic row.rhs, trivial⟩

/-- Behind the variables come the slack and the artificial columns. -/
theorem width_sub_unknowns : program.columns.width - program.unknowns.length =
    program.columns.slacks + program.columns.artificials := by
  have decisions : program.columns.decisions = program.unknowns.length := rfl
  simp only [Columns.width, Columns.real, decisions]
  omega

/-- The second phase makes no slip on a tableau without artificial columns in its basis. -/
theorem secondPhase_ok (wellFormed : program.WellFormed) (ready : program.Ready tableau) :
    secondPhase program program.columns
        (marks program.columns.width fun column => program.columns.real ≤ column) tableau.sheet =
      .ok (program.secondPhase program.columns tableau).1 := by
  -- The objective costs as much in both, and the same columns may enter.
  have costs : spread (columnTable program.unknowns) program.columns.width program.objective =
      .ok (program.objectiveCosts program.columns) := by
    rw [spread_ok wellFormed.distinct wellFormed.objective length_unknowns_le, width_sub_unknowns]
    rfl
  have allowed : (marks program.columns.width fun column => program.columns.real ≤ column).map
      (!·) = marks program.columns.width (· < program.columns.real) := by
    simp [marks, Function.comp_def, ← decide_not]
  have proper := ready.proper_price
  have ends := proper.optimize (· < program.columns.real) (pivotFuel program.columns)
  rw [secondPhase, costs, ok_bind, price_ok ready.canonical length_objectiveCosts, ok_bind,
    allowed, optimize_ok _ _ _ proper, ok_bind, LinearProgram.secondPhase]
  generalize (tableau.price (program.objectiveCosts program.columns)).optimize
    (· < program.columns.real) (pivotFuel program.columns) = result at ends ⊢
  -- Either there are no values, or they are read from the basic columns.
  have both : pairs result.tableau.sheet.basis result.tableau.sheet.rhs =
      .ok (result.tableau.rows.map fun row => (row.basic, row.rhs)) := by
    rw [pairs_ok (by simp [Tableau.sheet]), Tableau.sheet, List.zip_map']
  cases halt : result.halt with
  | unfinished => rfl
  | unbounded => rfl
  | optimal =>
    simp only [both, ok_bind, readBasics_ok wellFormed ends.proper.canonical]
    rfl

/-- The rows to start from are laid out without a slip. -/
theorem layOut_ok (wellFormed : program.WellFormed) :
    layOut program = .ok (program.columns, program.startingTableau.sheet) := by
  have listed : entries (columnTable program.unknowns) program.unknowns.length
      program.unknowns.length program.constraints =
        .ok (entriesOf program.unknowns.length program.equations) :=
    entries_ok wellFormed.distinct _ _ wellFormed.known
  have columns_ : ({ decisions := program.unknowns.length
                     slacks := program.constraints.countP (·.relation ≠ .equal)
                     artificials := (entriesOf program.unknowns.length
                       program.equations).countP (!·.slackIsBasic) } : Columns) =
      program.columns := by
    -- Slacks are counted by the relations, and artificial columns by the equations.
    simp only [LinearProgram.columns, Columns.ofEquations, countP_entriesOf, Columns.mk.injEq,
      true_and, and_true]
    rw [equations, List.countP_map]
    refine List.countP_congr fun constraint _ => ?_
    simp [equation_slack_eq_zero_iff]
  -- Every constraint has one equation, so they can be paired.
  have both : pairs (entriesOf program.unknowns.length program.equations) program.constraints =
      .ok ((entriesOf program.unknowns.length program.equations).zip program.constraints) :=
    pairs_ok (by simp [equations])
  have firsts : ((entriesOf program.unknowns.length program.equations).zip
      program.constraints).map (·.1) = entriesOf program.unknowns.length program.equations :=
    List.map_fst_zip (by simp [equations])
  -- There are as many slack and artificial columns as the equations take.
  have rows : layAll (program.columns.slacks + program.columns.artificials) program.columns.real
      (entriesOf program.unknowns.length program.equations) =
        .ok (program.startingTableau.rows.map fun row =>
          (row.coefficients, row.rhs, row.basic)) :=
    layAll_ok program.equations 0 0
      (fun equation member => by
        obtain ⟨constraint, -, rfl⟩ := List.mem_map.mp member
        exact ⟨Constraint.length_equation, signed_equation⟩)
      (Nat.zero_add _).le (Nat.zero_add _).le
  simp only [layOut, listed, ok_bind, columns_, both, firsts, width_sub_unknowns, rows,
    List.map_map]
  rfl

/-- The first phase makes no slip. -/
theorem firstPhase_ok (program : LinearProgram) :
    firstPhase program.columns
        (marks program.columns.width fun column => program.columns.real ≤ column)
        program.startingTableau.sheet =
      .ok ((LinearProgram.firstPhase program.columns program.startingTableau).halt,
        (LinearProgram.firstPhase program.columns program.startingTableau).tableau.sheet) := by
  have costs : (marks program.columns.width fun column => program.columns.real ≤ column).map
      (fun isArtificial => if isArtificial then 1 else 0) = artificialCosts program.columns := by
    -- The artificial columns come last.
    rw [marks, List.map_map, Columns.width, List.range_add, List.map_append, List.map_map]
    refine congrArg₂ _ (List.eq_replicate_iff.mpr ⟨by simp, fun cost member => ?_⟩)
      (List.eq_replicate_iff.mpr ⟨by simp, fun cost member => ?_⟩)
    · obtain ⟨column, low, rfl⟩ := List.mem_map.mp member
      simp [List.mem_range.mp low]
    · obtain ⟨number, -, rfl⟩ := List.mem_map.mp member
      simp
  -- In the first phase every column may enter.
  have everything : List.replicate program.columns.width true =
      marks program.columns.width fun _ => true := by
    simp [marks, List.map_const']
  rw [firstPhase, costs, price_ok (canonical_startingTableau program) (length_artificialCosts _),
    ok_bind, everything, optimize_ok _ _ _ (proper_artificialCosts program)]
  rfl

/-- After an optimum of zero all artificial columns are evicted without a slip. -/
theorem evict_ok
    (small : (LinearProgram.firstPhase program.columns
      program.startingTableau).tableau.value ≤ 0) :
    let reached := (LinearProgram.firstPhase program.columns program.startingTableau).tableau
    evictFrom (marks program.columns.width fun column => program.columns.real ≤ column)
        reached.sheet.basis.length 0 reached.sheet =
      .ok (reached.evict program.columns.real).sheet := by
  intro reached
  have length : reached.sheet.basis.length = reached.rows.length := by simp [Tableau.sheet]
  -- The fuel is the number of rows, which is what the refinement asks for.
  rw [length]
  exact evictFrom_ok _ 0 reached (evictable_firstPhase small)
    (ends_firstPhase program).proper.priced.sized

/-- A well-formed program is solved without a slip. -/
theorem solve_ok (wellFormed : program.WellFormed) : solve program = .ok program.solve := by
  rw [solve, layOut_ok wellFormed, ok_bind, LinearProgram.solve, narratedSolution]
  -- Without artificial columns there is no first phase; otherwise it ends with an optimum.
  by_cases none_ : program.columns.artificials = 0
  · simp only [if_pos none_, secondPhase_ok wellFormed (ready_startingTableau none_)]
  · simp only [if_neg none_, firstPhase_ok, ok_bind, halt_firstPhase, decide_true, Bool.true_and,
      decide_eq_true_eq]
    have value : (LinearProgram.firstPhase program.columns
        program.startingTableau).tableau.sheet.value =
      (LinearProgram.firstPhase program.columns program.startingTableau).tableau.value := rfl
    rw [value]
    split
    · rename_i small
      simp only [evict_ok small, ok_bind, secondPhase_ok wellFormed (ready_firstPhase small)]
    · rfl

end Strict

end CycleSchedule
