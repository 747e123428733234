import CycleSchedule.Proofs.Linear.Logged
import CycleSchedule.Scheduler.Service

/-! The schedulers with a journal at hand: what they write is what they tell. -/

namespace CycleSchedule

namespace Logged

variable {ν κ : Type}

/-- Minimises an objective over a program, which has to be bounded. -/
def solveFor (problem : Problem ν) (program : LinearProgram) (objective : LinearForm)
    (purpose : String) : Logged Solution := do
  let program ← program.minimize objective
  -- The size is told of before the program is solved.
  emit (.solving purpose program.unknowns.length program.constraints.length)
  let solution ← solve program
  if solution.status = .unbounded then fail (.unboundedProgram purpose problem.name)
  else return solution

/-- Minimises the start of the last operation and, with that start fixed, the sum of all starts. -/
def solveForLast (problem : Problem ν) (last : Option String) (minimizeSum : Bool)
    (program : LinearProgram) : Logged (Solution × Effort) := do
  match last with
  | none => fail .noLastOperation
  | some last =>
    let lastStart := startVariable last
    let solved ← solveFor problem program [(lastStart, 1)] ("start time of " ++ last)
    let first ← problem.requireOptimal solved "last operation"
    if !minimizeSum then return (first, Problem.effortOf first)
    -- The least start of the last operation is fixed for the second program.
    match first.values.get? lastStart with
    | none => fail (.missingName lastStart)
    | some least =>
      let fixed ← program.fix [(lastStart, 1)] least ("fix " ++ lastStart)
      let objective := NameTable.ofPairs
        (problem.operations.map fun operation => (startVariable operation.name, (1 : Rat)))
      let solved ← solveFor problem fixed objective "sum of start times"
      let second ← problem.requireOptimal solved "tie-break"
      return (second, (Problem.effortOf first).plus (Problem.effortOf second))

/-- Announces start times, if anyone reads them. -/
def announce (starts : NameTable Int) : Logged Unit :=
  whenEnabled .changes (emitAll (announcements starts))

/-- Solving for one objective, journalled at once, records what the narrated solving tells. -/
theorem records_solveFor (problem : Problem ν) (program : LinearProgram) (objective : LinearForm)
    (purpose : String) :
    Records (solveFor problem program objective purpose)
      (problem.solveFor program objective purpose) := by
  -- Each step is matched by its narrated twin, from the first to the last.
  unfold solveFor Problem.solveFor
  refine (records_ofExcept _).bind fun program => ?_
  refine (records_emit rfl).bind fun _ => ?_
  exact (records_solve program).bind fun solution => (records_fail _).ite (records_pure _)

/-- The same for the two programs, last start and sum of starts. -/
theorem records_solveForLast (problem : Problem ν) (last : Option String) (minimizeSum : Bool)
    (program : LinearProgram) :
    Records (solveForLast problem last minimizeSum program)
      (problem.solveForLast last minimizeSum program) := by
  unfold solveForLast Problem.solveForLast
  -- Both descriptions take the same branches, since they look at the same results.
  cases last with
  | none => exact records_fail _
  | some last =>
    refine (records_solveFor problem _ _ _).bind fun solved => ?_
    refine (records_ofExcept _).bind fun first => ?_
    refine (records_pure _).ite ?_
    cases first.values.get? (startVariable last) with
    | none => exact records_fail _
    | some least =>
      refine (records_ofExcept _).bind fun fixed => ?_
      refine (records_solveFor problem _ _ _).bind fun solved => ?_
      exact (records_ofExcept _).bind fun second => records_pure _

/-- The starts are announced in the order of the table. -/
theorem records_announce (starts : NameTable Int) :
    Records (announce starts) (Narrated.tell (announcements starts)) := by
  -- The guard asks for the level that all announcements have.
  refine records_whenEnabled (fun event member => ?_) fun journal => emitAll_eq
  obtain ⟨entry, _, rfl⟩ := List.mem_map.mp member
  exact ⟨rfl, rfl⟩

variable [Quantity ν κ]

/-- The program of a problem without distances: every dependence bounds a difference of starts,
under a label of its own. -/
def precedenceProgram (problem : Problem ν) : Logged LinearProgram := do
  let program ← problem.startVariables
  problem.dependences.foldlM (fun program dependence => do
    let latency ← problem.latencyNamed dependence.source
    -- The label is written as soon as it is put together, and that may end the building.
    let label ← dependence.text.written
    let form := LinearProgram.difference (startVariable dependence.destination)
      (startVariable dependence.source)
    program.requireVariables form label
    let bound ← Problem.exactly (Quantity.ratio latency)
    program.addConstraint form .atLeast bound label) program

/-- Putting the program together records what is told of it. -/
theorem records_precedenceProgram (problem : Problem ν) :
    Records (precedenceProgram problem) problem.narratedPrecedenceProgram := by
  unfold precedenceProgram Problem.narratedPrecedenceProgram
  refine (records_ofExcept _).bind fun program => ?_
  -- What one dependence adds is matched, and so are all of them in a row.
  refine records_foldlM (fun program dependence => ?_) _ _
  refine (records_ofExcept _).bind fun latency => ?_
  refine Records.labelled ?_
  refine (records_ofExcept _).bind fun _ => ?_
  exact (records_ofExcept _).bind fun bound => records_ofExcept _

/-- The least start times; the dependences within one iteration must not form a cycle. -/
def precedence (problem : Problem ν) (last : Option String) (minimizeSum : Bool) :
    Logged (AlgorithmResult Int) := do
  let _order ← problem.topologicalOrder
  -- Without operations nothing is told of.
  if last.isNone then return ⟨[], none, Precedence.report last .none⟩
  let program ← precedenceProgram problem
  let (solution, effort) ← solveForLast problem last minimizeSum program
  let starts ← problem.decodeStarts solution.values
  announce starts
  return ⟨starts, none, Precedence.report last effort⟩

/-- The scheduler of one iteration, journalled at once, records what its narrated run tells. -/
theorem records_precedence (problem : Problem ν) (last : Option String) (minimizeSum : Bool) :
    Records (precedence problem last minimizeSum)
      (Precedence.schedule problem last minimizeSum) := by
  unfold precedence Precedence.schedule
  -- A cycle ends both before anything is told of, and so does the lack of operations.
  refine (records_ofExcept _).bind fun _ => ?_
  refine (records_pure _).ite ?_
  refine (records_precedenceProgram problem).bind fun program => ?_
  refine (records_solveForLast problem _ _ _).bind fun (solution, effort) => ?_
  refine (records_ofExcept _).bind fun starts => ?_
  exact (records_announce starts).bind fun _ => records_pure _

variable [Measure κ]

/-- The program of a problem with distances, in which the interval is a variable too. -/
def cyclicProgram (problem : Problem ν) : Logged LinearProgram := do
  let program ← problem.startVariables
  let program ← program.addVariable intervalVariable
  let program ← program.addConstraint [(intervalVariable, 1)] .atLeast 1 "ii >= 1"
  problem.dependences.foldlM (fun program dependence => do
    let distance ← Problem.measured dependence.distance
    let latency ← problem.latencyNamed dependence.source
    -- The label shows the distance, and is written before anything else is made of it.
    let label ← dependence.text.written
    let form := Problem.cyclicForm dependence.source dependence.destination
    program.requireVariables (form 0) label
    let distance ← Problem.exactly (Measure.ratio distance)
    let bound ← Problem.exactly (Quantity.ratio latency)
    program.addConstraint (form distance) .atLeast bound label) program

/-- Putting the program with distances together records what is told of it. -/
theorem records_cyclicProgram (problem : Problem ν) :
    Records (cyclicProgram problem) problem.narratedCyclicProgram := by
  unfold cyclicProgram Problem.narratedCyclicProgram
  refine (records_ofExcept _).bind fun program => ?_
  refine (records_ofExcept _).bind fun program => ?_
  refine (records_ofExcept _).bind fun program => ?_
  -- After the interval the dependences are matched one by one.
  refine records_foldlM (fun program dependence => ?_) _ _
  refine (records_ofExcept _).bind fun distance => ?_
  refine (records_ofExcept _).bind fun latency => ?_
  refine Records.labelled ?_
  refine (records_ofExcept _).bind fun _ => ?_
  refine (records_ofExcept _).bind fun distance => ?_
  exact (records_ofExcept _).bind fun bound => records_ofExcept _

/-- Starts the nodes of a list one after the other, given the starts of all nodes before. -/
def startInOrder (graph : Graph ν) (starts : NameTable κ) : List String → Logged (NameTable κ)
  | [] => return starts
  | node :: nodes => do
    let ready ← graph.readyCycles starts node
    let start := ready.foldl Measure.later (Measure.ofInt 0)
    -- Each start is told of as soon as it is known.
    emit (.scheduled node (Measure.number start))
    startInOrder graph (starts.put node start) nodes

/-- The start times of all operations, each the earliest there is. -/
def asap (problem : Problem ν) : Logged (AlgorithmResult κ) := do
  let graph ← Graph.ofProblem problem true
  let order ← graph.topologicalOrder
  let starts ← startInOrder graph [] order
  -- The order of registration is restored once all nodes are started.
  let inPlace ← (graph.nodes.mapM fun node => do
    let start ← Problem.startOf starts node
    return (node, start) : Except Fault (List (String × κ)))
  return ⟨.ofPairs inPlace, none, .asap⟩

/-- The same for the pass that starts each node as early as it can. -/
theorem records_startInOrder (graph : Graph ν) (nodes : List String) :
    ∀ starts : NameTable κ,
      Records (startInOrder graph starts nodes) (Asap.startInOrder graph starts nodes) := by
  induction nodes with
  | nil => exact fun starts => records_pure starts
  | cons node nodes ih =>
    intro starts
    unfold startInOrder Asap.startInOrder
    -- The start of the first node is told of, and the others follow by induction.
    refine (records_ofExcept _).bind fun ready => ?_
    exact (records_emit rfl).bind fun _ => ih _

/-- The same for the scheduler of earliest starts. -/
theorem records_asap (problem : Problem ν) :
    Records (asap problem : Logged (AlgorithmResult κ)) (Asap.schedule problem) := by
  unfold asap Asap.schedule
  -- Only starting the nodes tells of anything.
  refine (records_ofExcept _).bind fun graph => ?_
  refine (records_ofExcept _).bind fun order => ?_
  refine (records_startInOrder graph order _).bind fun starts => ?_
  exact (records_ofExcept _).bind fun inPlace => records_pure _

/-- The least interval, and start times that keep to it. -/
def cyclic (problem : Problem ν) (last : Option String) (minimizeSum : Bool) :
    Logged (AlgorithmResult Int) := do
  if last.isNone then return ⟨[], some 1, Cyclic.report last .none none⟩
  let program ← cyclicProgram problem
  let bound ← solveFor problem program [(intervalVariable, 1)] "minimum initiation interval"
  if bound.status = .infeasible then
    let cause ← Cyclic.explainInfeasibility problem
    fail cause
  else
    match bound.values.get? intervalVariable with
    | none => fail (.missingName intervalVariable)
    | some relaxed =>
      let interval := relaxed.ceil
      -- The interval is told of as soon as it is known, and before it is fixed.
      emit (.intervalFound interval relaxed)
      let fixed ← program.fix [(intervalVariable, 1)] interval "fix ii"
      let (solution, effort) ← solveForLast problem last minimizeSum fixed
      let starts ← problem.decodeStarts solution.values
      announce starts
      return ⟨starts, some interval,
        Cyclic.report last ((Problem.effortOf bound).plus effort) (some relaxed)⟩

/-- The same for the scheduler of overlapping iterations. -/
theorem records_cyclic (problem : Problem ν) (last : Option String) (minimizeSum : Bool) :
    Records (cyclic problem last minimizeSum) (Cyclic.schedule problem last minimizeSum) := by
  unfold cyclic Cyclic.schedule
  -- Without a last operation the result is there at once.
  refine (records_pure _).ite ?_
  refine (records_cyclicProgram problem).bind fun program => ?_
  refine (records_solveFor problem _ _ _).bind fun bound => ?_
  -- Either no interval exists and a cause is named, or one is found and fixed.
  refine Records.ite ?_ ?_
  · exact (records_ofExcept _).bind fun cause => records_fail cause
  · cases bound.values.get? intervalVariable with
    | none => exact records_fail _
    | some relaxed =>
      refine (records_emit rfl).bind fun _ => ?_
      refine (records_ofExcept _).bind fun fixed => ?_
      refine (records_solveForLast problem _ _ _).bind fun (solution, effort) => ?_
      refine (records_ofExcept _).bind fun starts => ?_
      exact (records_announce starts).bind fun _ => records_pure _

/-- The table with a window for an operation, which has to be free. -/
def reserve (table : ReservationTable κ) (operation : String) (start : Int) :
    Logged (ReservationTable κ) := do
  if table.isAvailable start then
    emit (.reserved table.operatorType operation start (start + table.width - 1))
    return { table with held := table.held ++ [(operation, start)] }
  else fail (.rejected (.fullyUsed table.operatorType start))

/-- Pins an operation to the first cycle at which its type has an instance free. -/
def pin (setting : Shared.Setting ν) (progress : Shared.Progress κ) (name : String) :
    Logged (Shared.Progress κ) := do
  let table ← Shared.tableOf setting.problem progress.tables name
  let wanted ← Shared.windowStart progress.starts name
  match table.nextAvailable wanted with
  | none => fail .exhaustedSearch
  | some slot =>
    -- Most searches are told of only where such messages are shown.
    whenEnabled .checks (emit (.considered name table.operatorType wanted))
    let reserved ← reserve table name slot
    let pinned := progress.pinned.put name slot
    let program ← progress.program.fix [(startVariable name, 1)] slot ("bind " ++ name)
    let tables := progress.tables.put table.operatorType reserved
    if slot = wanted then return ⟨progress.starts, tables, pinned, program, progress.delayed⟩
    else
      -- That an operation is held back is always told of.
      emit (.delayed name wanted slot table.operatorType (Measure.number table.limit))
      let starts ← Shared.leastSchedule setting.graph setting.order pinned
      return ⟨starts, tables, pinned, program, progress.delayed + 1⟩

/-- Pins pending operations, the earliest first, until none is left; the fuel is their number. -/
def pinAll (setting : Shared.Setting ν) :
    Nat → List String → Shared.Progress κ → Logged (Shared.Progress κ)
  | 0, _, progress => return progress
  | _ + 1, [], progress => return progress
  | fuel + 1, name :: names, progress => do
    -- The choice is the one that the narrated scheduler makes.
    let next := Shared.nextPending setting.order progress.starts name names
    let progress ← pin setting progress next
    pinAll setting fuel ((name :: names).erase next) progress

/-- Start times within all limits, not always the least ones. -/
def shared (problem : Problem ν) (last : Option String) (minimizeSum : Bool) :
    Logged (AlgorithmResult Int) := do
  let graph ← Graph.ofProblem problem true
  let order ← graph.topologicalOrder
  match last with
  | none => return ⟨[], none, Shared.report last .none none none⟩
  | some lastName =>
    let program ← precedenceProgram problem
    let (solution, effort) ← solveForLast problem last minimizeSum program
    let starts ← problem.decodeStarts solution.values
    let lowerBound ← Problem.startOf starts lastName
    -- The lower bound is the start that the last operation has without limits.
    emit (.lowerBoundFound lastName lowerBound)
    let pending := Shared.pendingOperations problem
    let progress ← pinAll ⟨problem, graph, order⟩ pending.length pending
      ⟨starts.mapValues Measure.ofInt, [], [], program, 0⟩
    if progress.delayed = 0 then
      announce starts
      return ⟨starts, none, Shared.report last effort lowerBound (some 0)⟩
    else
      let (final, more) ← solveForLast problem last minimizeSum progress.program
      let solved ← problem.decodeStarts final.values
      if !Shared.sameStarts solved progress.starts then fail (.disagreement problem.name)
      else
        announce solved
        return ⟨solved, none,
          Shared.report last (effort.plus more) lowerBound (some progress.delayed)⟩

/-- The same for a reservation. -/
theorem records_reserve (table : ReservationTable κ) (operation : String) (start : Int) :
    Records (reserve table operation start) (table.reserve operation start) := by
  unfold reserve ReservationTable.reserve
  refine Records.ite ?_ (records_fail _)
  exact (records_emit rfl).last (records_pure _)

/-- The same for pinning one operation. -/
theorem records_pin (setting : Shared.Setting ν) (progress : Shared.Progress κ) (name : String) :
    Records (pin setting progress name) (Shared.pin setting progress name) := by
  unfold pin Shared.pin
  refine (records_ofExcept _).bind fun table => ?_
  refine (records_ofExcept _).bind fun wanted => ?_
  cases table.nextAvailable wanted with
  | none => exact records_fail _
  | some slot =>
    -- The guard asks for the level that the message has.
    have considered : Records
        (whenEnabled .checks (emit (.considered name table.operatorType wanted))) _ :=
      records_whenEnabled (by simp [Event.isGuarded, Event.level?]) fun journal composed =>
        emit_eq (composed _ (by simp))
    refine considered.bind fun _ => ?_
    refine (records_reserve table name slot).bind fun reserved => ?_
    refine (records_ofExcept _).bind fun program => ?_
    refine (records_pure _).ite ?_
    refine (records_emit rfl).bind fun _ => ?_
    exact (records_ofExcept _).bind fun starts => records_pure _

/-- The same for pinning all of them. -/
theorem records_pinAll (setting : Shared.Setting ν) (fuel : Nat) :
    ∀ (names : List String) (progress : Shared.Progress κ),
      Records (pinAll setting fuel names progress) (Shared.pinAll setting fuel names progress) := by
  induction fuel with
  | zero => exact fun _ progress => records_pure progress
  | succ fuel ih =>
    intro names progress
    -- The pending operations go one by one, the chosen one by the step before.
    cases names with
    | nil => exact records_pure progress
    | cons name names => exact (records_pin setting progress _).bind fun progress => ih _ progress

/-- The same for the scheduler of shared operators. -/
theorem records_shared (problem : Problem ν) (last : Option String) (minimizeSum : Bool) :
    Records (shared problem last minimizeSum) (Shared.schedule problem last minimizeSum) := by
  unfold shared Shared.schedule
  refine (records_ofExcept _).bind fun graph => ?_
  refine (records_ofExcept _).bind fun order => ?_
  cases last with
  | none => exact records_pure _
  | some lastName =>
    refine (records_precedenceProgram problem).bind fun program => ?_
    refine (records_solveForLast problem _ _ _).bind fun (solution, effort) => ?_
    refine (records_ofExcept _).bind fun starts => ?_
    refine (records_ofExcept _).bind fun lowerBound => ?_
    refine (records_emit rfl).bind fun _ => ?_
    refine (records_pinAll _ _ _ _).bind fun progress => ?_
    -- Where nothing was held back the first starts are announced, otherwise those of the new
    -- program.
    refine Records.ite ?_ ?_
    · exact (records_announce starts).bind fun _ => records_pure _
    · refine (records_solveForLast problem _ _ _).bind fun (final, more) => ?_
      refine (records_ofExcept _).bind fun solved => ?_
      refine (records_fail _).ite ?_
      exact (records_announce solved).bind fun _ => records_pure _

end Logged

end CycleSchedule
