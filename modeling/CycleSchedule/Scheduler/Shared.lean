import CycleSchedule.Reservation
import CycleSchedule.Scheduler.Asap
import CycleSchedule.Scheduler.Formulation

/-! Scheduling with limited operators: operations are pinned one by one to cycles with a free
instance, and whatever depends on them is pushed back. -/

namespace CycleSchedule.Shared

variable {ν κ : Type} [Quantity ν κ] [Measure κ]

/-- A report on the work of this scheduler. -/
def report (last : Option String) (effort : Effort) (lowerBound : Option Int)
    (delayed : Option Nat) : Metadata :=
  .simplex ⟨.sharedOperators, last, effort, none, lowerBound, delayed⟩

/-- The latest of the cycles of a list, zero if there is none. -/
def latest : List κ → κ
  | [] => Measure.ofInt 0
  -- Of equal cycles the first one is kept.
  | cycle :: cycles => cycles.foldl Measure.later cycle

/-- The earliest start of a node, or the cycle it is pinned to, which must not be earlier. -/
def pinnedStart (pinned : NameTable Int) (node : String) (ready : κ) : Except Fault κ :=
  match pinned.get? node with
  | none => .ok ready
  | some slot =>
    -- A pin holds an operation back and never pulls it forward.
    if Measure.ofInt slot < ready then .error (.pinnedTooEarly node slot (Measure.number ready))
    else .ok (Measure.ofInt slot)

/-- Starts the nodes of a list one after the other, given the starts of all nodes before. -/
def startInOrder (graph : Graph ν) (pinned : NameTable Int) (starts : NameTable κ) :
    List String → Except Fault (NameTable κ)
  | [] => .ok starts
  | node :: nodes => do
    let ready ← graph.readyCycles starts node
    let start ← pinnedStart pinned node (latest ready)
    startInOrder graph pinned (starts.put node start) nodes

/-- The earliest start of every operation with the pinned ones held in place. -/
def leastSchedule (graph : Graph ν) (order : List String) (pinned : NameTable Int) :
    Except Fault (NameTable κ) :=
  startInOrder graph pinned [] order

/-- What stays the same while operations are pinned. -/
structure Setting (ν : Type) where
  problem : Problem ν
  graph : Graph ν
  order : List String

/-- What changes while operations are pinned. -/
structure Progress (κ : Type) where
  starts : NameTable κ
  tables : NameTable (ReservationTable κ)
  pinned : NameTable Int
  program : LinearProgram
  delayed : Nat

/-- Whether a node comes before another one: by start, then by place in the order. -/
def precedes (order : List String) (starts : NameTable κ) (a b : String) : Bool :=
  -- A node without a start counts as one of cycle 0.
  let startOf (node : String) := (starts.get? node).getD (Measure.ofInt 0)
  startOf a < startOf b || (!(startOf b < startOf a) && order.idxOf a < order.idxOf b)

/-- The first of the pending operations to be pinned. -/
def nextPending (order : List String) (starts : NameTable κ) (first : String) :
    List String → String
  | [] => first
  | name :: names =>
    nextPending order starts (if precedes order starts name first then name else first) names

/-- The limited type of a name; of several, the one registered last. -/
def limitedType? (problem : Problem ν) (name : String) : Option (OperatorType ν) :=
  -- Types without a limit are passed over, so they hide no limited type of the same name.
  (problem.operatorTypes.filter fun operatorType =>
    operatorType.name = name && operatorType.limit.isSome).getLast?

/-- The reservation table of the type of an operation; nothing is reserved in a table that has not
been used. -/
def tableOf (problem : Problem ν) (tables : NameTable (ReservationTable κ)) (name : String) :
    Except Fault (ReservationTable κ) := do
  let operation ← match problem.operation? name with
    | some operation => Except.ok operation
    | none => .error (.missingName name)
  -- A table that is in use goes before the type, which is only looked up for a new table.
  match tables.get? operation.operatorType, limitedType? problem operation.operatorType with
  | some table, _ => return table
  | none, some operatorType => ReservationTable.new operatorType
  | none, none => .error (.missingName operation.operatorType)

/-- A start as the first cycle of a window, for which it has to be of a whole kind. -/
def windowStart (starts : NameTable κ) (name : String) : Except Fault Int := do
  let start ← Problem.startOf starts name
  match Measure.whole? start with
  | some cycle => return cycle
  | none => .error (.unusable .notANumber)

/-- Pins an operation to the first cycle at which its type has an instance free. -/
def pin (setting : Setting ν) (progress : Progress κ) (name : String) :
    Narrated (Progress κ) := do
  let table ← tableOf setting.problem progress.tables name
  let wanted ← windowStart progress.starts name
  match table.nextAvailable wanted with
  | none => Narrated.fail .exhaustedSearch
  | some slot =>
    Narrated.tell [.considered name table.operatorType wanted]
    let reserved ← table.reserve name slot
    let pinned := progress.pinned.put name slot
    let program ← progress.program.fix [(startVariable name, 1)] slot ("bind " ++ name)
    let tables := progress.tables.put table.operatorType reserved
    -- Pinned where it was, an operation pushes nothing back.
    if slot = wanted then return ⟨progress.starts, tables, pinned, program, progress.delayed⟩
    else
      Narrated.tell [.delayed name wanted slot table.operatorType (Measure.number table.limit)]
      let starts ← leastSchedule setting.graph setting.order pinned
      return ⟨starts, tables, pinned, program, progress.delayed + 1⟩

/-- Pins pending operations, the earliest first, until none is left; the fuel is their number. -/
def pinAll (setting : Setting ν) : Nat → List String → Progress κ → Narrated (Progress κ)
  | 0, _, progress => .done progress
  | _ + 1, [], progress => .done progress
  | fuel + 1, name :: names, progress => do
    -- Starts move with every pin, so the next operation is chosen anew each time.
    let next := nextPending setting.order progress.starts name names
    let progress ← pin setting progress next
    pinAll setting fuel ((name :: names).erase next) progress

/-- The operations of limited types. -/
def pendingOperations (problem : Problem ν) : List String :=
  (problem.operations.filter fun operation =>
    (limitedType? problem operation.operatorType).isSome).map (·.name)

/-- Whether two tables hold equal starts under the same names. -/
def sameStarts (whole : NameTable Int) (starts : NameTable κ) : Bool :=
  whole.length = starts.length && whole.all fun entry =>
    match starts.get? entry.1 with
    | some start => start ≤ Measure.ofInt entry.2 && Measure.ofInt entry.2 ≤ start
    | none => false

/-- Start times within all limits, not always the least ones. -/
def schedule (problem : Problem ν) (last : Option String) (minimizeSum : Bool) :
    Narrated (AlgorithmResult Int) := do
  let graph ← Graph.ofProblem problem true
  let order ← graph.topologicalOrder
  match last with
  | none => return ⟨[], none, report last .none none none⟩
  | some lastName =>
    let program ← problem.narratedPrecedenceProgram
    let (solution, effort) ← problem.solveForLast last minimizeSum program
    let starts ← problem.decodeStarts solution.values
    let lowerBound ← Problem.startOf starts lastName
    Narrated.tell [.lowerBoundFound lastName lowerBound]
    let pending := pendingOperations problem
    -- Pinning starts from the least starts, with nothing reserved.
    let progress ← pinAll ⟨problem, graph, order⟩ pending.length pending
      ⟨starts.mapValues Measure.ofInt, [], [], program, 0⟩
    -- Start times that nothing has moved still are the ones that the program gave.
    if progress.delayed = 0 then
      Narrated.tell (announcements starts)
      return ⟨starts, none, report last effort lowerBound (some 0)⟩
    else
      let (final, more) ← problem.solveForLast last minimizeSum progress.program
      let solved ← problem.decodeStarts final.values
      -- Propagation and program have to agree, or one of them is wrong.
      if !sameStarts solved progress.starts then Narrated.fail (.disagreement problem.name)
      else
        Narrated.tell (announcements solved)
        return ⟨solved, none,
          report last (effort.plus more) lowerBound (some progress.delayed)⟩

end CycleSchedule.Shared
