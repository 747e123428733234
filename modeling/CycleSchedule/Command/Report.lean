import CycleSchedule.Scheduler.Service
import CycleSchedule.Yaml.Printer

/-! Schedules as printed: a table for people, or a document. -/

namespace CycleSchedule.Command

/-- An operation with the cycles at which it starts and ends. -/
structure Row where
  operation : Operation
  start : Int
  finish : Int
deriving DecidableEq, Repr

/-- The rows of a schedule, one for each operation of its problem. -/
def rows (problem : Problem Int) (starts : NameTable Int) : Except Fault (List Row) :=
  problem.operations.mapM fun operation => do
    let start ← Problem.startOf starts operation.name
    let operatorType ← problem.operatorTypeOf operation
    return ⟨operation, start, start + operatorType.latency⟩

/-- Whether a row comes before another one: by start, then by name. -/
def Row.precedes (a b : Row) : Bool :=
  -- Rows that are alike precede each other, so that sorting keeps their order.
  a.start < b.start || (a.start = b.start && !(b.operation.name < a.operation.name))

/-- The greatest length of names. -/
def widest (names : List String) : Nat := (names.map String.length).foldl max 0

/-- A text filled up on the right with spaces. -/
def padRight (width : Nat) (s : String) : String :=
  s ++ String.ofList (List.replicate (width - s.length) ' ')

/-- A text filled up on the left with spaces. -/
def padLeft (width : Nat) (s : String) : String :=
  String.ofList (List.replicate (width - s.length) ' ') ++ s

/-- The columns of a number in a table, unless it needs more. -/
def numberWidth : Nat := 3

/-- A row of a table in columns for names and operator types. -/
def Row.line (nameWidth typeWidth : Nat) (row : Row) : Except Fault String := do
  -- A number is written before it is put into its column.
  let start ← (Phrase.number row.start).written
  let finish ← (Phrase.number row.finish).written
  return "  " ++ padRight nameWidth row.operation.name ++ "  " ++
    padRight typeWidth row.operation.operatorType ++ "  start " ++
    padLeft numberWidth start ++ "  end " ++ padLeft numberWidth finish

/-- A schedule as a table, the earliest operations first. -/
def table (problem : String) (result : ScheduleResult) (algorithm : Algorithm) (rows : List Row) :
    Except Fault String := do
  let header := "Schedule for problem '" ++ problem ++ "' (" ++ result.variant.name ++
    " variant, " ++ algorithm.name ++ ")"
  let nameWidth := widest (rows.map (·.operation.name))
  let typeWidth := widest (rows.map (·.operation.operatorType))
  -- The rows are in order of their starts, whatever order they were found in.
  let body ← (rows.mergeSort Row.precedes).mapM (Row.line nameWidth typeWidth)
  let footer ← result.interval.toList.mapM fun interval =>
    Phrase.written ("Initiation interval: " ++ Phrase.number interval)
  return "\n".intercalate (header :: body ++ footer) ++ "\n"

/-- A row as an entry of a document. -/
def Row.entry (row : Row) : Except Fault (String × Yaml.Tree) := do
  let start ← (Phrase.number row.start).written
  let finish ← (Phrase.number row.finish).written
  return (row.operation.name, .mapping [("type", .text row.operation.operatorType),
    ("start", .number start), ("end", .number finish)])

/-- A schedule as a document, its operations in the order of their registration. -/
def document (problem : String) (result : ScheduleResult) (rows : List Row) :
    Except Fault String := do
  let head := [("problem", .text problem), ("variant", .text result.variant.name)]
  let interval ← result.interval.toList.mapM fun interval => do
    return ("initiation_interval", Yaml.Tree.number (← (Phrase.number interval).written))
  let entries ← rows.mapM Row.entry
  return Yaml.print (head ++ interval ++ [("operations", .mapping entries)])

end CycleSchedule.Command
