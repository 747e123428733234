import CycleSchedule.Journal.Narrated
import CycleSchedule.Problem.Validity

/-! Which cycles the instances of a limited operator type are taken in. -/

namespace CycleSchedule

/-- The operations that hold an instance of one operator type, and from which cycle on. -/
structure ReservationTable (κ : Type) where
  operatorType : String
  width : Int
  limit : κ
  held : List (String × Int)
deriving DecidableEq, Repr

namespace ReservationTable

variable {ν κ : Type} [Measure κ]

/-- The table of a limited type, with nothing reserved. -/
def new [Quantity ν κ] (operatorType : OperatorType ν) : Except Fault (ReservationTable κ) :=
  match operatorType.limit with
  | none => .error (.rejected (.unlimitedType operatorType.name))
  | some limit => do
    let width ← Problem.windowWidth operatorType
    let limit ← Problem.measured limit
    return ⟨operatorType.name, width, limit, []⟩

/-- The cycles at which the windows of a table start. -/
def starts (table : ReservationTable κ) : List Int := table.held.map (·.2)

/-- How many instances are taken in a cycle. -/
def usage (table : ReservationTable κ) (cycle : Int) : Nat :=
  occupied table.width table.starts cycle

/-- Whether an instance is free in a cycle. -/
def hasRoom (table : ReservationTable κ) (cycle : Int) : Bool :=
  Measure.ofInt (table.usage cycle) < table.limit

/-- Whether an instance is free for a whole window. -/
def isAvailable (table : ReservationTable κ) (start : Int) : Bool :=
  -- Use only rises where a window starts, so no other cycle has to be asked.
  table.hasRoom start && table.starts.all fun cycle =>
    !(start < cycle && cycle < start + table.width) || table.hasRoom cycle

/-- The first cycle, from a given one on, at which a whole window is free. -/
def nextAvailable (table : ReservationTable κ) (first : Int) : Option Int :=
  -- Room for a window only appears where another window ends.
  let ends := (table.starts.map (· + table.width)).filter (first < ·)
  ((first :: ends).filter table.isAvailable).min?

/-- The table with a window for an operation, which has to be free. -/
def reserve (table : ReservationTable κ) (operation : String) (start : Int) :
    Narrated (ReservationTable κ) :=
  if table.isAvailable start then
    ⟨[.reserved table.operatorType operation start (start + table.width - 1)],
      .ok { table with held := table.held ++ [(operation, start)] }⟩
  else .fail (.rejected (.fullyUsed table.operatorType start))

/-- A call that reserves a window: the table afterwards, and how the call is followed where messages
from a level on are shown. -/
def call (cutoff : Level) (table : ReservationTable κ) (operation : String) (start : Int) :
    ReservationTable κ × Told Unit :=
  let narrated := table.reserve operation start
  let told : Narrated Unit := ⟨narrated.events, narrated.outcome.map fun _ => ()⟩
  -- The window is stored before the message about it is put together, and stays if that fails.
  (narrated.outcome.toOption.getD table, told.told cutoff)

/-- The cycles of a window. -/
def windowCycles (width start : Int) : List Int :=
  (List.range width.toNat).map fun step => start + Int.ofNat step

/-- Every cycle in which an instance is taken, in order, with the number of instances. -/
def usageCounts (table : ReservationTable κ) : List (Int × Nat) :=
  -- A cycle outside of every window is not in use.
  let cycles := (table.starts.flatMap (windowCycles table.width)).eraseDups
  (cycles.mergeSort (· ≤ ·)).map fun cycle => (cycle, table.usage cycle)

/-- The latest window of each operation. -/
def reservations (table : ReservationTable κ) : NameTable Int := .ofPairs table.held

end ReservationTable

end CycleSchedule
