/-! Tables from names to values that remember the order in which names first came. -/

namespace CycleSchedule

/-- Values by name, in the order in which the names were first put. -/
abbrev NameTable (α : Type) := List (String × α)

namespace NameTable

variable {α β : Type}

/-- The value under a name. -/
def get? (table : NameTable α) (name : String) : Option α := table.lookup name

/-- The table with a value under a name; a name that is already there keeps its place. -/
def put (table : NameTable α) (name : String) (value : α) : NameTable α :=
  match table with
  | [] => [(name, value)]
  | (other, old) :: rest =>
    -- An old name takes the new value where it stands.
    if other = name then (name, value) :: rest else (other, old) :: put rest name value

/-- The table that a sequence of puts builds. -/
def ofPairs (pairs : List (String × α)) : NameTable α :=
  pairs.foldl (fun table pair => table.put pair.1 pair.2) []

/-- The names of a table. -/
def names (table : NameTable α) : List String := table.map (·.1)

/-- The same names with values computed from the old ones. -/
def mapValues (f : α → β) (table : NameTable α) : NameTable β :=
  table.map fun entry => (entry.1, f entry.2)

end NameTable

end CycleSchedule
