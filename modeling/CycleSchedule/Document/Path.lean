/-! Paths of files, and what may be found under them. -/

namespace CycleSchedule.Document

/-- What is found under a path. -/
inductive Entry where
  | absent
  | directory
  | file (text : String)
deriving DecidableEq, Repr

/-- A path as its names in order, and what it starts from. -/
structure Path where
  root : String
  names : List String
deriving DecidableEq, Repr

namespace Path

/-- The path that a text denotes; a single full stop stands for nothing. -/
def ofText (text : String) : Path :=
  let slashes := text.toList.takeWhile (· = '/')
  -- Exactly two slashes are a root of their own.
  let root := if slashes.isEmpty then "" else if slashes.length = 2 then "//" else "/"
  ⟨root, (text.splitOn "/").filter fun name => name ≠ "" && name ≠ "."⟩

/-- A path as text. -/
def text (path : Path) : String :=
  -- A path without names and without a root is the directory it is read in.
  if path.names.isEmpty && path.root.isEmpty then "."
  else path.root ++ "/".intercalate path.names

/-- The directories on the way to a path, the outermost first. -/
def ancestors (path : Path) : List Path :=
  -- The outermost directory is what the path starts from; the path itself is left out.
  (List.range path.names.length).map fun n => { path with names := path.names.take n }

/-- The last name of a path without its suffix. A full stop at either end of a name begins no
suffix. -/
def stem (path : Path) : String :=
  let name := path.names.getLast?.getD ""
  let parts := name.splitOn "."
  let suffix := parts.getLast?.getD ""
  let stem := ".".intercalate parts.dropLast
  -- A full stop alone at either end belongs to the name.
  if suffix.isEmpty || stem.isEmpty then name else stem

end Path

end CycleSchedule.Document
