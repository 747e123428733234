import CycleSchedule.Command.Run

/-! The program: reads the files that a request names, carries it out and prints what it leads to.
-/

namespace CycleSchedule.Command

open Document

/-- The code with which the system refuses to read a directory as a file. -/
def directoryCode : UInt32 := 21

/-- What is found under a path on disk. -/
def entryOnDisk (path : Path) : IO Entry := do
  try
    let text ← IO.FS.readFile path.text
    return .file text
  catch
    | .noFileOrDirectory _ _ _ => return .absent
    -- What is in the way of reading a file is told apart by its code.
    | .inappropriateType _ code _ => return if code = directoryCode then .directory else .absent
    | error => throw error

/-- Prints a report and writes its file. -/
def carryOut (report : Report) : IO UInt32 := do
  match report.written with
  | some (path, text) => IO.FS.writeFile path.text text
  | none => pure ()
  IO.print report.output
  IO.eprint report.errors
  return report.exit.toUInt32

end CycleSchedule.Command

/-- Carries out what the arguments ask for. -/
def main (arguments : List String) : IO UInt32 := do
  -- All files that the arguments name are read before the command is run.
  let paths := CycleSchedule.Command.pathsOf arguments
  let entries ← paths.mapM fun path => return (path, ← CycleSchedule.Command.entryOnDisk path)
  let look (path : CycleSchedule.Document.Path) := (entries.lookup path).getD .absent
  match CycleSchedule.Command.run look arguments with
  | .ok report => CycleSchedule.Command.carryOut report
  | .error crash =>
    IO.eprintln crash.message
    return 1
