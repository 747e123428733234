import CycleSchedule.Command.Line
import CycleSchedule.Command.Report
import CycleSchedule.Document.Load
import CycleSchedule.Text.Shown

/-! Carrying out requests: what is printed, what is written to a file, and how the program exits. -/

namespace CycleSchedule.Command

open Document

/-- What stops the program without a report. -/
inductive Crash where
  | missingDirectory
  | notADirectory
  | isADirectory
  | unencodable
  | unloadable (fault : LoadFault)
  | fault (fault : Fault)
deriving Repr

/-- How a crash reads. -/
def Crash.message : Crash → String
  | missingDirectory => "No such file or directory"
  | notADirectory => "Not a directory"
  | isADirectory => "Is a directory"
  | unencodable => "Half of a surrogate pair cannot be written"
  | unloadable cause => cause.reason
  | fault cause => cause.message.spelled

/-- What a request leads to: an exit code, the texts for the two outputs, and a file to write. -/
structure Report where
  exit : Nat
  output : String
  errors : String
  written : Option (Path × String)
deriving DecidableEq, Repr

/-- Lines as text. -/
def unlines (lines : List String) : String := String.join (lines.map (· ++ "\n"))

/-- Lines as the output for errors shows them. -/
def shownLines (lines : List String) : String := Text.withHalvesEscaped (unlines lines)

/-- The report of a failure, after what was told on the way. -/
def failed (lines : List String) (message : String) : Report :=
  ⟨1, "", shownLines (lines ++ [Text.withoutSequences ("Error: " ++ message)]), none⟩

/-- The report of a success, whose text has to be one that can be printed. -/
def succeeded (lines : List String) (output : String) : Except Crash Report :=
  if Text.hasHalf output then .error .unencodable
  else .ok ⟨0, Text.withoutSequences output, shownLines lines, none⟩

/-- A text without line breaks at its end. -/
def trimBreaks (s : String) : String :=
  String.ofList (s.toList.reverse.dropWhile (· = '\n')).reverse

/-- The settings of a file with those that were asked for in their place. -/
def ScheduleOptions.override (options : ScheduleOptions) (config : SchedulingConfig) :
    SchedulingConfig :=
  { config with
    algorithm := options.algorithm.getD config.algorithm
    variant := options.variant.or config.variant
    last := options.last.or config.last }

/-- What stands in the way of writing to a path: every directory on the way has to be there, and the
path itself must not be one. -/
def obstacle? (look : Path → Entry) (path : Path) : Option Crash :=
  -- The outermost directory that is missing is the one that is met first.
  let inTheWay := path.ancestors.findSome? fun directory => match look directory with
    | .absent => some Crash.missingDirectory
    | .file _ => some .notADirectory
    | .directory => none
  match inTheWay with
  | some crash => some crash
  | none => if look path = .directory then some .isADirectory else none

/-- The printed form of a schedule. -/
def render (format : Format) (problem : Problem Value) (result : ScheduleResult)
    (algorithm : Algorithm) : Except Fault String := do
  let task ← problem.whole
  let rows ← rows task result.starts
  match format with
  | .text => table problem.name result algorithm rows
  | .yaml => document problem.name result rows

/-- Prints a schedule or writes it to a file. -/
def deliver (look : Path → Entry) (lines : List String) (output : Option String) (text : String) :
    Except Crash Report :=
  match output with
  | none => succeeded lines (trimBreaks text ++ "\n")
  | some name =>
    let path := Path.ofText name
    -- The path is looked at before anything is written.
    match obstacle? look path with
    | some crash => .error crash
    | none => do
      if Text.hasHalf text then throw .unencodable
      let report ← succeeded lines ("Schedule written to " ++ path.text ++ "\n")
      return { report with written := some (path, text) }

/-- Schedules a problem. -/
def schedule (look : Path → Entry) (verbosity : Int) (loaded : LoadedProblem)
    (options : ScheduleOptions) : Except Crash Report :=
  let config := options.override loaded.config
  -- The lines that are shown depend on the verbosity, and so may the outcome.
  let told := (loaded.problem.schedule config).told (threshold verbosity)
  match told.outcome with
  | .error fault => .error (.fault fault)
  | .ok (result, stored) =>
    match result.failure with
    | some failure => .ok (failed told.lines failure.text)
    | none => match render options.format stored result config.algorithm with
      | .error fault => .error (.fault fault)
      | .ok text => deliver look told.lines options.output text

/-- Validates a problem. -/
def validate (loaded : LoadedProblem) (variant : Option Variant) : Except Crash Report :=
  match reported (loaded.problem.check (variant.or loaded.config.variant)) with
  | .ok () => succeeded [] "OK\n"
  | .error fault => match fault.failure? with
    | some failure => .ok (failed [] failure.text)
    | none => .error (.fault fault)

/-- Finds the least interval between iterations that the recurrences of a problem allow. -/
def bound (verbosity : Int) (loaded : LoadedProblem) : Except Crash Report :=
  let narrated : Narrated (Option Int) := do
    loaded.problem.check (some .cyclic)
    let task ← loaded.problem.whole
    task.narratedMinimumInterval
  let told := narrated.told (threshold verbosity)
  match told.outcome with
  -- The line that reports the bound may be too long to be written, as any other text.
  | .ok (some interval) =>
    match Phrase.written ("Minimum initiation interval: " ++ Phrase.number interval) with
    | .ok line => succeeded told.lines (line ++ "\n")
    | .error fault => .error (.fault fault)
  | .ok none => .ok (failed told.lines "a zero-distance cycle has positive latency")
  | .error fault => match fault.failure? with
    | some failure => .ok (failed told.lines failure.text)
    | none => .error (.fault fault)

/-- Carries out a request, given what is found under paths. -/
def Request.run (look : Path → Entry) (request : Request) : Except Crash Report :=
  match load look (Path.ofText request.file) with
  | .error fault => match fault.message? with
    -- A document that cannot be loaded is told of; what was not foreseen is a crash.
    | some message => .ok (failed [] message)
    | none => .error (.unloadable fault)
  | .ok loaded => match request.task with
    | .schedule options => schedule look request.verbosity loaded options
    | .validate variant => validate loaded variant
    | .bound => bound request.verbosity loaded

/-- The file that a task writes, if it writes one. -/
def Task.output? : Task → Option Path
  | .schedule options => options.output.map Path.ofText
  | _ => none

/-- The paths that carrying out arguments may look at. -/
def pathsOf (arguments : List String) : List Path :=
  match request? arguments with
  | none => []
  | some request =>
    let output := request.task.output?.toList
    Path.ofText request.file :: (output ++ output.flatMap Path.ancestors)

/-- The report on arguments that make no request. -/
def usage : Report := ⟨2, "", "Error: no such command, option or value\n", none⟩

/-- Carries out what arguments ask for. -/
def run (look : Path → Entry) (arguments : List String) : Except Crash Report :=
  match request? arguments with
  | none => .ok usage
  | some request => request.run look

end CycleSchedule.Command
