import CycleSchedule.Document.Path
import CycleSchedule.Document.Reader
import CycleSchedule.Yaml.Reader

/-! Loading problems from files. -/

namespace CycleSchedule.Document

/-- Why a file gives no problem. -/
inductive LoadFault where
  | notFound (path : Path)
  | directory
  | unreadable (fault : Yaml.Fault)
  | noMapping
  | unnamedField
  | mismatched (mismatches : List Mismatch)
deriving DecidableEq, Repr

/-- How a fault of loading reads, if it is one that is reported. -/
def LoadFault.message? : LoadFault → Option String
  | notFound path => some ("File not found: " ++ path.text)
  -- What has no message is a fault that the loader does not handle.
  | directory => none
  | unreadable .notWellFormed => some "Failed to parse YAML"
  | unreadable _ => none
  | noMapping => some "YAML must contain a dictionary at the root level"
  | unnamedField => none
  | mismatched _ => some "Invalid problem structure"

/-- Why a file gives no problem, in words. -/
def LoadFault.reason (fault : LoadFault) : String :=
  match fault with
  | directory => "Is a directory"
  | unreadable cause => cause.message
  | unnamedField => "The names of fields must be texts"
  | fault => fault.message?.getD ""

/-- Whether a key is a text. -/
def isTextKey : Atom → Bool
  | .text _ => true
  | _ => false

/-- The problem of a value. -/
def parseProblem (value : Value) : Except LoadFault LoadedProblem :=
  -- A problem is read as a whole, with all of its mismatches or none.
  (readProblem value).mapError .mismatched

/-- The problem of what was read from a file, if it could be read. -/
def interpret : Except Yaml.Fault Value → Except LoadFault LoadedProblem
  | .error fault => .error (.unreadable fault)
  -- The names of fields are looked at before any of the fields.
  | .ok (.map entries) =>
    if entries.all fun entry => isTextKey entry.1 then parseProblem (.map entries)
    else .error .unnamedField
  | .ok _ => .error .noMapping

/-- The problem with a name taken from its file, unless it has a name of its own. -/
def nameAfter (path : Path) (loaded : LoadedProblem) : LoadedProblem :=
  -- A file may spell out the default name; that is not told apart from having none.
  if loaded.problem.name = Problem.defaultName then
    { loaded with problem := { loaded.problem with name := path.stem } }
  else loaded

/-- The problem of an entry found under a path, given a reader of texts. -/
def loadEntry (read : String → Except Yaml.Fault Value) (path : Path) :
    Entry → Except LoadFault LoadedProblem
  | .absent => .error (.notFound path)
  | .directory => .error .directory
  | .file text => (interpret (read text)).map (nameAfter path)

/-- The problem of the file under a path. -/
def load (look : Path → Entry) (path : Path) : Except LoadFault LoadedProblem :=
  loadEntry Yaml.read path (look path)

end CycleSchedule.Document
