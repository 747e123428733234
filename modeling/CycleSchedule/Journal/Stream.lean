import CycleSchedule.Journal.Level
import CycleSchedule.Journal.Places

/-! Messages written to streams of text, each on a line of its own. -/

namespace CycleSchedule

/-- The streams opened so far, oldest first, and whether the last one takes messages. -/
structure Journal where
  cutoff : Level
  streams : List String
  connected : Bool
deriving DecidableEq, Repr

namespace Journal

/-- The journal before anything is set up. -/
def initial : Journal := ⟨threshold 0, [], false⟩

/-- Opens a new stream for the messages that a verbosity lets through. -/
def setUp (journal : Journal) (verbosity : Int) : Journal :=
  -- A stream that was open before takes no messages any more.
  ⟨threshold verbosity, journal.streams ++ [""], true⟩

/-- Closes the stream. -/
def reset (journal : Journal) : Journal :=
  ⟨threshold 0, journal.streams, false⟩

/-- Whether messages of a level are let through. -/
def enables (journal : Journal) (level : Level) : Bool := level.passes journal.cutoff

/-- The streams with a line at the end of the last one. -/
def appendLine (line : String) : List String → List String
  -- Without a stream the line is lost.
  | [] => []
  | [stream] => [stream ++ line ++ "\n"]
  | stream :: streams => stream :: appendLine line streams

/-- Writes a message if its level is let through and its places can be filled. -/
def write (journal : Journal) (level : Level) (text : String) (values : List Value) : Journal :=
  if journal.connected && journal.enables level then
    -- A message whose places cannot be filled is lost, and nothing else with it.
    match messageText text values with
    | some line => { journal with streams := appendLine line journal.streams }
    | none => journal
  else journal

end Journal

end CycleSchedule
