import CycleSchedule.Text.CodeRange

/-! The lines of a text, whatever they are ended by. -/

namespace CycleSchedule.Text

/-- The characters that end a line: line feeds and tabs, carriage returns, separators of records,
and the line ends of Unicode. -/
def lineEnds : List CodeRange :=
  [(0x0A, 0x0D), (0x1C, 0x1E), (0x85, 0x85), (0x2028, 0x2029)]

/-- The lines of a text, the last of which need not be ended; `read` is the line so far, its last
character first. -/
def linesFrom (read : List Char) : List Char → List String
  -- What comes after the last end is a line if there is anything.
  | [] => if read.isEmpty then [] else [String.ofList read.reverse]
  -- A carriage return and the line feed after it end one line.
  | '\r' :: '\n' :: rest => String.ofList read.reverse :: linesFrom [] rest
  | c :: rest =>
    if inRanges lineEnds c then String.ofList read.reverse :: linesFrom [] rest
    -- The line so far is kept back to front, so that it grows at its head.
    else linesFrom (c :: read) rest

/-- The lines of a text. -/
def lines (s : String) : List String := linesFrom [] s.toList

end CycleSchedule.Text
