import CycleSchedule.Text.Digit
import CycleSchedule.Text.Surrogate

/-! Texts as an output shows them that takes no control sequences and no halves of surrogate pairs.
-/

namespace CycleSchedule.Text

/-- What begins a control sequence, besides the bracket after it. -/
def escapeMark : Char := '\x1B'

/-- Whether a character may stand between the bracket of a control sequence and its last letter. -/
def isParameter (c : Char) : Bool := isAsciiDigit c || c = ';' || c = '?'

/-- What follows a control sequence after its mark, if there is a bracket and a last letter. -/
def afterSequence? : List Char → Option (List Char)
  | '[' :: cs => match cs.dropWhile isParameter with
    -- A sequence is only dropped as a whole, up to its last letter.
    | c :: rest => if c.isAlpha then some rest else none
    | [] => none
  | _ => none

/-- A text without its control sequences; the fuel is its length. -/
def dropSequences : Nat → List Char → List Char
  | 0, cs => cs
  -- The fuel is enough, since every step drops a character at least.
  | _ + 1, [] => []
  | fuel + 1, c :: rest =>
    match if c = escapeMark then afterSequence? rest else none with
    | some after => dropSequences fuel after
    -- A mark that begins no sequence is shown as it is.
    | none => c :: dropSequences fuel rest

/-- A text without its control sequences. -/
def withoutSequences (s : String) : String :=
  String.ofList (dropSequences (s.length + 1) s.toList)

/-- Whether a text holds half of a surrogate pair, which no encoding has room for. -/
def hasHalf (s : String) : Bool := s.toList.any isStandIn

/-- A text with escapes for halves of surrogate pairs. -/
def withHalvesEscaped (s : String) : String :=
  String.ofList (s.toList.flatMap fun c =>
    -- A half is written by its code, as no encoding has room for it.
    if isStandIn c then '\\' :: 'u' :: hexDigits 4 (codeOfChar c) else [c])

end CycleSchedule.Text
