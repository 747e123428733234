import CycleSchedule.Document.Mismatch
import CycleSchedule.Text.Numeral
import CycleSchedule.Text.Surrogate

/-! Reading numbers, truth values and names, each from every spelling it may have. -/

namespace CycleSchedule.Document

/-- Whether a number fits in a signed word of 64 bits. -/
def fitsWord (n : Int) : Bool := -9223372036854775808 ≤ n && n < 9223372036854775808

/-- Reads the whole number that a text spells. -/
def readNumeral (s : String) : Reading Int :=
  -- A text with half of a pair is no text at all, whatever else is in it.
  if s.toList.any Text.isStandIn then .unexpected .wellFormedText
  else match Text.readNumeral s with
    | .ok n => .ok n
    | .error .malformed => .unexpected .numeral
    | .error .tooLong => .unexpected .numeralSize

/-- Reads a whole number from a binary one, which has to lie inside of what words hold. -/
def readWhole (x : Binary64) : Reading Int :=
  match x with
  -- What is not finite is reported as such, and only then is a fraction looked for.
  | .infinite _ => .unexpected .finite
  | .nan => .unexpected .finite
  | x => match x.toInt? with
    | none => .unexpected .noFraction
    -- The range is that of a word on both sides, so the least word is left out.
    | some n => if fitsWord n && fitsWord (-n) then .ok n else .unexpected .numeralSize

/-- Reads a whole number. -/
def readInt : Value → Reading Int
  | .int n => .ok n
  -- A truth value counts as a number here.
  | .bool b => .ok (if b then 1 else 0)
  | .float x => readWhole x
  | .text s => readNumeral s
  -- Bytes are read as the text that they are the form of.
  | .atom (.bytes data) => match Atom.bytesText? data with
    | some s => readNumeral s
    | none => .unexpected .numeral
  | _ => .unexpected .number

/-- The words for true and for false, in lower case. -/
def truthWords : List (String × Bool) :=
  [("0", false), ("off", false), ("f", false), ("false", false), ("n", false), ("no", false),
    ("1", true), ("on", true), ("t", true), ("true", true), ("y", true), ("yes", true)]

/-- Reads the truth value that a word stands for. -/
def readTruthWord (s : String) : Reading Bool :=
  if s.toList.any Text.isStandIn then .unexpected .wellFormedText
  -- Case makes no difference to a truth word.
  else match truthWords.lookup s.toLower with
    | some b => .ok b
    | none => .unexpected .truthWord

/-- Reads the truth value that a number stands for. -/
def readTruthNumber (n : Int) : Reading Bool :=
  if n = 0 then .ok false else if n = 1 then .ok true else .unexpected .truthWord

/-- Reads a truth value. -/
def readBool : Value → Reading Bool
  | .bool b => .ok b
  -- A number beyond a machine word is no truth value, and is not even looked at.
  | .int n => if fitsWord n then readTruthNumber n else .unexpected .truth
  | .float x => match readWhole x with
    -- A fraction or a number out of range is no truth value, whatever is wrong with it.
    | .ok n => readTruthNumber n
    | .error _ => .unexpected .truth
  | .text s => readTruthWord s
  | .atom (.bytes data) => match Atom.bytesText? data with
    | some s => readTruthWord s
    | none => .unexpected .truthWord
  | _ => .unexpected .truth

/-- Reads a text. -/
def readText : Value → Reading String
  | .text s => .ok s
  | .atom (.bytes data) => match Atom.bytesText? data with
    | some s => .ok s
    | none => .unexpected .wellFormedText
  | _ => .unexpected .text

/-- Reads one of the names that a table knows. -/
def readChoice {α : Type} (ofName? : String → Option α) (value : Value) : Reading α :=
  match readText value with
  | .ok s => match ofName? s with
    | some a => .ok a
    | none => .unexpected .choice
  -- A value that is no text is reported as an unknown name.
  | .error _ => .unexpected .choice

/-- Reads a value that may be absent. -/
def readOptional {α : Type} (read : Value → Reading α) : Value → Reading (Option α)
  | .null => .ok none
  | value => (read value).map some

/-- Reads the members of a mapping. -/
def readRecord {α : Type} (read : Value → Reading α) : Value → Reading α
  | .map entries => read (.map entries)
  | _ => .unexpected .record

end CycleSchedule.Document
