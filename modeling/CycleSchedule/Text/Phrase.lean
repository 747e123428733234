import CycleSchedule.Text.Digit

/-! Texts put together from words and whole numbers. A number only becomes digits when the text is
written, and a text with a number that has too many digits cannot be written. -/

namespace CycleSchedule

namespace Text

/-- Whether a whole number has few enough digits to be written, where the sign is not counted. -/
def isWritable (n : Int) : Bool := n.natAbs < Nat.pow 10 digitLimit

/-- The digits of a whole number behind its sign, unless there are too many of them. -/
def decimal? (n : Int) : Option String :=
  -- The limit is the one for numbers that are read.
  if isWritable n then some (toString n) else none

/-- What is said of a whole number with more digits than may be written. -/
def unwritableMessage : String :=
  "Exceeds the limit (" ++ toString digitLimit ++
    " digits) for integer string conversion; use sys.set_int_max_str_digits() to increase the limit"

end Text

/-- A part of a text: words as they stand, or a whole number. -/
inductive Part where
  | words (s : String)
  | number (n : Int)
deriving DecidableEq, Repr

namespace Part

/-- The characters of a part, however many digits its number has. -/
def spelled : Part → String
  | words s => s
  | number n => toString n

/-- The characters of a part, if it can be written. -/
def write? : Part → Option String
  | words s => some s
  | number n => Text.decimal? n

/-- Whether a part can be written. -/
def isWritable : Part → Bool
  | words _ => true
  | number n => Text.isWritable n

end Part

/-- A text in parts, before it is written. -/
structure Phrase where
  parts : List Part
deriving DecidableEq, Repr

namespace Phrase

instance : Append Phrase := ⟨fun first second => ⟨first.parts ++ second.parts⟩⟩

/-- Words are a text of their own. -/
instance : Coe String Phrase := ⟨fun s => ⟨[.words s]⟩⟩

/-- A whole number as a text. -/
def number (n : Int) : Phrase := ⟨[.number n]⟩

/-- A count as a text. -/
def count (n : Nat) : Phrase := .number n

/-- Texts in a row, with the same words between any two of them. -/
def joined (between : String) : List Phrase → Phrase
  | [] => ""
  | [phrase] => phrase
  -- The words stand behind each text but the last.
  | phrase :: phrases => phrase ++ between ++ joined between phrases

/-- The characters of a text, however many digits its numbers have. -/
def spelled (phrase : Phrase) : String := String.join (phrase.parts.map Part.spelled)

/-- The characters of a text, if each of its parts can be written. -/
def write? (phrase : Phrase) : Option String := do
  -- One number that is too long spoils the whole text.
  let parts ← phrase.parts.mapM Part.write?
  return String.join parts

/-- Whether a text can be written. -/
def isWritable (phrase : Phrase) : Bool := phrase.parts.all Part.isWritable

end Phrase

end CycleSchedule
