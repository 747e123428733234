import CycleSchedule.Text.CodeRange

/-! The characters of a document, each with the place where it stands. -/

namespace CycleSchedule.Yaml

/-- A character and its place: how many characters come before it, its line and its column. -/
structure Spot where
  char : Char
  index : Nat
  line : Nat
  column : Nat
deriving DecidableEq, Repr

/-- Whether a character ends a line. -/
def isBreak (c : Char) : Bool := c = '\n' || c = '\u2028' || c = '\u2029'

/-- Whether a character is a space or a tab. -/
def isSpace (c : Char) : Bool := c = ' ' || c = '\t'

/-- The mark that may open a text to tell its byte order; it takes no column. -/
def byteOrderMark : Char := '\uFEFF'

/-- Each character with its place, given the place of the first one. -/
def placeFrom : Nat → Nat → Nat → List Char → List Spot
  | _, _, _, [] => []
  | index, line, column, c :: cs =>
    ⟨c, index, line, column⟩ ::
      -- A new line begins at column zero.
      if isBreak c then placeFrom (index + 1) (line + 1) 0 cs
      else placeFrom (index + 1) line (if c = byteOrderMark then column else column + 1) cs

/-- The text with a single character for every way to end a line. -/
def unifyBreaks : List Char → List Char
  -- A carriage return and a line feed are one end of a line, in this order.
  | '\r' :: '\n' :: cs => '\n' :: unifyBreaks cs
  | '\r' :: cs => '\n' :: unifyBreaks cs
  | '\u0085' :: cs => '\n' :: unifyBreaks cs
  | c :: cs => c :: unifyBreaks cs
  | [] => []

/-- The characters that a document may hold. -/
def allowedRanges : List Text.CodeRange :=
  [(0x09, 0x0A), (0x0D, 0x0D), (0x20, 0x7E), (0x85, 0x85), (0xA0, 0xD7FF), (0xE000, 0xFFFD),
    (0x10000, 0x10FFFF)]

/-- The characters of a text with their places, if it may hold all of them. -/
def spots? (cs : List Char) : Option (List Spot) :=
  if cs.all (Text.inRanges allowedRanges) then
    match placeFrom 0 0 0 (unifyBreaks cs) with
    -- A mark at the very beginning is not part of the document.
    | spot :: rest => some (if spot.char = byteOrderMark then rest else spot :: rest)
    | [] => some []
  else none

/-- Whether a word ends here: at the end, at white space or at a line break. -/
def atGap : List Spot → Bool
  | [] => true
  | spot :: _ => isSpace spot.char || isBreak spot.char

/-- Whether a given character comes first. -/
def startsWith (c : Char) : List Spot → Bool
  | [] => false
  | spot :: _ => spot.char = c

/-- Whether three hyphens or three full stops stand here as a word. -/
def atMarker : List Spot → Bool
  | a :: b :: c :: rest =>
    -- Three signs of one kind make a marker, if nothing is joined to them.
    (a.char = '-' || a.char = '.') && a.char = b.char && b.char = c.char && atGap rest
  | _ => false

/-- What follows the rest of a line. -/
def skipLine (spots : List Spot) : List Spot := spots.dropWhile fun spot => !isBreak spot.char

/-- What follows spaces. -/
def skipSpaces (spots : List Spot) : List Spot := spots.dropWhile (·.char = ' ')

/-- The characters of spots. -/
def chars (spots : List Spot) : List Char := spots.map (·.char)

end CycleSchedule.Yaml
