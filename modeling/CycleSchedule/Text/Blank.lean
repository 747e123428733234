import CycleSchedule.Text.CodeRange

/-! White space of any script, and what is left of a text without it at the ends. -/

namespace CycleSchedule.Text

/-- White space: the ASCII controls and separators, and the Unicode spaces and line separators. -/
def blankRanges : List CodeRange :=
  [(0x09, 0x0D), (0x1C, 0x20), (0x85, 0x85), (0xA0, 0xA0), (0x1680, 0x1680), (0x2000, 0x200A),
    (0x2028, 0x2029), (0x202F, 0x202F), (0x205F, 0x205F), (0x3000, 0x3000)]

/-- Whether a character is white space. -/
def isBlank (c : Char) : Bool := inRanges blankRanges c

/-- The characters of a text without the white space around them. -/
def trimBlank (cs : List Char) : List Char :=
  -- The end is the beginning of the text read backwards.
  ((cs.dropWhile isBlank).reverse.dropWhile isBlank).reverse

end CycleSchedule.Text
