/-! Halves of surrogate pairs: escapes may name them one by one although they are no characters. -/

namespace CycleSchedule.Text

/-- How far from its half a stand-in is; stand-ins are private characters without a meaning. -/
def standInOffset : Nat := 0xE8000

/-- Whether a code is half of a surrogate pair. -/
def isHalf (code : Nat) : Bool := 0xD800 ≤ code && code < 0xE000

/-- Whether a character stands for half of a surrogate pair. -/
def isStandIn (c : Char) : Bool := standInOffset ≤ c.toNat && isHalf (c.toNat - standInOffset)

/-- The character of a code, or the stand-in of a half. -/
def charOfCode (code : Nat) : Char :=
  -- A half is kept as its stand-in, so that it can be told from all other characters.
  Char.ofNat (if isHalf code then code + standInOffset else code)

/-- The code that a character is written with in escapes. -/
def codeOfChar (c : Char) : Nat := if isStandIn c then c.toNat - standInOffset else c.toNat

end CycleSchedule.Text
