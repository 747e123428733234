/-! Sets of characters given by closed ranges of code points. -/

namespace CycleSchedule.Text

/-- A closed range of code points, from its first to its last. -/
abbrev CodeRange := Nat × Nat

/-- Whether a character lies in one of the ranges. -/
def inRanges (ranges : List CodeRange) (c : Char) : Bool :=
  ranges.any fun range => range.1 ≤ c.toNat && c.toNat ≤ range.2

end CycleSchedule.Text
