import CycleSchedule.Text.Phrase

/-! The text of a rational number. -/

namespace CycleSchedule

/-- A reduced fraction, or a whole number alone. -/
def rationalText (q : Rat) : Phrase :=
  -- Either of the two numbers may be too long to be written.
  if q.den = 1 then .number q.num else .number q.num ++ "/" ++ .number q.den

end CycleSchedule
