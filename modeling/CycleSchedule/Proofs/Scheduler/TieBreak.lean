import CycleSchedule.Proofs.Scheduler.Service

/-! Minimising the sum of starts breaks ties only: without it a run ends in the same way, with the
same interval and the same start of the last operation. -/

namespace CycleSchedule

namespace Problem

variable {problem : Problem Int} {variant : Variant} {last : Option String}
  {first second : AlgorithmResult Int} {name : String}

/-- A result that passes the check of schedules, and in which the last operation starts no later
than in anything that passes it with the same interval. -/
structure Quickest (problem : Problem Int) (variant : Variant) (last : Option String)
    (result : AlgorithmResult Int) : Prop where
  names : result.starts.names = problem.operationNames
  valid : problem.checkSchedule result.starts.known result.interval variant = .ok ()
  earliest : ∀ name, last = some name → ∀ other,
    problem.checkSchedule other result.interval variant = .ok () →
      ∃ start later, result.starts.get? name = some start ∧
        other.get? name = some (some later) ∧ start ≤ later

/-- Two such results for the same interval have the last operation at the same start. -/
theorem Quickest.get?_eq (quickest : problem.Quickest variant last first)
    (another : problem.Quickest variant last second) (same : first.interval = second.interval)
    (isLast : last = some name) : first.starts.get? name = second.starts.get? name := by
  -- Each of them passes the check, so that the other one is not later.
  exact get?_eq_of_exists_later
    (quickest.earliest name isLast second.starts.known (same ▸ another.valid))
    (another.earliest name isLast first.starts.known (same ▸ quickest.valid))

end Problem

end CycleSchedule
