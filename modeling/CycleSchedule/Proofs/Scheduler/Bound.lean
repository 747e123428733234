import CycleSchedule.Proofs.Graph.PositiveCycle
import CycleSchedule.Proofs.Scheduler.Cyclic

/-! The bound that recurrences set on the interval is the interval that scheduling of overlapping
iterations finds, the least one with valid start times, and there is none where scheduling fails.
-/

namespace CycleSchedule

namespace Problem

variable {problem : Problem Int}

/-- Over whole numbers a graph is measured already. -/
theorem measured_graph (problem : Problem Int) :
    (problem.graph false).measured (problem.graph false).nodes = .ok (problem.graph false) := by
  -- Every node counts, so no latency is left out.
  have all : (problem.graph false).latencies.filter
      (fun entry => (problem.graph false).nodes.contains entry.1) =
        (problem.graph false).latencies := by
    refine List.filter_eq_self.mpr fun entry member => ?_
    obtain ⟨name, known, rfl⟩ := List.mem_map.mp member
    simpa [graph] using known
  rw [Graph.measured_eq_knowing, Graph.knowing, all]

/-- The latencies of the graph sum up to those of the operations. -/
theorem totalLatency_graph (problem : Problem Int) :
    (problem.graph false).totalLatency = (problem.operationNames.map problem.latencyOf).sum := by
  show (problem.operationNames.map fun name => (name, problem.latencyOf name)).foldl
    (fun total entry => total + entry.2) 0 = _
  rw [List.sum_eq_foldl, List.foldl_map, List.foldl_map]

/-- No cycle takes longer than all operations together, since it leaves none of them twice. -/
theorem WellFormed.duration_le_totalLatency (wellFormed : problem.WellFormed)
    {cycle : List (Dependence Int)} (isCycle : Cycle (problem.graph false).edges cycle) :
    weight (fun dependence => (problem.graph false).latency dependence.source) cycle ≤
      (problem.graph false).totalLatency := by
  -- The sources of a cycle are distinct operations, and no latency is negative.
  have sources : cycle.map (·.source) ⊆ problem.operationNames := by
    intro name member
    obtain ⟨dependence, inside, rfl⟩ := List.mem_map.mp member
    exact (wellFormed.sound_graph false).source dependence (isCycle.within dependence inside)
  calc weight (fun dependence => (problem.graph false).latency dependence.source) cycle
      = ((cycle.map (·.source)).map (problem.graph false).latency).sum := by
        simp [weight, Function.comp_def]
    _ = ((cycle.map (·.source)).map problem.latencyOf).sum := by
        rw [List.map_congr_left fun name member => latency_graph false (sources member)]
    _ ≤ (problem.operationNames.map problem.latencyOf).sum :=
        sum_map_le_of_subset isCycle.distinct sources fun name _ => wellFormed.latencyOf_nonneg name
    _ = (problem.graph false).totalLatency := (totalLatency_graph problem).symm

/-- The bound is the least interval that does, and there is none if no interval does. -/
theorem WellFormed.minimumInterval_cases (wellFormed : problem.WellFormed) :
    (∃ least, problem.minimumInterval = .ok (some least) ∧ IsLeast problem.Intervals least) ∨
      problem.minimumInterval = .ok none ∧ problem.Intervals = ∅ := by
  have searched : problem.minimumInterval = .ok (problem.graph false).minimumInterval := by
    simp only [minimumInterval, wellFormed.ofProblem, ok_bind, measured_graph]
    rfl
  have intervals : problem.Intervals =
      {interval | 1 ≤ interval ∧ ¬(problem.graph false).Exceeds interval} :=
    Set.ext fun interval => wellFormed.mem_intervals
  rw [searched, intervals]
  -- The edges are dependences, whose distances the check has seen.
  have distances : ∀ edge ∈ (problem.graph false).edges, 0 ≤ edge.distance := fun edge member =>
    wellFormed.distances edge (List.mem_filter.mp member).1
  rcases Graph.minimumInterval_cases (wellFormed.sound_graph false) distances
    (fun cycle isCycle => wellFormed.duration_le_totalLatency isCycle) with
    ⟨least, found, isLeast⟩ | ⟨nothing, exceeds⟩
  · exact Or.inl ⟨least, by rw [found], isLeast⟩
  · -- Where every interval is exceeded, none is left.
    exact Or.inr ⟨by rw [nothing], Set.eq_empty_iff_forall_notMem.mpr fun interval does =>
      does.2 (exceeds interval)⟩

/-- Two operations of three cycles together, with a result that is needed two iterations later. -/
def feedback : Problem Int :=
  ⟨"feedback", [⟨"mul", 2, none⟩, ⟨"add", 1, none⟩], [⟨"scale", "mul", none⟩, ⟨"sum", "add", none⟩],
    [⟨"scale", "sum", 0⟩, ⟨"sum", "scale", 2⟩], none⟩

/-- The feedback problem passes the check for cyclic schedules. -/
theorem check_feedback : feedback.values.check (some .cyclic) = .ok () := by
  refine check_values_iff.mpr ⟨⟨?_, ?_, ?_, ?_, ?_, ?_, ?_⟩, ?_⟩ <;>
    simp [feedback, operationNames, Fits]

end Problem

/-- Three cycles every two iterations take an interval of two. -/
example : Problem.feedback.minimumInterval = .ok (some 2) := by rfl

/-- For every checked problem the bound on the interval is one at least, some start times are valid
for it, and none are valid for a lower interval; without a bound there are no valid start times for
any interval. -/
theorem minimumInterval_is_exact {problem : Problem Value}
    (checked : problem.check (some .cyclic) = .ok ()) :
    ∃ (task : Problem Int) (bound : Option Int), problem.whole = .ok task ∧
      task.minimumInterval = .ok bound ∧
      (∀ least, bound = some least → 1 ≤ least ∧
        (∃ starts, task.checkSchedule starts (some least) .cyclic = .ok ()) ∧
        ∀ interval < least, ∀ starts,
          task.checkSchedule starts (some interval) .cyclic ≠ .ok ()) ∧
      (bound = none → ∀ interval starts,
        task.checkSchedule starts (some interval) .cyclic ≠ .ok ()) := by
  obtain ⟨task, rfl, wellFormed, _⟩ := Problem.exists_values_of_check checked
  have valid (interval : Int) : interval ∈ task.Intervals ↔
      ∃ starts, task.checkSchedule starts (some interval) .cyclic = .ok () :=
    wellFormed.mem_intervals_iff_checkSchedule
  rcases wellFormed.minimumInterval_cases with ⟨bound, searched, isLeast⟩ | ⟨searched, empty⟩
  · refine ⟨task, some bound, task.whole_values, searched, ?_, by simp⟩
    rintro _ ⟨⟩
    refine ⟨Problem.one_le_of_mem_intervals isLeast.1, (valid bound).mp isLeast.1,
      fun interval lower starts passed => ?_⟩
    -- A lower interval that does would be one below the least.
    exact absurd (isLeast.2 ((valid interval).mpr ⟨starts, passed⟩)) (not_le.mpr lower)
  · refine ⟨task, none, task.whole_values, searched, by simp, fun _ interval starts passed => ?_⟩
    have does := (valid interval).mpr ⟨starts, passed⟩
    exact Set.notMem_empty interval (empty ▸ does)

/-- The feedback problem has a bound, and it is exact. -/
theorem feedback_interval_is_exact :
    ∃ (task : Problem Int) (bound : Option Int), Problem.feedback.values.whole = .ok task ∧
      task.minimumInterval = .ok bound ∧
      (∀ least, bound = some least → 1 ≤ least ∧
        (∃ starts, task.checkSchedule starts (some least) .cyclic = .ok ()) ∧
        ∀ interval < least, ∀ starts,
          task.checkSchedule starts (some interval) .cyclic ≠ .ok ()) ∧
      (bound = none → ∀ interval starts,
        task.checkSchedule starts (some interval) .cyclic ≠ .ok ()) :=
  minimumInterval_is_exact Problem.check_feedback

end CycleSchedule
