import CycleSchedule.Proofs.Graph.Recurrence
import CycleSchedule.Proofs.Problem.Schedules
import CycleSchedule.Proofs.Scheduler.Interval

/-! Cycles within one iteration that take time: one of them is found if there is any, and no
interval makes up for it. -/

namespace CycleSchedule

namespace Problem

variable {problem : Problem Int}

/-- A cycle within one iteration takes time if the operation that it is told from does. -/
theorem WellFormed.recurs_of_cycle (wellFormed : problem.WellFormed) {edge : Dependence Int}
    {rest : List (Dependence Int)} (late : 0 < problem.latencyOf edge.source)
    (cycle : Cycle (problem.dependences.filter fun dependence => dependence.distance = 0)
      (edge :: rest)) : problem.Recurs := by
  refine ⟨_, cycle, ?_⟩
  -- No other operation takes time off.
  have others : 0 ≤ problem.duration rest := List.sum_nonneg fun latency member => by
    obtain ⟨dependence, _, rfl⟩ := List.mem_map.mp member
    exact wellFormed.latencyOf_nonneg dependence.source
  rw [duration, weight_cons]
  exact add_pos_of_pos_of_nonneg late others

/-- The search comes to its end without a cycle where none within one iteration takes time, and
otherwise with one that is told from an operation that does. -/
theorem WellFormed.infeasibleCycle_cases (wellFormed : problem.WellFormed) :
    problem.infeasibleCycle = .ok none ∧ ¬problem.Recurs ∨
    ∃ names first, problem.infeasibleCycle = .ok (some names) ∧ problem.Recurs ∧
      Tour (problem.dependences.filter fun dependence => dependence.distance = 0) names ∧
      (∀ name ∈ names, name ∈ problem.operationNames) ∧ names.head? = some first ∧
      0 < problem.latencyOf first := by
  -- Edges of the graph of one iteration are the dependences within it.
  have sound := wellFormed.sound_graph true
  have latency {dependence : Dependence Int} (member : dependence ∈ (problem.graph true).edges) :
      (problem.graph true).latency dependence.source = problem.latencyOf dependence.source :=
    latency_graph true (sound.source dependence member)
  obtain ⟨found, searched, complete⟩ := sound.firstCycle (problem.graph true).edges
    fun _ member => member
  have same : problem.infeasibleCycle = .ok found := by
    rw [infeasibleCycle, wellFormed.ofProblem, ok_bind, searched]
  rw [same]
  cases found with
  | none =>
    refine Or.inl ⟨rfl, fun ⟨cycle, isCycle, positive⟩ => ?_⟩
    -- Some edge of a cycle that takes time does so itself, and leads to a way back.
    obtain ⟨edge, member, slow, back, within, leads⟩ := isCycle.exists_back positive
    exact complete edge member (latency member ▸ slow) ⟨back, within, leads⟩ rfl
  | some names =>
    obtain ⟨edge, rest, late, isCycle, rfl⟩ :=
      Graph.exists_cycle_of_firstCycle _ (fun _ member => member) searched
    rw [latency (isCycle.within edge (by simp))] at late
    exact Or.inr ⟨_, edge.source, rfl, wellFormed.recurs_of_cycle late isCycle, isCycle.tour,
      List.forall_mem_map.mpr fun other member => sound.source other (isCycle.within other member),
      rfl, late⟩

/-- Where a cycle within one iteration takes time, no interval and no starts pass the check. -/
theorem WellFormed.checkSchedule_ne_ok_of_recurs (wellFormed : problem.WellFormed)
    (recurs : problem.Recurs) (given : NameTable (Option Int)) (recorded : Option Int) :
    problem.checkSchedule given recorded .cyclic ≠ .ok () := by
  intro passed
  obtain ⟨starts, interval, _, usable, respects, _⟩ := wellFormed.respects_of_checkSchedule passed
  -- Starts that pass would put an operation of the cycle after itself.
  have positive := (usableInterval_cyclic_eq_ok_iff.mp usable).2
  exact (respects.overlaps positive).not_recurs recurs

/-- The search among what a document registers is the one over whole numbers. -/
theorem infeasibleCycle_values (problem : Problem Int) :
    problem.values.infeasibleCycle = problem.infeasibleCycle := by
  rw [infeasibleCycle, Graph.ofProblem_values, bind_map_left]
  exact bind_congr fun graph => Graph.firstCycle_values graph graph.edges

/-- A sum that waits for itself after one iteration and for a wire within the same, which in turn
waits for the sum over another wire. -/
def tangle : Problem Int :=
  ⟨"tangle", [⟨"wire", 0, none⟩, ⟨"add", 1, none⟩],
    [⟨"there", "wire", none⟩, ⟨"sum", "add", none⟩, ⟨"back", "wire", none⟩],
    [⟨"there", "sum", 0⟩, ⟨"sum", "sum", 1⟩, ⟨"sum", "back", 0⟩, ⟨"back", "there", 0⟩], none⟩

/-- The tangle passes the check. -/
theorem check_tangle : tangle.values.check none = .ok () := by rfl

end Problem

/-- On every checked problem the search for a cycle of dependences within one iteration that takes
time comes to an end, and finds one just when there is one. It names distinct operations, each
joined to the next by a dependence within one iteration and the last to the first, and the first one
takes time. Then all starts are refused, whatever interval they come with. -/
theorem infeasibleCycle_is_exact {problem : Problem Value} {choice : Option Variant}
    (checked : problem.check choice = .ok ()) :
    ∃ (task : Problem Int) (found : Option (List String)), problem.whole = .ok task ∧
      problem.infeasibleCycle = .ok found ∧
      (found.isSome = true ↔ ∃ cycle,
        Cycle (task.dependences.filter fun dependence => dependence.distance = 0) cycle ∧
        0 < (cycle.map fun dependence => task.latencyOf dependence.source).sum) ∧
      ∀ names, found = some names →
        Tour (task.dependences.filter fun dependence => dependence.distance = 0) names ∧
        (∀ name ∈ names, name ∈ problem.operationNames) ∧
        (∃ first, names.head? = some first ∧ 0 < task.latencyOf first) ∧
        ∀ given recorded, ∃ defect,
          problem.checkSchedule given recorded .cyclic = .error (.invalidSchedule defect) := by
  obtain ⟨task, rfl, wellFormed, _⟩ := Problem.exists_values_of_check checked
  rw [Problem.infeasibleCycle_values]
  -- Either the search finds nothing and no such cycle exists, or it names one.
  rcases wellFormed.infeasibleCycle_cases with ⟨nothing, free⟩ |
    ⟨names, first, found, recurs, tour, known, isFirst, late⟩
  · exact ⟨task, none, task.whole_values, nothing, iff_of_false (by simp) free, by simp⟩
  · refine ⟨task, some names, task.whole_values, found, iff_of_true rfl recurs, ?_⟩
    rintro _ ⟨⟩
    refine ⟨tour, known, ⟨first, isFirst, late⟩, fun given recorded => ?_⟩
    rw [Problem.checkSchedule_values]
    exact wellFormed.exists_defect (wellFormed.checkSchedule_ne_ok_of_recurs recurs given recorded)

/-- No interval lets the sum of the tangle wait for itself over the wires. -/
theorem tangle_names_cycle :
    Problem.tangle.values.infeasibleCycle = .ok (some ["sum", "back", "there"]) ∧
      ∀ given recorded, ∃ defect, Problem.tangle.values.checkSchedule given recorded .cyclic =
        .error (.invalidSchedule defect) := by
  obtain ⟨task, found, _, searched, _, told⟩ := infeasibleCycle_is_exact Problem.check_tangle
  -- The search is evaluated, and what its answer means is read off the theorem.
  have named : Problem.tangle.values.infeasibleCycle = .ok (some ["sum", "back", "there"]) := by rfl
  exact ⟨named, (told _ (Except.ok.inj (searched.symm.trans named))).2.2.2⟩

end CycleSchedule
