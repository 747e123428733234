import CycleSchedule.Proofs.Graph.OfProblem

/-! The sort of a checked problem's graph: it orders the operations where there is no cycle, and
names the operations of one where there is. -/

namespace CycleSchedule

namespace Graph

variable {ν : Type} {graph : Graph ν}

/-- Some edges form a cycle just when a walk over them comes back to its start. -/
theorem hasCycle_iff_exists_closed {edges : List (Dependence ν)} :
    HasCycle edges ↔ ∃ node walk, walk ≠ [] ∧ (∀ edge ∈ walk, edge ∈ edges) ∧
      Leads node walk node := by
  constructor
  · rintro ⟨walk, cycle⟩
    obtain ⟨node, closed⟩ := cycle.closed
    exact ⟨node, walk, cycle.nonempty, cycle.within, closed⟩
  · -- The walk may come to a node twice; then some part of it is a cycle.
    rintro ⟨node, walk, nonempty, within, closed⟩
    exact closed.exists_cycle_of_closed nonempty within

/-- The sort puts the source of every edge before its destination, or names the nodes of a cycle. -/
theorem Sound.topologicalOrder_cases (sound : graph.Sound) :
    (∃ order, graph.topologicalOrder = .ok order ∧ order.Perm graph.nodes ∧
      ∀ edge ∈ graph.edges, order.idxOf edge.source < order.idxOf edge.destination) ∨
    ∃ cycle, graph.topologicalOrder = .error (.cyclicDependence cycle) ∧
      Tour graph.edges cycle ∧ ∀ name ∈ cycle, name ∈ graph.nodes := by
  rcases sound.topologicalOrder with ⟨order, sorted, all, follows⟩ | ⟨cycle, isCycle, failed⟩
  · -- Every destination is in the order, and its source comes before it there.
    refine Or.inl ⟨order, sorted, all, fun edge member => ?_⟩
    have inside : edge.destination ∈ order := all.mem_iff.mpr (sound.destination edge member)
    exact (follows.idxOf_lt member inside).resolve_left (by simp)
  · exact Or.inr ⟨_, failed, isCycle.tour, List.forall_mem_map.mpr fun edge member =>
      sound.source edge (isCycle.within edge member)⟩

/-- The sort names a cycle just when there is one. -/
theorem Sound.exists_cyclicDependence_iff (sound : graph.Sound) :
    (∃ cycle, graph.topologicalOrder = .error (.cyclicDependence cycle)) ↔
      HasCycle graph.edges := by
  rcases sound.topologicalOrder with ⟨order, sorted, all, follows⟩ | ⟨cycle, isCycle, failed⟩
  · -- Where all nodes are in order, no cycle is in the way.
    have free : ¬HasCycle graph.edges := follows.not_hasCycle fun edge member =>
      all.mem_iff.mpr (sound.destination edge member)
    simp [sorted, free]
  · exact iff_of_true ⟨_, failed⟩ ⟨cycle, isCycle⟩

/-- The sort comes to its end within as many rounds as there are nodes. -/
theorem Sound.place_initialFrontier (sound : graph.Sound) {rounds : Nat}
    (enough : graph.nodes.length ≤ rounds) :
    graph.place rounds graph.initialFrontier =
      graph.place graph.nodes.length graph.initialFrontier := by
  -- At first nothing is in order, and all edges are still to be met.
  have all : graph.unmetEdges [] = graph.edges := by simp [unmetEdges]
  obtain ⟨more, rfl⟩ := Nat.exists_eq_add_of_le enough
  exact sound.place_add more _ [] _ (all.symm ▸ sound.tracks_initialFrontier) (by simp)
    List.nodup_nil (by simp)

end Graph

namespace Problem

/-- A loop of two operations, one of which waits for the other twice, a third one that waits for
itself and for the loop, and a fourth one that waits for nothing. -/
def knot : Problem Int :=
  ⟨"knot", [⟨"wire", 0, none⟩],
    [⟨"tail", "wire", none⟩, ⟨"left", "wire", none⟩, ⟨"right", "wire", none⟩,
      ⟨"free", "wire", none⟩],
    [⟨"left", "tail", 0⟩, ⟨"tail", "tail", 0⟩, ⟨"left", "right", 0⟩, ⟨"left", "right", 0⟩,
      ⟨"right", "left", 0⟩, ⟨"free", "left", 0⟩], none⟩

/-- The knot problem passes the check. -/
theorem check_knot : knot.values.check none = .ok () := by rfl

end Problem

/-- In the graph of a checked problem, of all dependences or of those within one iteration, the sort
comes to its end within as many rounds as there are operations. It gives all operations in an order
in which every edge points forward, or it names distinct operations, each joined to the next by an
edge and the last to the first; it does the latter just when some walk over edges comes back to its
start. -/
theorem topologicalOrder_is_exact {problem : Problem Value} {choice : Option Variant}
    (checked : problem.check choice = .ok ()) (zeroDistanceOnly : Bool) :
    ∃ graph : Graph Value, Graph.ofProblem problem zeroDistanceOnly = .ok graph ∧
      graph.nodes = problem.operationNames ∧
      (∀ rounds, graph.nodes.length ≤ rounds → graph.place rounds graph.initialFrontier =
        graph.place graph.nodes.length graph.initialFrontier) ∧
      ((∃ order, graph.topologicalOrder = .ok order ∧ order.Perm graph.nodes ∧
          ∀ edge ∈ graph.edges, order.idxOf edge.source < order.idxOf edge.destination) ∨
        ∃ cycle, graph.topologicalOrder = .error (.cyclicDependence cycle) ∧
          Tour graph.edges cycle ∧ ∀ name ∈ cycle, name ∈ graph.nodes) ∧
      ((∃ cycle, graph.topologicalOrder = .error (.cyclicDependence cycle)) ↔
        HasCycle graph.edges) ∧
      (HasCycle graph.edges ↔ ∃ node walk, walk ≠ [] ∧ (∀ edge ∈ walk, edge ∈ graph.edges) ∧
        Leads node walk node) := by
  obtain ⟨task, rfl, wellFormed, _⟩ := Problem.exists_values_of_check checked
  -- Edges run between operations, whatever the form of the quantities along them.
  have sound := (wellFormed.sound_graph zeroDistanceOnly).mapQuantities Value.int
  exact ⟨_, wellFormed.ofProblem_values zeroDistanceOnly, rfl,
    fun _ enough => sound.place_initialFrontier enough, sound.topologicalOrder_cases,
    sound.exists_cyclicDependence_iff, Graph.hasCycle_iff_exists_closed⟩

/-- The sort of the knot stops at its loop, which it meets on its way back from the tail. -/
theorem knot_names_loop :
    ∃ graph : Graph Value, Graph.ofProblem Problem.knot.values true = .ok graph ∧
      graph.topologicalOrder = .error (.cyclicDependence ["right", "left"]) ∧
      Tour graph.edges ["right", "left"] := by
  obtain ⟨graph, built, _, _, sorted, _⟩ := topologicalOrder_is_exact Problem.check_knot true
  have named : (Graph.ofProblem Problem.knot.values true >>= Graph.topologicalOrder) =
      .error (.cyclicDependence ["right", "left"]) := by rfl
  rw [built, ok_bind] at named
  -- So it is the second of the two ways to end.
  refine ⟨graph, built, named, ?_⟩
  rcases sorted with ⟨order, sorted, _⟩ | ⟨cycle, failed, tour, _⟩
  · cases sorted.symm.trans named
  · cases failed.symm.trans named
    exact tour

end CycleSchedule
