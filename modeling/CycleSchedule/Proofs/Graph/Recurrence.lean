import CycleSchedule.Proofs.Graph.OfProblem
import CycleSchedule.Proofs.Graph.Path

/-! The search for a cycle with a positive latency ends, and finds one if there is one. What it
finds is a cycle, told from an operation that takes time. -/

namespace CycleSchedule.Graph

variable {graph : Graph Int} {edge : Dependence Int}

/-- Latencies that are whole numbers are measured already. -/
theorem measuredLatency_int (graph : Graph Int) (node : String) :
    graph.measuredLatency node = .ok (graph.latency node) := by
  unfold measuredLatency latency
  -- A node without a latency has none to be read.
  cases graph.latencies.get? node with
  | none => rfl
  | some latency => exact measured_int latency

/-- A walk back to the source of an edge. -/
def Returns (graph : Graph Int) (edge : Dependence Int) : Prop :=
  ∃ back, (∀ other ∈ back, other ∈ graph.edges) ∧ Leads edge.destination back edge.source

/-- Where no time is taken, the search does not even begin. -/
theorem cycleThrough_of_nonpos (instant : graph.latency edge.source ≤ 0) :
    graph.cycleThrough edge = .ok none := by
  simp only [Graph.cycleThrough, measuredLatency_int, ok_bind]
  exact if_pos instant

/-- Where time is taken, the search is for a path back. -/
theorem cycleThrough_of_pos (late : 0 < graph.latency edge.source) :
    graph.cycleThrough edge = (graph.path edge.destination edge.source).map fun back =>
      back.map fun nodes => edge.source :: nodes.dropLast := by
  simp only [Graph.cycleThrough, measuredLatency_int, ok_bind]
  rw [if_neg (show ¬graph.latency edge.source ≤ Measure.ofInt 0 from not_le.mpr late)]
  cases graph.path edge.destination edge.source <;> rfl

/-- A cycle is found through each edge of positive latency from which a walk leads back. -/
theorem Sound.cycleThrough (sound : graph.Sound) (member : edge ∈ graph.edges) :
    ∃ found, graph.cycleThrough edge = .ok found ∧
      (0 < graph.latency edge.source → graph.Returns edge → found ≠ none) := by
  rcases le_or_gt (graph.latency edge.source) 0 with instant | late
  · exact ⟨none, cycleThrough_of_nonpos instant, fun positive =>
      absurd positive (not_lt.mpr instant)⟩
  · rw [cycleThrough_of_pos late]
    -- The search for a path fails only if no walk leads back at all.
    rcases sound.path (sound.destination edge member) edge.source with ⟨path, found⟩ |
      ⟨nothing, out⟩
    · rw [found]
      exact ⟨_, rfl, fun _ _ => by simp⟩
    · rw [nothing]
      exact ⟨none, rfl, fun _ ⟨back, within, leads⟩ => absurd leads (out back within)⟩

/-- What is found through an edge is a cycle that begins with the edge, and the edge takes time. -/
theorem exists_cycle_of_cycleThrough {names : List String} (member : edge ∈ graph.edges)
    (found : graph.cycleThrough edge = .ok (some names)) :
    0 < graph.latency edge.source ∧ ∃ rest, Cycle graph.edges (edge :: rest) ∧
      (edge :: rest).map (·.source) = names := by
  rcases le_or_gt (graph.latency edge.source) 0 with instant | late
  · rw [cycleThrough_of_nonpos instant] at found
    cases found
  · refine ⟨late, ?_⟩
    rw [cycleThrough_of_pos late] at found
    -- The path back is closed by the edge, and so is a cycle with it.
    cases searched : graph.path edge.destination edge.source with
    | error fault =>
      rw [searched] at found
      cases found
    | ok back =>
      rw [searched] at found
      obtain ⟨nodes, rfl, rfl⟩ := Option.map_eq_some_iff.mp (Except.ok.inj found)
      exact (connects_of_path searched).exists_cycle member

/-- The search through all edges finds a cycle if it does so for one of them. -/
theorem Sound.firstCycle (sound : graph.Sound) : ∀ edges : List (Dependence Int),
    (∀ edge ∈ edges, edge ∈ graph.edges) → ∃ found, graph.firstCycle edges = .ok found ∧
      ∀ edge ∈ edges, 0 < graph.latency edge.source → graph.Returns edge → found ≠ none := by
  intro edges
  -- By induction on the edges still to be tried.
  induction edges with
  | nil => exact fun _ => ⟨none, rfl, by simp⟩
  | cons edge edges ih =>
    intro within
    obtain ⟨found, searched, here⟩ := sound.cycleThrough (within edge (by simp))
    rw [Graph.firstCycle, searched, ok_bind]
    cases found with
    | some cycle => exact ⟨some cycle, rfl, fun _ _ _ _ => by simp⟩
    | none =>
      -- Nothing runs through the first edge, so it is up to the others.
      obtain ⟨found, rest, there⟩ := ih fun other member =>
        within other (List.mem_cons_of_mem _ member)
      refine ⟨found, rest, fun other member positive returns => ?_⟩
      rcases List.mem_cons.mp member with rfl | later
      · exact absurd rfl (here positive returns)
      · exact there other later positive returns

/-- What the search through all edges finds is a cycle, told from an operation that takes time. -/
theorem exists_cycle_of_firstCycle {names : List String} : ∀ edges : List (Dependence Int),
    (∀ edge ∈ edges, edge ∈ graph.edges) → graph.firstCycle edges = .ok (some names) →
      ∃ edge rest, 0 < graph.latency edge.source ∧ Cycle graph.edges (edge :: rest) ∧
        (edge :: rest).map (·.source) = names := by
  intro edges
  induction edges with
  | nil => simp [Graph.firstCycle]
  | cons edge edges ih =>
    intro within searched
    obtain ⟨member, others⟩ := List.forall_mem_cons.mp within
    obtain ⟨found, here, there⟩ := bind_eq_ok_iff.mp searched
    -- It is found through the first edge, or else through one of the others.
    cases found with
    | some cycle =>
      obtain rfl := Option.some.inj (Except.ok.inj there)
      obtain ⟨late, rest, isCycle, told⟩ := exists_cycle_of_cycleThrough member here
      exact ⟨edge, rest, late, isCycle, told⟩
    | none => exact ih others there

variable {ν μ : Type}

/-- Mapping the distances keeps the edges that leave a node. -/
theorem successors_mapQuantities (form : ν → μ) (graph : Graph ν) (node : String) :
    (graph.mapQuantities form).successors node =
      (graph.successors node).map (·.mapDistance form) :=
  List.filter_map

/-- A path does not depend on the form of quantities. -/
theorem search_mapQuantities (form : ν → μ) (graph : Graph ν) (destination : String) :
    ∀ fuel trails met, (graph.mapQuantities form).search destination fuel trails met =
      graph.search destination fuel trails met := by
  -- By induction on the fuel: edges run alike, so each trail is extended alike.
  have extend (trail : Trail) (met : List String) :
      (graph.mapQuantities form).extend trail met = graph.extend trail met := by
    rw [Graph.extend, successors_mapQuantities, List.foldl_map]
    rfl
  have nodes : (graph.mapQuantities form).nodes = graph.nodes := rfl
  intro fuel
  induction fuel with
  | zero => exact fun _ _ => rfl
  | succ fuel ih =>
    intro trails met
    cases trails with
    | nil => rfl
    | cons trail trails => simp only [Graph.search, extend, nodes, ih]

/-- Latencies that are registered as values are measured as whole numbers. -/
theorem measuredLatency_values (graph : Graph Int) (node : String) :
    (graph.mapQuantities Value.int).measuredLatency node = .ok (.whole (graph.latency node)) := by
  rw [measuredLatency, mapQuantities, NameTable.get?_mapValues, latency]
  cases graph.latencies.get? node <;> rfl

/-- The search for a cycle through an edge does not look at the form of distances. -/
theorem cycleThrough_values (graph : Graph Int) (edge : Dependence Int) :
    (graph.mapQuantities Value.int).cycleThrough (edge.mapDistance Value.int) =
      graph.cycleThrough edge := by
  have path : (graph.mapQuantities Value.int).path edge.destination edge.source =
      graph.path edge.destination edge.source :=
    search_mapQuantities _ _ _ _ _ _
  -- The same latency is compared with zero, and the same path is searched for.
  simp only [Graph.cycleThrough, Dependence.mapDistance, measuredLatency_values,
    measuredLatency_int, ok_bind, Number.ofInt_eq, Number.whole_le_iff, ofInt_int, path]

/-- The search among what a document registers is the one over whole numbers. -/
theorem firstCycle_values (graph : Graph Int) (edges : List (Dependence Int)) :
    (graph.mapQuantities Value.int).firstCycle (edges.map (·.mapDistance Value.int)) =
      graph.firstCycle edges := by
  induction edges with
  | nil => rfl
  | cons edge edges ih =>
    -- Each edge is searched alike, and the first that leads to a cycle ends both searches.
    simp only [List.map_cons, Graph.firstCycle, cycleThrough_values, ih]

end CycleSchedule.Graph
