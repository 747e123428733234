import CycleSchedule.Proofs.Graph.Order
import CycleSchedule.Proofs.Problem.Values

/-! The graph of a problem that is well formed: its edges run between its nodes, and it is the same
one whether quantities are read as registered or as whole numbers. -/

namespace CycleSchedule

/-- The dependence with its distance in another form. -/
def Dependence.mapDistance {ν μ : Type} (form : ν → μ) (dependence : Dependence ν) : Dependence μ :=
  ⟨dependence.source, dependence.destination, form dependence.distance⟩

namespace Graph

variable {ν μ : Type} {graph : Graph ν}

/-- The graph with its quantities in another form. -/
def mapQuantities (form : ν → μ) (graph : Graph ν) : Graph μ :=
  ⟨graph.nodes, graph.latencies.mapValues form, graph.edges.map (·.mapDistance form)⟩

/-- The form of its quantities does not matter to where edges run. -/
theorem Sound.mapQuantities (sound : graph.Sound) (form : ν → μ) :
    (graph.mapQuantities form).Sound where
  distinct := sound.distinct
  source := List.forall_mem_map.mpr sound.source
  destination := List.forall_mem_map.mpr sound.destination

/-- The graph of what a document registers is the one over whole numbers, as registered. -/
theorem ofProblem_values (problem : Problem Int) (zeroDistanceOnly : Bool) :
    ofProblem problem.values zeroDistanceOnly =
      mapQuantities Value.int <$> ofProblem problem zeroDistanceOnly := by
  -- The same latencies are looked up, and each of them is registered as a value.
  have latencies : (problem.operations.mapM fun operation => do
      let operatorType ← problem.values.operatorTypeOf operation
      return (operation.name, operatorType.latency)) =
        NameTable.mapValues Value.int <$> problem.operations.mapM fun operation => do
          let operatorType ← problem.operatorTypeOf operation
          return (operation.name, operatorType.latency) := by
    refine Eq.trans ?_ (mapM_map_each _ _ _)
    simp only [Problem.operatorTypeOf_values, bind_map_left, map_bind]
    rfl
  -- The same dependences are edges.
  have edges : (problem.values.dependences.filter fun dependence =>
      !zeroDistanceOnly || Quantity.isZero dependence.distance) =
        (problem.dependences.filter fun dependence =>
          !zeroDistanceOnly || Quantity.isZero dependence.distance).map (·.mapDistance .int) :=
    List.filter_map
  -- What is registered as a value changes no operation.
  have operations : problem.values.operations = problem.operations := rfl
  simp only [ofProblem, operations, latencies, edges, bind_map_left, map_bind, List.forM_eq_forM,
    List.forM_map, ← NameTable.mapValues_ofPairs]
  rfl

end Graph

namespace Problem

variable {problem : Problem Int}

/-- The graph of a well-formed problem is sound. -/
theorem WellFormed.sound_graph (wellFormed : problem.WellFormed) (zeroDistanceOnly : Bool) :
    (problem.graph zeroDistanceOnly).Sound where
  distinct := wellFormed.operations
  source edge member := (wellFormed.endpoints edge (List.mem_filter.mp member).1).1
  destination edge member := (wellFormed.endpoints edge (List.mem_filter.mp member).1).2

/-- The graph of what a document registers can be built too. -/
theorem WellFormed.ofProblem_values (wellFormed : problem.WellFormed) (zeroDistanceOnly : Bool) :
    Graph.ofProblem problem.values zeroDistanceOnly =
      .ok ((problem.graph zeroDistanceOnly).mapQuantities Value.int) := by
  rw [Graph.ofProblem_values, wellFormed.ofProblem]
  rfl

end Problem

end CycleSchedule
