import CycleSchedule.Proofs.Graph.Demand
import CycleSchedule.Proofs.Graph.OfProblem

/-! The search for a positive cycle in the graph of a checked problem finds one just when there is
one. Levels rise among numbers of every kind as they do among integers. -/

namespace CycleSchedule

namespace Graph

variable {ν μ κ : Type} {graph : Graph Int} {interval : Int}

/-- The graph that knows no latencies but those of some nodes. -/
def knowing (graph : Graph ν) (nodes : List String) : Graph ν :=
  { graph with latencies := graph.latencies.filter fun entry => nodes.contains entry.1 }

/-- Quantities that are measured one by one are measured so in a graph, where they are needed. -/
theorem measured_mapQuantities [Quantity μ κ] [Measure κ] {form : Int → μ} {number : Int → κ}
    (each : ∀ n, (Problem.measured (form n) : Except Fault κ) = .ok (number n))
    (graph : Graph Int) (nodes : List String) :
    (graph.mapQuantities form).measured nodes =
      .ok ((graph.knowing nodes).mapQuantities number) := by
  -- The latencies that are kept are those of the same nodes.
  have kept : ((graph.mapQuantities form).latencies.filter fun entry => nodes.contains entry.1) =
      NameTable.mapValues form (graph.knowing nodes).latencies :=
    List.filter_map
  have latencies : ((NameTable.mapValues form (graph.knowing nodes).latencies).mapM fun entry => do
      let latency ← Problem.measured entry.2
      return (entry.1, latency) : Except Fault (NameTable κ)) =
        .ok (NameTable.mapValues number (graph.knowing nodes).latencies) := by
    rw [NameTable.mapValues, List.mapM_map]
    exact mapM_ok _ fun entry _ => by simp [each]
  -- The distances are read in the same way, edge by edge.
  have edges : ((graph.mapQuantities form).edges.mapM fun edge => do
      let distance ← Problem.measured edge.distance
      return ⟨edge.source, edge.destination, distance⟩ : Except Fault (List (Dependence κ))) =
        .ok (graph.edges.map (·.mapDistance number)) := by
    rw [mapQuantities, List.mapM_map]
    exact mapM_ok _ fun edge _ => by simp [each, Dependence.mapDistance]
  simp only [measured, kept, latencies, edges, ok_bind]
  rfl

/-- Mapping with the identity changes nothing. -/
theorem mapQuantities_id (graph : Graph ν) : graph.mapQuantities id = graph := by
  obtain ⟨nodes, latencies, edges⟩ := graph
  simp [mapQuantities, NameTable.mapValues, Dependence.mapDistance]

/-- Over whole numbers a graph is measured already, but for latencies that are not asked for. -/
theorem measured_eq_knowing (graph : Graph Int) (nodes : List String) :
    graph.measured nodes = .ok (graph.knowing nodes) := by
  have each (n : Int) : (Problem.measured (id n) : Except Fault Int) = .ok (id n) := measured_int n
  have measured := measured_mapQuantities each graph nodes
  rwa [mapQuantities_id, mapQuantities_id] at measured

/-- Levels that are read as numbers are the integer levels. -/
theorem levelOf_whole (levels : NameTable Int) (node : String) :
    levelOf (levels.mapValues Number.whole) node = .whole (levelOf levels node) := by
  rw [levelOf, NameTable.get?_mapValues, levelOf]
  cases levels.get? node <;> rfl

/-- Latencies that are read as numbers are the integer latencies. -/
theorem latency_whole (node : String) :
    (graph.mapQuantities Number.whole).latency node = .whole (graph.latency node) := by
  rw [latency, mapQuantities, NameTable.get?_mapValues, latency]
  cases graph.latencies.get? node <;> rfl

/-- Levels among numbers that stand for levels among integers. -/
def wholeLevels (state : NameTable Int × Bool) : NameTable Number × Bool :=
  (state.1.mapValues .whole, state.2)

/-- An edge raises a level among numbers where it does so among integers, and to the same one. -/
theorem raise_whole (graph : Graph Int) (interval : Int) (state : NameTable Int × Bool)
    (edge : Dependence Int) :
    (graph.mapQuantities Number.whole).raise (.whole interval) (wholeLevels state)
        (edge.mapDistance .whole) = wholeLevels (graph.raise interval state edge) := by
  obtain ⟨levels, changed⟩ := state
  -- Both ask for the same level, and the level that there is is compared with it alike.
  have asked : (graph.mapQuantities Number.whole).asked (.whole interval)
      (levelOf (levels.mapValues Number.whole) edge.source) (edge.mapDistance .whole) =
        .whole (graph.asked interval (levelOf levels edge.source) edge) := by
    simp only [Graph.asked, levelOf_whole, latency_whole, Dependence.mapDistance, Number.whole_add,
      Number.whole_sub, Number.whole_mul]
  -- So one is too low just where the other is.
  have low : levelOf (levels.mapValues Number.whole) edge.destination <
      (graph.mapQuantities Number.whole).asked (.whole interval)
        (levelOf (levels.mapValues Number.whole) edge.source) (edge.mapDistance .whole) ↔
      levelOf levels edge.destination < graph.asked interval (levelOf levels edge.source) edge := by
    rw [asked, levelOf_whole]
    exact Number.whole_lt_iff
  refine (if_congr low rfl rfl).trans ?_
  rw [raise]
  split
  · -- The level that is put is the same one.
    refine congrArg (·, true) (Eq.trans ?_ (NameTable.mapValues_put _ levels _ _).symm)
    exact congrArg (NameTable.put _ edge.destination) asked
  · rfl

/-- Read as numbers, the levels rise in just the rounds in which the integers do. -/
theorem keepsRising_whole (rounds : Nat) (levels : NameTable Int) :
    (graph.mapQuantities Number.whole).keepsRising (.whole interval) rounds
        (levels.mapValues Number.whole) =
      graph.keepsRising interval rounds levels := by
  -- By induction on the rounds: one of them raises the same levels among numbers and integers.
  induction rounds generalizing levels with
  | zero => rfl
  | succ rounds ih =>
    -- One round over the edges does the same to both.
    have round : (graph.mapQuantities Number.whole).edges.foldl
        ((graph.mapQuantities Number.whole).raise (.whole interval))
          (levels.mapValues Number.whole, false) =
        wholeLevels (graph.edges.foldl (graph.raise interval) (levels, false)) := by
      have edges : (graph.mapQuantities Number.whole).edges =
          graph.edges.map (·.mapDistance .whole) := rfl
      rw [edges, List.foldl_map]
      change List.foldl _ (wholeLevels (levels, false)) _ = _
      exact List.foldl_hom wholeLevels (raise_whole graph interval)
    simp only [keepsRising, round, wholeLevels, ih]

/-- The search finds a positive cycle among numbers just when it does so among integers. -/
theorem hasPositiveCycle_whole :
    (graph.mapQuantities Number.whole).hasPositiveCycle (.whole interval) =
      graph.hasPositiveCycle interval := by
  -- All levels start at zero, whatever the kind of numbers.
  have start : NameTable.ofPairs ((graph.mapQuantities Number.whole).nodes.map fun node =>
      (node, (Measure.ofInt 0 : Number))) =
        (NameTable.ofPairs (graph.nodes.map fun node => (node, 0))).mapValues .whole := by
    rw [NameTable.mapValues_ofPairs]
    simp only [NameTable.mapValues, List.map_map]
    rfl
  -- A graph without edges stays one.
  have edges : (graph.mapQuantities Number.whole).edges.isEmpty = graph.edges.isEmpty :=
    List.isEmpty_map
  rw [hasPositiveCycle, start, edges, keepsRising_whole]
  rfl

/-- Among the nodes that are kept the latencies are those of the graph. -/
theorem latency_knowing {nodes : List String} {node : String} (member : node ∈ nodes) :
    (graph.knowing nodes).latency node = graph.latency node := by
  rw [latency, latency, knowing, NameTable.get?_filter_contains, if_pos member]

/-- Whether a cycle asks for too much is a matter of the latencies of the nodes that edges leave. -/
theorem exceeds_knowing_sources :
    (graph.knowing (graph.edges.map (·.source))).Exceeds interval ↔ graph.Exceeds interval := by
  refine exists_congr fun cycle => and_congr_right fun isCycle => ?_
  -- Every edge of the cycle asks for as much in either graph.
  have same : weight ((graph.knowing (graph.edges.map (·.source))).demand interval) cycle =
      weight (graph.demand interval) cycle := by
    refine congrArg List.sum (List.map_congr_left fun edge member => ?_)
    have known : edge.source ∈ graph.edges.map (·.source) :=
      List.mem_map_of_mem (isCycle.within edge member)
    rw [demand, demand, latency_knowing known]
  rw [same]

/-- Forgetting latencies leaves the nodes and the edges as they are. -/
theorem Sound.knowing (sound : graph.Sound) (nodes : List String) : (graph.knowing nodes).Sound :=
  ⟨sound.distinct, sound.source, sound.destination⟩

/-- Only the nodes that edges leave matter to the search for a positive cycle. -/
theorem Sound.hasPositiveCycle_knowing_sources (sound : graph.Sound) :
    (graph.knowing (graph.edges.map (·.source))).hasPositiveCycle interval =
      graph.hasPositiveCycle interval := by
  rw [Bool.eq_iff_iff, (sound.knowing _).hasPositiveCycle_iff, sound.hasPositiveCycle_iff,
    exceeds_knowing_sources]

/-- Some walk along edges that comes back to its start asks for more than an interval gives just
when a cycle does. -/
theorem exceeds_iff_exists_closed : graph.Exceeds interval ↔
    ∃ node walk, (∀ edge ∈ walk, edge ∈ graph.edges) ∧ Leads node walk node ∧
      0 < weight (graph.demand interval) walk := by
  constructor
  · rintro ⟨cycle, isCycle, positive⟩
    obtain ⟨node, closed⟩ := isCycle.closed
    exact ⟨node, cycle, isCycle.within, closed, positive⟩
  · -- A closed walk falls into cycles, and not all of them can be without weight.
    rintro ⟨node, walk, within, closed, positive⟩
    exact closed.exists_cycle _ within positive

end Graph

namespace Problem

variable {problem : Problem Int} {interval : Int}

/-- The graph of a registered problem is searched as the graph over whole numbers is. -/
theorem WellFormed.exceedsInterval_values (wellFormed : problem.WellFormed)
    (zeroDistanceOnly : Bool) (interval : Int) :
    problem.values.exceedsInterval zeroDistanceOnly interval =
      .ok ((problem.graph zeroDistanceOnly).hasPositiveCycle interval) := by
  -- The sources are names, which have no quantities in them.
  have sources : ((problem.graph zeroDistanceOnly).mapQuantities Value.int).edges.map (·.source) =
      (problem.graph zeroDistanceOnly).edges.map (·.source) :=
    List.map_map
  -- Only the latencies of sources are measured, and all of them are whole numbers.
  have measured : ((problem.graph zeroDistanceOnly).mapQuantities Value.int).measured
      ((problem.graph zeroDistanceOnly).edges.map (·.source)) =
        .ok (((problem.graph zeroDistanceOnly).knowing
          ((problem.graph zeroDistanceOnly).edges.map (·.source))).mapQuantities Number.whole) :=
    Graph.measured_mapQuantities (fun _ => rfl) _ _
  rw [exceedsInterval, wellFormed.ofProblem_values, ok_bind, sources, measured, ok_bind,
    Number.ofInt_eq, Graph.hasPositiveCycle_whole,
    (wellFormed.sound_graph zeroDistanceOnly).hasPositiveCycle_knowing_sources]
  rfl

/-- A sum and a product that goes back into the sum of the next iteration. -/
def echo : Problem Int :=
  ⟨"echo", [⟨"adder", 1, none⟩, ⟨"multiplier", 2, none⟩],
    [⟨"sum", "adder", none⟩, ⟨"product", "multiplier", none⟩],
    [⟨"sum", "product", 0⟩, ⟨"product", "sum", 1⟩], none⟩

/-- The echo problem passes the check for cyclic schedules. -/
theorem check_echo : echo.values.check (some .cyclic) = .ok () := by rfl

end Problem

/-- In the graph of a checked problem, of all dependences or of those within one iteration, a
positive cycle is found just when there is one, that is, one whose latencies, less the interval as
many times as its distances say, add up to more than zero. Walks that come back to their start and
pass a node more than once make no difference. -/
theorem hasPositiveCycle_is_exact {problem : Problem Value} {choice : Option Variant}
    (checked : problem.check choice = .ok ()) (zeroDistanceOnly : Bool) (interval : Int) :
    ∃ (task : Problem Int) (graph : Graph Int), problem.whole = .ok task ∧
      Graph.ofProblem task zeroDistanceOnly = .ok graph ∧
      problem.exceedsInterval zeroDistanceOnly interval =
        .ok (graph.hasPositiveCycle interval) ∧
      (graph.hasPositiveCycle interval = true ↔ ∃ cycle, Cycle graph.edges cycle ∧
        0 < (cycle.map fun edge =>
          graph.latency edge.source - interval * edge.distance).sum) ∧
      (graph.hasPositiveCycle interval = true ↔ ∃ node walk,
        (∀ edge ∈ walk, edge ∈ graph.edges) ∧ Leads node walk node ∧
          0 < (walk.map fun edge =>
            graph.latency edge.source - interval * edge.distance).sum) := by
  obtain ⟨task, rfl, wellFormed, _⟩ := Problem.exists_values_of_check checked
  -- Raising the levels finds out whether a cycle asks for more than the interval gives.
  have detects : (task.graph zeroDistanceOnly).hasPositiveCycle interval = true ↔
      (task.graph zeroDistanceOnly).Exceeds interval :=
    (wellFormed.sound_graph zeroDistanceOnly).hasPositiveCycle_iff
  exact ⟨task, task.graph zeroDistanceOnly, task.whole_values,
    wellFormed.ofProblem zeroDistanceOnly,
    wellFormed.exceedsInterval_values zeroDistanceOnly interval, detects,
    detects.trans Graph.exceeds_iff_exists_closed⟩

/-- Three cycles of latency over a distance of one are too much for an interval of two. -/
theorem echo_exceeds_two : ∃ graph, Graph.ofProblem Problem.echo false = .ok graph ∧
    ∃ cycle, Cycle graph.edges cycle ∧
      0 < (cycle.map fun edge => graph.latency edge.source - 2 * edge.distance).sum := by
  -- The answer for the interval 2 is evaluated, and the theorem turns it into a cycle.
  obtain ⟨task, graph, whole, built, searched, simple, _⟩ :=
    hasPositiveCycle_is_exact Problem.check_echo false 2
  obtain rfl := Except.ok.inj (Problem.echo.whole_values.symm.trans whole)
  have found : Problem.echo.values.exceedsInterval false 2 = .ok true := by rfl
  exact ⟨graph, built, simple.mp (Except.ok.inj (searched.symm.trans found))⟩

end CycleSchedule
