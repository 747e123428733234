import CycleSchedule.Problem.Validity

/-! The dependence graph of a problem: operations as nodes, dependences as edges. -/

namespace CycleSchedule

/-- Nodes and edges in the order of their registration, and a latency for every node. -/
structure Graph (ν : Type) where
  nodes : List String
  latencies : NameTable ν
  edges : List (Dependence ν)
deriving Repr

namespace Graph

variable {ν κ : Type}

/-- The edges that leave a node. -/
def successors (graph : Graph ν) (node : String) : List (Dependence ν) :=
  graph.edges.filter (·.source = node)

/-- The edges that enter a node. -/
def predecessors (graph : Graph ν) (node : String) : List (Dependence ν) :=
  graph.edges.filter (·.destination = node)

/-- A name, which has to be one of the nodes. -/
def requireNode (nodes : List String) (name : String) : Except Fault Unit :=
  if nodes.contains name then .ok () else .error (.missingName name)

/-- The graph of all dependences, or of those within one iteration only. -/
def ofProblem [Quantity ν κ] (problem : Problem ν) (zeroDistanceOnly : Bool) :
    Except Fault (Graph ν) := do
  let latencies ← problem.operations.mapM fun operation => do
    let operatorType ← problem.operatorTypeOf operation
    return (operation.name, operatorType.latency)
  let edges := problem.dependences.filter fun dependence =>
    !zeroDistanceOnly || Quantity.isZero dependence.distance
  edges.forM fun edge => do
    requireNode problem.operationNames edge.source
    requireNode problem.operationNames edge.destination
  return ⟨problem.operationNames, .ofPairs latencies, edges⟩

/-- The latency of a node. -/
def latency [Measure κ] (graph : Graph κ) (node : String) : κ :=
  -- A node without a latency of its own takes no time.
  (graph.latencies.get? node).getD (Measure.ofInt 0)

/-- The latency of a node as a measure, which it has to be. -/
def measuredLatency [Quantity ν κ] [Measure κ] (graph : Graph ν) (node : String) : Except Fault κ :=
  match graph.latencies.get? node with
  | some latency => Problem.measured latency
  | none => .ok (Measure.ofInt 0)

/-- The graph with measures for the latencies of some nodes and for all distances; other nodes have
no latency in it. -/
def measured [Quantity ν κ] [Measure κ] (graph : Graph ν) (nodes : List String) :
    Except Fault (Graph κ) := do
  -- Only the latencies that are asked for have to be measures.
  let latencies ← (graph.latencies.filter fun entry => nodes.contains entry.1).mapM fun entry => do
    let latency ← Problem.measured entry.2
    return (entry.1, latency)
  let edges ← graph.edges.mapM fun edge => do
    let distance ← Problem.measured edge.distance
    return (⟨edge.source, edge.destination, distance⟩ : Dependence κ)
  return ⟨graph.nodes, latencies, edges⟩

end Graph

end CycleSchedule
