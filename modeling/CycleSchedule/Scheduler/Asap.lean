import CycleSchedule.Graph.Order
import CycleSchedule.Journal.Narrated
import CycleSchedule.Scheduler.Result

/-! Every operation as soon as the results it needs are available, whatever the limits. -/

namespace CycleSchedule

/-- The cycles at which the results that a node needs are available. -/
def Graph.readyCycles {ν κ : Type} [Quantity ν κ] [Measure κ] (graph : Graph ν)
    (starts : NameTable κ) (node : String) : Except Fault (List κ) :=
  (graph.predecessors node).mapM fun edge => do
    -- All predecessors have been started by now, since the order is a topological one.
    let start ← Problem.startOf starts edge.source
    let latency ← graph.measuredLatency edge.source
    return start + latency

namespace Asap

variable {ν κ : Type} [Quantity ν κ] [Measure κ]

/-- Starts the nodes of a list one after the other, given the starts of all nodes before. -/
def startInOrder (graph : Graph ν) (starts : NameTable κ) : List String → Narrated (NameTable κ)
  | [] => .done starts
  | node :: nodes => do
    let ready ← graph.readyCycles starts node
    -- A node without predecessors starts in cycle 0.
    let start := ready.foldl Measure.later (Measure.ofInt 0)
    Narrated.tell [.scheduled node (Measure.number start)]
    startInOrder graph (starts.put node start) nodes

/-- The start times of all operations, each the earliest there is. -/
def schedule (problem : Problem ν) : Narrated (AlgorithmResult κ) := do
  let graph ← Graph.ofProblem problem true
  let order ← graph.topologicalOrder
  let starts ← startInOrder graph [] order
  -- The starts are handed back in the order of registration and not in the one of the work.
  let inPlace ← (graph.nodes.mapM fun node => do
    let start ← Problem.startOf starts node
    return (node, start) : Except Fault (List (String × κ)))
  return ⟨.ofPairs inPlace, none, .asap⟩

end Asap

end CycleSchedule
