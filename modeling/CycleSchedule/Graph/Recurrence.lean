import CycleSchedule.Graph.Path

/-! Recurrences: cycles that no interval satisfies, and the least interval that satisfies the rest.
-/

namespace CycleSchedule

namespace Graph

variable {ν κ : Type}

/-- The level that an edge asks of its destination, given the level of its source. -/
def asked [Measure κ] (graph : Graph κ) (interval level : κ) (edge : Dependence κ) : κ :=
  level + graph.latency edge.source - interval * edge.distance

/-- The level of a node, zero as long as none has been asked of it. -/
def levelOf [Measure κ] (levels : NameTable κ) (node : String) : κ :=
  (levels.get? node).getD (Measure.ofInt 0)

/-- Raises the level of the destination of an edge if the edge asks for it; tells whether any level
has been raised. -/
def raise [Measure κ] (graph : Graph κ) (interval : κ) (state : NameTable κ × Bool)
    (edge : Dependence κ) : NameTable κ × Bool :=
  let (levels, changed) := state
  let asked := graph.asked interval (levelOf levels edge.source) edge
  -- A level that rises counts at once, for the edges later in the same round.
  if levelOf levels edge.destination < asked then (levels.put edge.destination asked, true)
  else (levels, changed)

/-- Whether levels still rise after the given number of rounds over all edges. -/
def keepsRising [Measure κ] (graph : Graph κ) (interval : κ) : Nat → NameTable κ → Bool
  | 0, _ => true
  | rounds + 1, levels =>
    let (levels, changed) := graph.edges.foldl (graph.raise interval) (levels, false)
    -- A round in which nothing rises settles the question.
    changed && graph.keepsRising interval rounds levels

/-- Whether some cycle asks for more than the interval gives; then levels rise for ever. -/
def hasPositiveCycle [Measure κ] (graph : Graph κ) (interval : κ) : Bool :=
  -- Without a positive cycle, longest walks repeat no node, so as many rounds as nodes settle them.
  !graph.edges.isEmpty && graph.keepsRising interval graph.nodes.length
    (.ofPairs (graph.nodes.map fun node => (node, Measure.ofInt 0)))

/-- The least interval in a range that leaves no positive cycle, given that its last one does; the
fuel is no less than the number of halvings that the range allows. -/
def leastInterval [Measure κ] (graph : Graph κ) : Nat → κ → κ → κ
  | 0, lower, _ => lower
  | fuel + 1, lower, upper =>
    if lower < upper then
      -- A longer interval never makes a cycle positive, so either half can be given up.
      let middle := Measure.half (lower + upper)
      if graph.hasPositiveCycle middle then
        graph.leastInterval fuel (middle + Measure.ofInt 1) upper
      else graph.leastInterval fuel lower middle
    else lower

/-- The latencies of all operations together. -/
def totalLatency [Measure κ] (graph : Graph κ) : κ :=
  graph.latencies.foldl (fun total entry => total + entry.2) (Measure.ofInt 0)

/-- The least interval that leaves no positive cycle, or nothing if every interval leaves one. -/
def minimumInterval [Measure κ] (graph : Graph κ) : Option κ :=
  -- A simple cycle takes no longer than all operations, so one positive even then has distance 0.
  let one := Measure.ofInt 1
  let upper := Measure.later one graph.totalLatency
  if graph.hasPositiveCycle upper then none
  else some (graph.leastInterval (Measure.halvings upper) one upper)

/-- A cycle through an edge whose source has a positive latency, from that source on. -/
def cycleThrough [Quantity ν κ] [Measure κ] (graph : Graph ν) (edge : Dependence ν) :
    Except Fault (Option (List String)) := do
  -- A positive cycle has a node of positive latency, and can be told from there.
  let latency ← graph.measuredLatency edge.source
  if latency ≤ Measure.ofInt 0 then return none
  let back ← graph.path edge.destination edge.source
  return back.map fun nodes => edge.source :: nodes.dropLast

/-- The first cycle that the edges of a list lead to. -/
def firstCycle [Quantity ν κ] [Measure κ] (graph : Graph ν) :
    List (Dependence ν) → Except Fault (Option (List String))
  | [] => .ok none
  | edge :: edges => do
    match ← graph.cycleThrough edge with
    | some cycle => return some cycle
    | none => graph.firstCycle edges

end Graph

namespace Problem

variable {ν κ : Type} [Quantity ν κ] [Measure κ]

/-- A cycle within one iteration with a positive latency, which no interval satisfies. -/
def infeasibleCycle (problem : Problem ν) : Except Fault (Option (List String)) := do
  -- Only dependences of distance 0 are edges here.
  let graph ← Graph.ofProblem problem true
  graph.firstCycle graph.edges

/-- Whether some cycle asks for more than an interval gives. -/
def exceedsInterval (problem : Problem ν) (zeroDistanceOnly : Bool) (interval : Int) :
    Except Fault Bool := do
  let graph ← Graph.ofProblem problem zeroDistanceOnly
  -- Only the sources of edges add their latencies to a cycle.
  let numbers : Graph κ ← graph.measured (graph.edges.map (·.source))
  return numbers.hasPositiveCycle (Measure.ofInt interval)

/-- The least interval between iterations that the recurrences of a problem allow. -/
def minimumInterval (problem : Problem ν) : Except Fault (Option κ) := do
  let graph ← Graph.ofProblem problem false
  -- The search starts from all latencies together, so each has to be a number.
  let numbers ← graph.measured graph.nodes
  return numbers.minimumInterval

end Problem

end CycleSchedule
