import CycleSchedule.Graph.Basic

/-! Topological order: every edge points forward, or else a cycle is named. -/

namespace CycleSchedule

namespace Graph

variable {ν : Type}

/-- The work left of a topological sort: for each node its unmet edges, and the nodes without any.
-/
structure Frontier where
  unmet : NameTable Int
  ready : List String

/-- Before any node is placed, every entering edge is unmet. -/
def initialFrontier (graph : Graph ν) : Frontier :=
  let unmet := graph.nodes.map fun node => (node, ((graph.predecessors node).length : Int))
  ⟨.ofPairs unmet, graph.nodes.filter fun node => (graph.predecessors node).isEmpty⟩

/-- One entering edge of a node is met; the node is ready once none is left. -/
def Frontier.meet (frontier : Frontier) (node : String) : Frontier :=
  -- A count only falls, so it is zero once at most and no node becomes ready twice.
  let left := (frontier.unmet.get? node).getD 0 - 1
  ⟨frontier.unmet.put node left, if left = 0 then frontier.ready ++ [node] else frontier.ready⟩

/-- Places ready nodes first come, first served, as many as the fuel allows. -/
def place (graph : Graph ν) : Nat → Frontier → List String × NameTable Int
  | 0, frontier => ([], frontier.unmet)
  | fuel + 1, frontier =>
    match frontier.ready with
    | [] => ([], frontier.unmet)
    | node :: ready =>
      -- All edges that leave a placed node are met at once, in the order of their registration.
      let met := (graph.successors node).foldl (fun f edge => f.meet edge.destination)
        ⟨frontier.unmet, ready⟩
      let (order, unmet) := place graph fuel met
      (node :: order, unmet)

/-- Walks against the edges among the remaining nodes until a node comes up again; the trail holds
the nodes met so far, the latest first. -/
def walkBack (graph : Graph ν) (remaining : List String) :
    Nat → List String → String → Except Fault (List String)
  | 0, _, _ => .error .exhaustedSearch
  | fuel + 1, trail, node =>
    -- Latest first is the direction of the edges, since the walk goes against them.
    if trail.contains node then .ok (trail.takeWhile (· ≠ node) ++ [node])
    else
      match (graph.predecessors node).find? fun edge => remaining.contains edge.source with
      | some edge => walkBack graph remaining fuel (node :: trail) edge.source
      | none => .error .exhaustedSearch

/-- The nodes of one cycle among the remaining nodes, in the direction of the edges. -/
def cycleWithin (graph : Graph ν) (remaining : List String) : Except Fault (List String) :=
  match remaining with
  | [] => .error .exhaustedSearch
  | node :: _ =>
    -- A walk of more steps than there are nodes meets one of them twice.
    walkBack graph remaining (graph.nodes.length + 1) [] node

/-- The nodes in an order in which every edge points forward; ties go by registration. -/
def topologicalOrder (graph : Graph ν) : Except Fault (List String) :=
  -- Every node is placed at most once, so their number is fuel enough.
  let (order, unmet) := place graph graph.nodes.length graph.initialFrontier
  if order.length = graph.nodes.length then .ok order
  else do
    -- A node that is left has an unmet edge, and that edge comes from a node that is left too.
    let remaining := graph.nodes.filter fun node => 0 < (unmet.get? node).getD 0
    let cycle ← graph.cycleWithin remaining
    .error (.cyclicDependence cycle)

end Graph

/-- The operations in an order in which dependences within one iteration point forward. -/
def Problem.topologicalOrder {ν κ : Type} [Quantity ν κ] (problem : Problem ν) :
    Except Fault (List String) := do
  let graph ← Graph.ofProblem problem true
  graph.topologicalOrder

end CycleSchedule
