import CycleSchedule.Graph.Basic

/-! Shortest paths in the number of edges, found breadth first. -/

namespace CycleSchedule.Graph

variable {ν : Type}

/-- A path from the source of a search to a node, told backwards from that node. -/
structure Trail where
  node : String
  earlier : List String

/-- The nodes of a trail from the source on. -/
def Trail.path (trail : Trail) : List String := (trail.node :: trail.earlier).reverse

/-- The trails that extend a trail by one edge to a node not met before, with the nodes met. -/
def extend (graph : Graph ν) (trail : Trail) (met : List String) : List Trail × List String :=
  -- A node is met when it is found and not when it is followed, so none is found twice.
  (graph.successors trail.node).foldl
    (fun (found, met) edge =>
      if met.contains edge.destination then (found, met)
      else (found ++ [⟨edge.destination, trail.node :: trail.earlier⟩], edge.destination :: met))
    ([], met)

/-- Follows the trails in the order in which they were found until one ends at the destination. -/
def search (graph : Graph ν) (destination : String) :
    Nat → List Trail → List String → Except Fault (Option (List String))
  | 0, _, _ => .ok none
  | _ + 1, [], _ => .ok none
  | fuel + 1, trail :: trails, met =>
    -- The test is made when a trail is followed and not when it is found.
    if trail.node = destination then .ok (some trail.path)
    else do
      -- A name that is not a node cannot be followed any further, and that ends the search.
      requireNode graph.nodes trail.node
      let (found, met) := graph.extend trail met
      graph.search destination fuel (trails ++ found) met

/-- A path with the fewest edges, or nothing if the destination is out of reach. -/
def path (graph : Graph ν) (source destination : String) : Except Fault (Option (List String)) :=
  -- Each node is followed once at most, and seeing that none is left takes a step too.
  graph.search destination (graph.nodes.length + 2) [⟨source, []⟩] [source]

end CycleSchedule.Graph
