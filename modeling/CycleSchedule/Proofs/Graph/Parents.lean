import CycleSchedule.Proofs.Graph.Path

/-! A breadth-first search that only remembers, for each node, the node it was met from. What it
reads back along these parents is what the search with trails finds. -/

namespace CycleSchedule.Graph

variable {ν : Type} {graph : Graph ν} {source destination : String}

/-- The way from a node back along its parents up to one without any, told from that one on. -/
inductive Climbs (parents : NameTable (Option String)) : String → List String → Prop
  | root {node : String} (first : parents.get? node = some none) : Climbs parents node [node]
  | up {node parent : String} {names : List String} (from_ : parents.get? node = some (some parent))
      (rest : Climbs parents parent names) : Climbs parents node (names ++ [node])

/-- A node that is met for the first time waits behind the others, and its parent is remembered. -/
def meetFrom (parent : String) (state : List String × NameTable (Option String))
    (edge : Dependence ν) : List String × NameTable (Option String) :=
  if edge.destination ∈ state.2.names then state
  else (state.1 ++ [edge.destination], state.2.put edge.destination (some parent))

/-- A search that visits nodes in the order in which they were met, up to the destination, and tells
the way back from there. -/
inductive Retraces (graph : Graph ν) (destination : String) :
    List String → NameTable (Option String) → Option (List String) → Prop
  | exhausted {parents : NameTable (Option String)} : Retraces graph destination [] parents none
  | found {waiting names : List String} {parents : NameTable (Option String)}
      (climbs : Climbs parents destination names) :
      Retraces graph destination (destination :: waiting) parents (some names)
  | visit {node : String} {waiting : List String} {parents : NameTable (Option String)}
      {result : Option (List String)} (away : node ≠ destination)
      (rest : Retraces graph destination
        ((graph.successors node).foldl (meetFrom node) (waiting, parents)).1
        ((graph.successors node).foldl (meetFrom node) (waiting, parents)).2 result) :
      Retraces graph destination (node :: waiting) parents result

/-- The way back from a node does not change when a node is met for the first time. -/
theorem Climbs.put {parents : NameTable (Option String)} {node new : String} {names : List String}
    (climbs : Climbs parents node names) (unmet : new ∉ parents.names) (parent : Option String) :
    Climbs (parents.put new parent) node names := by
  -- All nodes on the way are in the table, and the new one is not.
  have same {other : String} {value : Option String} (known : parents.get? other = some value) :
      (parents.put new parent).get? other = some value := by
    rwa [NameTable.get?_put_of_ne]
    rintro rfl
    exact unmet (NameTable.mem_names_of_get? known)
  -- Every step up the table is found again.
  induction climbs with
  | root first => exact .root (same first)
  | up from_ _ ih => exact .up (same from_) ih

/-- The table of parents knows the nodes that have been met, and tells each trail that waits. -/
structure Mirrors (trails : List Trail) (met : List String) (waiting : List String)
    (parents : NameTable (Option String)) : Prop where
  waiting : waiting = trails.map (·.node)
  known : ∀ node, node ∈ parents.names ↔ node ∈ met
  climbs : ∀ trail ∈ trails, Climbs parents trail.node trail.path

/-- In the beginning there is the source without a parent. -/
theorem mirrors_start (source : String) :
    Mirrors [⟨source, []⟩] [source] [source] [(source, none)] where
  waiting := rfl
  known _ := Iff.rfl
  climbs := by
    intro trail member
    -- The source is the only trail, and it has no parent.
    rw [List.mem_singleton.mp member]
    exact .root (by simp [NameTable.get?])

/-- A node that is met from the end of a trail waits behind the others in both searches. -/
theorem Mirrors.meet {trail : Trail} {trails : List Trail} {met waiting : List String}
    {parents : NameTable (Option String)} {node : String}
    (mirrors : Mirrors trails met waiting parents) (here : Climbs parents trail.node trail.path)
    (new : node ∉ met) :
    Mirrors (trails ++ [⟨node, trail.node :: trail.earlier⟩]) (node :: met) (waiting ++ [node])
      (parents.put node (some trail.node)) := by
  have unmet : node ∉ parents.names := fun inside => new ((mirrors.known _).mp inside)
  refine ⟨by simp [mirrors.waiting], fun other => ?_, ?_⟩
  · simp [NameTable.mem_names_put, mirrors.known]
  · refine List.forall_mem_append.mpr ⟨fun other member =>
      (mirrors.climbs other member).put unmet _, List.forall_mem_singleton.mpr ?_⟩
    -- The way back from the new node goes on from the end of the trail.
    have up := Climbs.up NameTable.get?_put_self (here.put unmet (some trail.node))
    simpa [Trail.path] using up

/-- Extending the first trail meets the same nodes as following the edges from its end. -/
theorem Mirrors.step {trail : Trail} {trails : List Trail} {met waiting : List String}
    {parents : NameTable (Option String)}
    (mirrors : Mirrors (trail :: trails) met (trail.node :: waiting) parents) :
    let result := (graph.successors trail.node).foldl (meetFrom trail.node) (waiting, parents)
    Mirrors (trails ++ (graph.extend trail met).1) (graph.extend trail met).2 result.1
      result.2 := by
  intro result
  obtain ⟨same, known, climbs⟩ := mirrors
  obtain ⟨here, others⟩ := List.forall_mem_cons.mp climbs
  -- While edges are followed, the table goes on telling the trail that they extend.
  have ⟨mirrors, _⟩ : Mirrors (trails ++ (graph.extend trail met).1) (graph.extend trail met).2
      result.1 result.2 ∧ Climbs result.2 trail.node trail.path := by
    unfold Graph.extend
    refine List.foldl_rel (r := fun (state : List Trail × List String)
        (other : List String × NameTable (Option String)) =>
      Mirrors (trails ++ state.1) state.2 other.1 other.2 ∧ Climbs other.2 trail.node trail.path)
      ⟨⟨by simpa using same, known, by simpa using others⟩, here⟩ ?_
    rintro edge _ ⟨found, more⟩ ⟨waiting, parents⟩ ⟨mirrors, here⟩
    dsimp only at mirrors here ⊢
    have sameEnds := mirrors.known edge.destination
    -- A node that is known already is passed by both.
    by_cases old : edge.destination ∈ more
    · simp only [meetFrom, sameEnds.mpr old, if_true, List.contains_eq_mem, old, decide_true]
      exact ⟨mirrors, here⟩
    · -- A new node gets the current one as its parent, and its trail is this one with it.
      have unmet : edge.destination ∉ parents.names := fun inside => old (sameEnds.mp inside)
      simp only [meetFrom, unmet, if_false, List.contains_eq_mem, old, decide_false,
        Bool.false_eq_true, ← List.append_assoc]
      exact ⟨mirrors.meet here old, here.put unmet _⟩
  exact mirrors

/-- A search with trails that has steps enough finds what the search with parents reads back. -/
theorem Visits.retraces (sound : graph.Sound) {fuel : Nat} {trails : List Trail}
    {met visited waiting : List String} {parents : NameTable (Option String)}
    (visits : graph.Visits destination trails met visited)
    (enough : graph.nodes.length + 2 ≤ fuel + visited.length)
    (mirrors : Mirrors trails met waiting parents) :
    ∃ found, graph.search destination fuel trails met = .ok found ∧
      graph.Retraces destination waiting parents found := by
  -- The induction is on the fuel; with each step one more node has been visited.
  induction fuel generalizing trails met visited waiting parents with
  | zero =>
    have few := visits.length_le
    omega
  | succ fuel ih =>
    obtain rfl := mirrors.waiting
    cases trails with
    | nil => exact ⟨none, rfl, .exhausted⟩
    | cons trail trails =>
      by_cases here : trail.node = destination
      · obtain rfl := here
        -- The end has been reached, and its trail is told by the table.
        refine ⟨some trail.path, by rw [Graph.search, if_pos rfl], .found ?_⟩
        exact mirrors.climbs trail (by simp)
      · -- The trail is not yet at its end, so its node is visited and the search goes on.
        obtain ⟨found, searched, rest⟩ := ih (visits.step sound here) (by
          simp only [List.length_append, List.length_singleton]
          omega) mirrors.step
        exact ⟨found, by rw [search_of_ne visits.mem_nodes here, searched], .visit here rest⟩

/-- From any node on, the search with parents comes to its end with the path. -/
theorem Sound.retraces (sound : graph.Sound) (known : source ∈ graph.nodes)
    (destination : String) :
    ∃ found, graph.path source destination = .ok found ∧
      graph.Retraces destination [source] [(source, none)] found :=
  (visits_start known).retraces sound (by simp) (mirrors_start source)

end CycleSchedule.Graph
