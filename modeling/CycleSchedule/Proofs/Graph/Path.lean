import CycleSchedule.Graph.Path
import CycleSchedule.Proofs.Graph.Order

/-! The breadth-first search finds a path wherever a walk leads, and never fails. What it finds is a
walk that comes to no node twice. -/

namespace CycleSchedule.Graph

variable {ν : Type} {graph : Graph ν}

/-- What holds of the trails found from a node and of the nodes met, if it does so with none found,
and each edge to a node not met before keeps it. -/
theorem extend_induction {motive : List Trail → List String → Prop} {trail : Trail}
    {met : List String} (start : motive [] met)
    (step : ∀ found more, motive found more → ∀ edge ∈ graph.edges, edge.source = trail.node →
      edge.destination ∉ more →
      motive (found ++ [⟨edge.destination, trail.node :: trail.earlier⟩])
        (edge.destination :: more)) :
    motive (graph.extend trail met).1 (graph.extend trail met).2 := by
  unfold Graph.extend
  -- The edges are gone through one by one, and those to nodes met before change nothing.
  refine List.foldlRecOn (motive := fun state : List Trail × List String =>
    motive state.1 state.2) _ _ start ?_
  intro state holds edge member
  obtain ⟨isEdge, leaves⟩ := List.mem_filter.mp member
  dsimp only
  split
  · exact holds
  · rename_i new
    exact step _ _ holds edge isEdge (of_decide_eq_true leaves) (by simpa using new)

/-- Following edges forgets no node, and meets all of their ends. -/
private theorem foldl_meets (earlier : List String) (edges : List (Dependence ν)) :
    ∀ (found : List Trail) (met : List String),
      let result := edges.foldl (fun (found, met) edge =>
        if met.contains edge.destination then (found, met)
        else (found ++ [(⟨edge.destination, earlier⟩ : Trail)], edge.destination :: met))
          (found, met)
      (∀ node ∈ met, node ∈ result.2) ∧ ∀ edge ∈ edges, edge.destination ∈ result.2 := by
  -- The induction is on the edges; each of them adds its end or has it met already.
  induction edges with
  | nil => exact fun found met => ⟨fun _ member => member, by simp⟩
  | cons edge edges ih =>
    intro found met
    simp only [List.foldl_cons, List.contains_eq_mem, decide_eq_true_eq, List.forall_mem_cons]
    split
    · -- What has been met already stays so.
      rename_i old
      obtain ⟨kept, reached⟩ := ih found met
      simp only [List.contains_eq_mem, decide_eq_true_eq] at kept reached
      exact ⟨kept, kept _ old, reached⟩
    · -- The end of the edge is met from here on.
      obtain ⟨kept, reached⟩ := ih (found ++ [⟨edge.destination, earlier⟩])
        (edge.destination :: met)
      simp only [List.contains_eq_mem, decide_eq_true_eq] at kept reached
      exact ⟨fun node member => kept node (List.mem_cons_of_mem _ member),
        kept _ (by simp), reached⟩

/-- The nodes met before, together with those that were just found. -/
structure Grown (graph : Graph ν) (before : List String) (found : List Trail) (met : List String) :
    Prop where
  same : met.Perm (found.map (·.node) ++ before)
  distinct : met.Nodup
  inside : ∀ node ∈ met, node ∈ graph.nodes

/-- Extending a trail only adds nodes that were not met, and meets the ends of all edges from its
node. -/
theorem Sound.extend (sound : graph.Sound) (trail : Trail) {met : List String}
    (distinct : met.Nodup) (inside : ∀ node ∈ met, node ∈ graph.nodes) :
    let result := graph.extend trail met
    graph.Grown met result.1 result.2 ∧ (∀ node ∈ met, node ∈ result.2) ∧
      ∀ edge ∈ graph.edges, edge.source = trail.node → edge.destination ∈ result.2 := by
  have grown : graph.Grown met (graph.extend trail met).1 (graph.extend trail met).2 := by
    refine extend_induction ⟨by simp, distinct, inside⟩ ?_
    intro found more grown edge member _ new
    refine ⟨?_, List.nodup_cons.mpr ⟨new, grown.distinct⟩,
      List.forall_mem_cons.mpr ⟨sound.destination edge member, grown.inside⟩⟩
    simp only [List.map_append, List.map_cons, List.map_nil, List.append_assoc,
      List.singleton_append]
    exact (grown.same.cons _).trans List.perm_middle.symm
  -- The search goes through all edges that leave the node.
  obtain ⟨kept, reached⟩ := foldl_meets (trail.node :: trail.earlier)
    (graph.successors trail.node) [] met
  exact ⟨grown, kept, fun edge member here =>
    reached edge (List.mem_filter.mpr ⟨member, by simpa using here⟩)⟩

/-- A region that no edge leaves. -/
def Closed (edges : List (Dependence ν)) (region : List String) : Prop :=
  ∀ edge ∈ edges, edge.source ∈ region → edge.destination ∈ region

/-- No walk leads out of a closed region. -/
theorem Closed.mem_of_leads {edges walk : List (Dependence ν)} {region : List String}
    {start finish : String} (closed : Closed edges region) (leads : Leads start walk finish)
    (within : ∀ edge ∈ walk, edge ∈ edges) (inside : start ∈ region) : finish ∈ region := by
  -- No edge of the walk leaves the region.
  induction walk generalizing start with
  | nil => exact leads_nil.mp leads ▸ inside
  | cons edge walk ih =>
    obtain ⟨rfl, rest⟩ := leads_cons.mp leads
    exact ih rest (fun other member => within other (List.mem_cons_of_mem _ member))
      (closed edge (within edge (by simp)) inside)

/-- What holds between two steps of the search: the nodes met are those visited and those at the end
of a trail, and edges lead from the visited ones to nodes that have been met. -/
structure Visits (graph : Graph ν) (destination : String) (trails : List Trail)
    (met visited : List String) : Prop where
  distinct : met.Nodup
  inside : ∀ node ∈ met, node ∈ graph.nodes
  same : met.Perm (visited ++ trails.map (·.node))
  closed : ∀ edge ∈ graph.edges, edge.source ∈ visited → edge.destination ∈ met
  unmet : destination ∉ visited

/-- In the beginning one trail has been met and none visited. -/
theorem visits_start {source destination : String} (known : source ∈ graph.nodes) :
    graph.Visits destination [⟨source, []⟩] [source] [] :=
  ⟨List.nodup_singleton _, by simpa using known, by simp, by simp, by simp⟩

/-- A visit to a node that is not the destination follows all of its edges. -/
theorem Visits.step (sound : graph.Sound) {destination : String} {trail : Trail}
    {trails : List Trail} {met visited : List String}
    (visits : graph.Visits destination (trail :: trails) met visited)
    (away : trail.node ≠ destination) :
    graph.Visits destination (trails ++ (graph.extend trail met).1) (graph.extend trail met).2
      (visited ++ [trail.node]) := by
  obtain ⟨grown, kept, reached⟩ := sound.extend trail visits.distinct visits.inside
  refine ⟨grown.distinct, grown.inside, ?_, fun edge member from_ => ?_, ?_⟩
  · -- What was met is either visited or at the end of a trail.
    refine grown.same.trans ((visits.same.append_left _).trans ?_)
    simp only [List.map_append, List.map_cons, List.append_assoc, List.cons_append,
      List.nil_append]
    refine List.perm_append_comm.trans ?_
    simp
  · rcases List.mem_append.mp from_ with earlier | last
    · exact kept _ (visits.closed edge member earlier)
    · exact reached edge member (List.mem_singleton.mp last)
  · simp only [List.mem_append, List.mem_singleton, not_or]
    exact ⟨visits.unmet, fun equal => away equal.symm⟩

/-- No more nodes than there are can have been visited. -/
theorem Visits.length_le {destination : String} {trails : List Trail} {met visited : List String}
    (visits : graph.Visits destination trails met visited) :
    visited.length ≤ graph.nodes.length := by
  -- The nodes that are met are distinct nodes of the graph, so there are no more of them.
  have short := (List.subperm_of_subset visits.distinct visits.inside).length_le
  have count := visits.same.length_eq
  simp only [List.length_append] at count
  omega

/-- The trail in front ends at a node of the graph. -/
theorem Visits.mem_nodes {destination : String} {trail : Trail} {trails : List Trail}
    {met visited : List String}
    (visits : graph.Visits destination (trail :: trails) met visited) : trail.node ∈ graph.nodes :=
  visits.inside _ (visits.same.mem_iff.mpr (by simp))

/-- A search that has not come to its destination goes on with the trails that extend the first. -/
theorem search_of_ne {destination : String} {fuel : Nat} {trail : Trail} {trails : List Trail}
    {met : List String} (known : trail.node ∈ graph.nodes) (away : trail.node ≠ destination) :
    graph.search destination (fuel + 1) (trail :: trails) met =
      graph.search destination fuel (trails ++ (graph.extend trail met).1)
        (graph.extend trail met).2 := by
  conv_lhs => unfold Graph.search
  -- The trail does not end at the destination, and its node is one of the graph.
  rw [if_neg away]
  simp only [requireNode, List.contains_eq_mem, known, decide_true, if_true, ok_bind]

/-- The search finds a path, or a closed region of all nodes met without the destination. -/
theorem Visits.search (sound : graph.Sound) {destination : String} :
    ∀ fuel (trails : List Trail) (met visited : List String),
      graph.Visits destination trails met visited →
      graph.nodes.length + 2 ≤ fuel + visited.length →
      (∃ path, graph.search destination fuel trails met = .ok (some path)) ∨
        graph.search destination fuel trails met = .ok none ∧
          ∃ region, Closed graph.edges region ∧ (∀ node ∈ met, node ∈ region) ∧
            destination ∉ region := by
  -- The induction is on the fuel; with each step one more node has been visited.
  intro fuel
  induction fuel with
  | zero =>
    intro trails met visited visits enough
    have few := visits.length_le
    omega
  | succ fuel ih =>
    intro trails met visited visits enough
    cases trails with
    | nil =>
      -- All nodes that were met have been visited.
      have all : met.Perm visited := by simpa using visits.same
      exact Or.inr ⟨rfl, met,
        fun edge member from_ => visits.closed edge member (all.mem_iff.mp from_),
        fun _ member => member, fun member => visits.unmet (all.mem_iff.mp member)⟩
    | cons trail trails =>
      by_cases here : trail.node = destination
      · rw [Graph.search, if_pos here]
        exact Or.inl ⟨_, rfl⟩
      · obtain ⟨_, kept, _⟩ := sound.extend trail visits.distinct visits.inside
        rw [search_of_ne visits.mem_nodes here]
        rcases ih _ _ _ (visits.step sound here) (by
          simp only [List.length_append, List.length_singleton]
          omega) with found | ⟨nothing, region, closed, all, out⟩
        · exact Or.inl found
        · exact Or.inr ⟨nothing, region, closed,
            fun node member => all node (kept node member), out⟩

/-- A path is found between any two nodes that a walk joins; otherwise the search says that there is
none. -/
theorem Sound.path (sound : graph.Sound) {source : String} (known : source ∈ graph.nodes)
    (destination : String) :
    (∃ path, graph.path source destination = .ok (some path)) ∨
      graph.path source destination = .ok none ∧
        ∀ walk, (∀ edge ∈ walk, edge ∈ graph.edges) → ¬Leads source walk destination := by
  -- The region of all nodes met holds every node that a walk leads to.
  rcases (visits_start known).search sound (graph.nodes.length + 2) _ _ _ (by simp) with
    found | ⟨nothing, region, closed, all, out⟩
  · exact Or.inl found
  · exact Or.inr ⟨nothing, fun walk within leads =>
      out (closed.mem_of_leads leads within (all source (by simp)))⟩

/-- Nodes that an edge walk from one node to another comes over, none of them twice. -/
def Connects (edges : List (Dependence ν)) (source destination : String) (names : List String) :
    Prop :=
  ∃ walk, (∀ edge ∈ walk, edge ∈ edges) ∧ Leads source walk destination ∧
    walk.map (·.source) ++ [destination] = names ∧ names.Nodup

/-- One more edge leads on to a node that was not there before. -/
theorem Connects.step {edges : List (Dependence ν)} {source : String} {names : List String}
    {edge : Dependence ν} (connects : Connects edges source edge.source names)
    (member : edge ∈ edges) (new : edge.destination ∉ names) :
    Connects edges source edge.destination (names ++ [edge.destination]) := by
  obtain ⟨walk, within, leads, rfl, distinct⟩ := connects
  -- The path goes on to a node that it has not come to yet.
  refine ⟨walk ++ [edge], List.forall_mem_append.mpr ⟨within, List.forall_mem_singleton.mpr member⟩,
    leads.append ⟨rfl, rfl⟩, by simp, distinct.append (List.nodup_singleton _) ?_⟩
  exact List.disjoint_singleton.mpr new

/-- An edge followed by a path back to its source is a cycle. -/
theorem Connects.exists_cycle {edges : List (Dependence ν)} {edge : Dependence ν}
    {names : List String} (connects : Connects edges edge.destination edge.source names)
    (member : edge ∈ edges) :
    ∃ rest, Cycle edges (edge :: rest) ∧
      (edge :: rest).map (·.source) = edge.source :: names.dropLast := by
  obtain ⟨walk, within, leads, rfl, distinct⟩ := connects
  have sources : (edge :: walk).map (·.source) =
      edge.source :: (walk.map (·.source) ++ [edge.source]).dropLast := by
    rw [List.dropLast_concat, List.map_cons]
  refine ⟨walk, ⟨by simp, List.forall_mem_cons.mpr ⟨member, within⟩, ⟨edge.source, rfl, leads⟩, ?_⟩,
    sources⟩
  -- The path comes to the source of the edge at its end only.
  exact (List.perm_append_singleton _ _).nodup_iff.mp distinct

/-- The trails of a search from a node are paths over nodes that have been met. -/
def Traces (graph : Graph ν) (source : String) (trails : List Trail) (met : List String) : Prop :=
  ∀ trail ∈ trails, Connects graph.edges source trail.node trail.path ∧
    ∀ node ∈ trail.path, node ∈ met

/-- A search starts with a path of its first node alone. -/
theorem traces_start (graph : Graph ν) (source : String) :
    graph.Traces source [⟨source, []⟩] [source] := by
  rintro trail member
  rw [List.mem_singleton.mp member]
  exact ⟨⟨[], by simp, rfl, rfl, List.nodup_singleton _⟩, fun _ member => member⟩

/-- Meeting more nodes leaves the trails as they are. -/
theorem Traces.mono {source : String} {trails : List Trail} {met more : List String}
    (traces : graph.Traces source trails met) (grown : met ⊆ more) :
    graph.Traces source trails more :=
  fun trail member =>
    (traces trail member).imp_right fun inside node there => grown (inside node there)

/-- Extending a trail of a search gives trails of the search. -/
theorem Traces.extend {source : String} {trail : Trail} {trails : List Trail} {met : List String}
    (traces : graph.Traces source (trail :: trails) met) :
    graph.Traces source (trails ++ (graph.extend trail met).1) (graph.extend trail met).2 := by
  obtain ⟨⟨connects, inside⟩, others⟩ := List.forall_mem_cons.mp traces
  have ⟨found, kept⟩ : graph.Traces source (graph.extend trail met).1 (graph.extend trail met).2 ∧
      met ⊆ (graph.extend trail met).2 := by
    refine extend_induction (motive := fun found more =>
      graph.Traces source found more ∧ met ⊆ more) ⟨by simp [Traces], List.Subset.refl _⟩ ?_
    rintro found more ⟨earlier, grown⟩ edge member here new
    have kept : met ⊆ edge.destination :: more := List.subset_cons_of_subset _ grown
    -- The trail told one node further is the path with that node after it.
    have path : Trail.path ⟨edge.destination, trail.node :: trail.earlier⟩ =
        trail.path ++ [edge.destination] := by
      simp [Trail.path]
    refine ⟨List.forall_mem_append.mpr ⟨earlier.mono (List.subset_cons_self _ _),
      List.forall_mem_singleton.mpr ?_⟩, kept⟩
    rw [path]
    exact ⟨(here ▸ connects).step member fun there => new (grown (inside _ there)),
      List.forall_mem_append.mpr ⟨fun node there => kept (inside node there), by simp⟩⟩
  -- The other trails wait as they were, with more nodes met.
  exact List.forall_mem_append.mpr ⟨Traces.mono others kept, found⟩

/-- What a search finds is a path to the destination. -/
theorem Traces.search {source destination : String} : ∀ fuel (trails : List Trail) met names,
    graph.Traces source trails met →
    graph.search destination fuel trails met = .ok (some names) →
    Connects graph.edges source destination names := by
  -- By induction on the fuel; every step goes on with trails of the search.
  intro fuel
  induction fuel with
  | zero => simp [Graph.search]
  | succ fuel ih =>
    intro trails met names traces found
    cases trails with
    | nil => simp [Graph.search] at found
    | cons trail trails =>
      unfold Graph.search at found
      split at found
      · -- The first trail has come to the destination.
        rename_i here
        obtain rfl := Option.some.inj (Except.ok.inj found)
        exact here ▸ (traces trail (by simp)).1
      · obtain ⟨_, _, found⟩ := bind_eq_ok_iff.mp found
        exact ih _ _ names traces.extend found

/-- What is found between two nodes is a path from the one to the other. -/
theorem connects_of_path {source destination : String} {names : List String}
    (found : graph.path source destination = .ok (some names)) :
    Connects graph.edges source destination names :=
  (graph.traces_start source).search _ _ _ names found

end CycleSchedule.Graph
