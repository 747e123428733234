import CycleSchedule.Proofs.Graph.OfProblem
import CycleSchedule.Proofs.Graph.Parents

/-! The breadth-first search comes to nodes in the order of their distance from its source, so that
no walk has fewer nodes than the path it finds. The paths from one source form a tree. -/

namespace CycleSchedule

namespace Graph

variable {ν : Type} {graph : Graph ν} {source destination : String}

/-- Whether some walk with fewer edges than given leads from the source to a node. -/
def Nearer (edges : List (Dependence ν)) (source : String) (steps : Nat) (node : String) : Prop :=
  ∃ walk, (∀ edge ∈ walk, edge ∈ edges) ∧ Leads source walk node ∧ walk.length < steps

/-- No node is nearer than zero steps. -/
theorem not_nearer_zero {edges : List (Dependence ν)} {node : String} :
    ¬Nearer edges source 0 node := by
  rintro ⟨walk, _, _, short⟩
  exact absurd short (Nat.not_lt_zero _)

/-- A walk ends at its source, or its last edge comes from a node one step nearer. -/
theorem Nearer.eq_or_exists_edge {edges : List (Dependence ν)} {steps : Nat} {node : String}
    (nearer : Nearer edges source (steps + 1) node) :
    node = source ∨ ∃ edge ∈ edges, edge.destination = node ∧
      Nearer edges source steps edge.source := by
  obtain ⟨walk, within, leads, short⟩ := nearer
  rcases List.eq_nil_or_concat' walk with rfl | ⟨first, edge, rfl⟩
  · exact Or.inl (leads_nil.mp leads).symm
  · -- Without its last edge the walk leads to where that edge comes from.
    obtain ⟨middle, toEdge, last⟩ := leads_append.mp leads
    obtain ⟨rfl, arrives⟩ := leads_cons.mp last
    refine Or.inr ⟨edge, within edge (by simp), arrives, first, fun other member => ?_, toEdge, ?_⟩
    · exact within other (List.mem_append_left _ member)
    · simpa using short

/-- Trails that wait in order: every node nearer to the source than a trail is long has been passed,
or is at the end of a trail before it. -/
def Ordered (edges : List (Dependence ν)) (source : String) (passed : List String) :
    List Trail → Prop
  | [] => True
  | trail :: trails =>
    (∀ node, Nearer edges source trail.earlier.length node → node ∈ passed) ∧
      Ordered edges source (passed ++ [trail.node]) trails

/-- Trails are in order if all nodes nearer than any of them is long have been passed. -/
theorem ordered_of_forall {edges : List (Dependence ν)} {passed : List String}
    {trails : List Trail} (near : ∀ trail ∈ trails, ∀ node,
      Nearer edges source trail.earlier.length node → node ∈ passed) :
    Ordered edges source passed trails := by
  -- The induction is on the trails; passing more nodes does no harm.
  induction trails generalizing passed with
  | nil => trivial
  | cons trail trails ih =>
    obtain ⟨here, later⟩ := List.forall_mem_cons.mp near
    exact ⟨here, ih fun other member node nearer =>
      List.mem_append_left _ (later other member node nearer)⟩

/-- Trails may go last if all nodes nearer than they are long have been passed by then. -/
theorem Ordered.append {edges : List (Dependence ν)} {passed : List String}
    {trails found : List Trail} (ordered : Ordered edges source passed trails)
    (near : ∀ trail ∈ found, ∀ node, Nearer edges source trail.earlier.length node →
      node ∈ passed ++ trails.map (·.node)) :
    Ordered edges source passed (trails ++ found) := by
  -- The induction is on the trails in front; each of them adds its end to what has been passed.
  induction trails generalizing passed with
  | nil => exact ordered_of_forall (by simpa using near)
  | cons trail trails ih =>
    obtain ⟨here, later⟩ := ordered
    exact ⟨here, ih later (by simpa using near)⟩

/-- What extends a trail has come over the nodes of that trail. -/
theorem earlier_of_mem_extend {trail other : Trail} {met : List String}
    (member : other ∈ (graph.extend trail met).1) :
    other.earlier = trail.node :: trail.earlier := by
  -- Each edge adds one trail at most, which has come this way.
  have all : ∀ other ∈ (graph.extend trail met).1, other.earlier = trail.node :: trail.earlier :=
    extend_induction (motive := fun found _ =>
      ∀ other ∈ found, other.earlier = trail.node :: trail.earlier) (by simp)
      fun found _ same edge _ _ _ => List.forall_mem_append.mpr ⟨same, by simp⟩
  exact all other member

/-- Whether some names are the path that is found from the source to the last of them. -/
def Finds (graph : Graph ν) (source : String) (names : List String) : Prop :=
  ∃ last, names.getLast? = some last ∧ graph.path source last = .ok (some names)

/-- What also holds between two steps of a search: the source has been met, trails wait in order, a
search for any node not visited yet has come to the same point, and each trail goes on from paths
that are found. -/
structure Explores (graph : Graph ν) (source destination : String) (fuel : Nat)
    (trails : List Trail) (met visited : List String) : Prop
    extends graph.Visits destination trails met visited where
  start : source ∈ met
  ordered : Ordered graph.edges source visited trails
  agrees : ∀ other, other ∉ visited →
    graph.search other fuel trails met = graph.path source other
  grown : ∀ trail ∈ trails, ∀ front, front ≠ [] → front <+: trail.earlier.reverse →
    graph.Finds source front

/-- A search begins with the source alone, which no node is nearer than. -/
theorem explores_start (known : source ∈ graph.nodes) :
    graph.Explores source destination (graph.nodes.length + 2) [⟨source, []⟩] [source] [] where
  -- Only the source has been met, and nothing is nearer than it.
  toVisits := visits_start known
  start := List.mem_singleton_self _
  ordered := ⟨fun _ nearer => absurd nearer not_nearer_zero, trivial⟩
  agrees _ _ := rfl
  grown := by
    intro trail member front nonempty isFront
    rw [List.mem_singleton.mp member] at isFront
    exact absurd (List.prefix_nil.mp isFront) nonempty

variable {fuel : Nat} {trail : Trail} {trails : List Trail} {met visited : List String}

/-- The trail in front is the path that is found to its end. -/
theorem Explores.finds
    (explores : graph.Explores source destination (fuel + 1) (trail :: trails) met visited) :
    graph.Finds source trail.path := by
  refine ⟨trail.node, by simp [Trail.path], ?_⟩
  -- Its end has not been visited, so that a search for it would have come here as well.
  have unmet : trail.node ∉ visited := by
    have distinct := explores.same.nodup_iff.mp explores.distinct
    exact fun isVisited => (List.nodup_append.mp distinct).2.2 _ isVisited _ (by simp) rfl
  rw [← explores.agrees _ unmet, Graph.search, if_pos rfl]

/-- So is each part of it to the end of that part. -/
theorem Explores.finds_of_isPrefix
    (explores : graph.Explores source destination (fuel + 1) (trail :: trails) met visited)
    {front : List String} (nonempty : front ≠ []) (isFront : front <+: trail.path) :
    graph.Finds source front := by
  rw [Trail.path, List.reverse_cons, List.prefix_concat_iff] at isFront
  -- Either the part is all of the path, or it stops before the node that was found last.
  rcases isFront with rfl | shorter
  · simpa [Trail.path] using explores.finds
  · exact explores.grown trail (by simp) front nonempty shorter

/-- Each step of a search keeps all of this. -/
theorem Explores.step (sound : graph.Sound) (away : trail.node ≠ destination)
    (explores : graph.Explores source destination (fuel + 1) (trail :: trails) met visited) :
    graph.Explores source destination fuel (trails ++ (graph.extend trail met).1)
      (graph.extend trail met).2 (visited ++ [trail.node]) := by
  obtain ⟨_, kept, _⟩ := sound.extend trail explores.distinct explores.inside
  obtain ⟨passed, later⟩ := explores.ordered
  -- A node has been met if it has been visited now, or waits at the end of a trail.
  have same (node : String) :
      node ∈ visited ++ [trail.node] ++ trails.map (·.node) ↔ node ∈ met := by
    rw [explores.same.mem_iff]
    simp
  refine ⟨explores.toVisits.step sound away, kept _ explores.start, later.append ?_, ?_, ?_⟩
  · -- Nearer than a trail just found is what an edge reaches from a node nearer than this one.
    intro other member node nearer
    rw [earlier_of_mem_extend member, List.length_cons] at nearer
    rw [same]
    rcases nearer.eq_or_exists_edge with rfl | ⟨edge, edgeMember, rfl, sourceNearer⟩
    · exact explores.start
    · exact explores.closed edge edgeMember (passed _ sourceNearer)
  · -- A search for a node that is not visited now either has taken the same step.
    intro other unmet
    simp only [List.mem_append, List.mem_singleton, not_or] at unmet
    rw [← explores.agrees other unmet.1,
      search_of_ne explores.toVisits.mem_nodes fun equal => unmet.2 equal.symm]
  · intro other member front nonempty isFront
    rcases List.mem_append.mp member with waiting | new
    · -- Trails that wait stay as they are.
      exact explores.grown other (List.mem_cons_of_mem _ waiting) front nonempty isFront
    · -- What a new trail goes on from is the path to the node in front.
      rw [earlier_of_mem_extend new] at isFront
      exact explores.finds_of_isPrefix nonempty isFront

/-- A search that finds a path comes to a trail along it. -/
theorem Explores.exists_trail (sound : graph.Sound) {names : List String}
    (explores : graph.Explores source destination fuel trails met visited)
    (found : graph.search destination fuel trails met = .ok (some names)) :
    ∃ fuel trail trails met visited,
      graph.Explores source destination (fuel + 1) (trail :: trails) met visited ∧
      trail.node = destination ∧ trail.path = names := by
  -- The induction is on the fuel, and goes on from what each step has kept.
  induction fuel generalizing trails met visited with
  | zero => simp [Graph.search] at found
  | succ fuel ih =>
    cases trails with
    | nil => simp [Graph.search] at found
    | cons trail trails =>
      by_cases here : trail.node = destination
      · rw [Graph.search, if_pos here] at found
        exact ⟨fuel, trail, trails, met, visited, explores, here,
          Option.some.inj (Except.ok.inj found)⟩
      · rw [search_of_ne explores.toVisits.mem_nodes here] at found
        exact ih (explores.step sound here) found

/-- Once there are as many steps as nodes, a search makes no use of more. -/
theorem Visits.search_add (sound : graph.Sound) (more : Nat)
    (visits : graph.Visits destination trails met visited)
    (enough : graph.nodes.length + 2 ≤ fuel + visited.length) :
    graph.search destination (fuel + more) trails met =
      graph.search destination fuel trails met := by
  -- The induction is on the fuel; with each step one more node has been visited.
  induction fuel generalizing trails met visited with
  | zero =>
    have few := visits.length_le
    omega
  | succ fuel ih =>
    rw [Nat.add_right_comm]
    cases trails with
    | nil => rfl
    | cons trail trails =>
      by_cases here : trail.node = destination
      · simp [Graph.search, here]
      · -- Neither search ends here, and both follow the same edges.
        rw [search_of_ne visits.mem_nodes here, search_of_ne visits.mem_nodes here]
        refine ih (visits.step sound here) ?_
        simp only [List.length_append, List.length_singleton]
        omega

/-- The search for a path comes to its end within two steps more than there are nodes. -/
theorem Sound.search_eq_path (sound : graph.Sound) (known : source ∈ graph.nodes)
    (destination : String) {rounds : Nat} (enough : graph.nodes.length + 2 ≤ rounds) :
    graph.search destination rounds [⟨source, []⟩] [source] = graph.path source destination := by
  -- Those that go beyond what a path is given make no difference.
  obtain ⟨more, rfl⟩ := Nat.exists_eq_add_of_le enough
  exact (visits_start known).search_add sound more (by simp)

/-- No walk to the end of a path that is found has fewer nodes than the path. -/
theorem Sound.length_le_of_path (sound : graph.Sound) (known : source ∈ graph.nodes)
    {names : List String} (found : graph.path source destination = .ok (some names)) :
    ∀ walk, (∀ edge ∈ walk, edge ∈ graph.edges) → Leads source walk destination →
      names.length ≤ walk.length + 1 := by
  intro walk within leads
  obtain ⟨fuel, trail, trails, met, visited, explores, rfl, rfl⟩ :=
    (explores_start known).exists_trail sound found
  have length : trail.path.length = trail.earlier.length + 1 := by simp [Trail.path]
  -- A shorter walk would lead to a node that has been visited before.
  by_contra more
  exact explores.unmet (explores.ordered.1 _ ⟨walk, within, leads, by omega⟩)

/-- Each part of a path that is found, from its source on, is the path found to its own end. -/
theorem Sound.finds_of_isPrefix (sound : graph.Sound) (known : source ∈ graph.nodes)
    {names front : List String} (found : graph.path source destination = .ok (some names))
    (nonempty : front ≠ []) (isFront : front <+: names) : graph.Finds source front := by
  -- It is part of the trail that the search has come to in the end.
  obtain ⟨fuel, trail, trails, met, visited, explores, rfl, rfl⟩ :=
    (explores_start known).exists_trail sound found
  exact explores.finds_of_isPrefix nonempty isFront

/-- Distinct names from one to another, each joined to the next one by an edge. -/
structure Route (edges : List (Dependence ν)) (source destination : String)
    (names : List String) : Prop where
  first : names.head? = some source
  last : names.getLast? = some destination
  distinct : names.Nodup
  joined : names.IsChain (Joins edges)

/-- Nodes that a walk comes over, none of them twice, are a route. -/
theorem Connects.route {edges : List (Dependence ν)} {names : List String}
    (connects : Connects edges source destination names) :
    Route edges source destination names := by
  obtain ⟨walk, within, leads, rfl, distinct⟩ := connects
  refine ⟨?_, List.getLast?_concat, distinct, leads.isChain within⟩
  -- The first node that a walk leaves is its source.
  rw [leads.sources_append, List.head?_cons]

/-- A route from a node to itself that no walk is shorter than stays there. -/
theorem Route.eq_singleton {edges : List (Dependence ν)} {names : List String}
    (route : Route edges source destination names) (same : source = destination)
    (shortest : ∀ walk : List (Dependence ν), (∀ edge ∈ walk, edge ∈ edges) →
      Leads source walk destination → names.length ≤ walk.length + 1) : names = [source] := by
  -- The walk without edges leads there too.
  have short : names.length ≤ 1 := shortest [] (by simp) (leads_nil.mpr same)
  obtain ⟨rest, rfl⟩ := List.head?_eq_some_iff.mp route.first
  rw [List.length_cons] at short
  rw [List.length_eq_zero_iff.mp (show rest.length = 0 by omega)]

end Graph

namespace Problem

/-- Two ways from a load to a store, the longer one first, a way back in the next iteration, and an
operation that nothing leads to. -/
def detour : Problem Int :=
  ⟨"detour", [⟨"unit", 1, none⟩],
    [⟨"load", "unit", none⟩, ⟨"scale", "unit", none⟩, ⟨"add", "unit", none⟩,
      ⟨"store", "unit", none⟩, ⟨"spare", "unit", none⟩],
    [⟨"load", "scale", 0⟩, ⟨"scale", "add", 0⟩, ⟨"load", "add", 0⟩, ⟨"load", "add", 2⟩,
      ⟨"add", "store", 0⟩, ⟨"store", "load", 1⟩, ⟨"spare", "load", 0⟩], none⟩

/-- The detour problem passes the check. -/
theorem check_detour : detour.values.check none = .ok () := by rfl

end Problem

/-- In the graph of a checked problem, of all dependences or of those within one iteration, the
search for a path from an operation comes to its end within two steps more than there are
operations, and so does the one that remembers parents, with the same result. It finds nothing just
when no walk over edges leads to the destination. Otherwise it gives distinct names from the source
to the destination, each joined to the next by an edge, and the source alone if the destination is
the same. No walk comes over fewer nodes, and the paths from one source form a tree: each part of a
path from its source on is the path found to its own end. -/
theorem path_is_shortest {problem : Problem Value} {choice : Option Variant}
    (checked : problem.check choice = .ok ()) (zeroDistanceOnly : Bool) :
    ∃ graph : Graph Value, Graph.ofProblem problem zeroDistanceOnly = .ok graph ∧
      graph.nodes = problem.operationNames ∧
      ∀ source ∈ graph.nodes, ∀ destination, ∃ found,
        graph.path source destination = .ok found ∧
        (∀ rounds, graph.nodes.length + 2 ≤ rounds →
          graph.search destination rounds [⟨source, []⟩] [source] = .ok found) ∧
        graph.Retraces destination [source] [(source, none)] found ∧
        (found = none ↔ ¬∃ walk, (∀ edge ∈ walk, edge ∈ graph.edges) ∧
          Leads source walk destination) ∧
        ∀ names, found = some names →
          Graph.Route graph.edges source destination names ∧
          (source = destination → names = [source]) ∧
          (∀ walk, (∀ edge ∈ walk, edge ∈ graph.edges) → Leads source walk destination →
            names.length ≤ walk.length + 1) ∧
          ∀ front, front ≠ [] → front <+: names → graph.Finds source front := by
  obtain ⟨task, rfl, wellFormed, _⟩ := Problem.exists_values_of_check checked
  -- Edges run between operations, whatever the form of the quantities along them.
  have sound := (wellFormed.sound_graph zeroDistanceOnly).mapQuantities Value.int
  refine ⟨_, wellFormed.ofProblem_values zeroDistanceOnly, rfl, fun source known destination => ?_⟩
  obtain ⟨found, searched, retraces⟩ := sound.retraces known destination
  refine ⟨found, searched,
    fun _ enough => (sound.search_eq_path known destination enough).trans searched, retraces, ?_⟩
  rcases sound.path known destination with ⟨names, isPath⟩ | ⟨nothing, unreachable⟩
  · obtain rfl := Except.ok.inj (searched.symm.trans isPath)
    -- What is found is a walk itself.
    obtain ⟨walk, within, leads, _⟩ := Graph.connects_of_path isPath
    have route := (Graph.connects_of_path isPath).route
    have shortest := sound.length_le_of_path known isPath
    refine ⟨iff_of_false (by simp) (not_not.mpr ⟨walk, within, leads⟩), ?_⟩
    rintro _ ⟨⟩
    exact ⟨route, fun same => route.eq_singleton same shortest, shortest,
      fun front => sound.finds_of_isPrefix known isPath⟩
  · obtain rfl := Except.ok.inj (searched.symm.trans nothing)
    refine ⟨iff_of_true rfl ?_, by simp⟩
    rintro ⟨walk, within, leads⟩
    exact unreachable walk within leads

/-- The path of a detour takes the shorter way, and no way leads to the spare operation. -/
theorem detour_path_is_shortest :
    ∃ graph : Graph Value, Graph.ofProblem Problem.detour.values false = .ok graph ∧
      "load" ∈ graph.nodes ∧
      graph.path "load" "store" = .ok (some ["load", "add", "store"]) ∧
      Graph.Route graph.edges "load" "store" ["load", "add", "store"] ∧
      (∀ walk, (∀ edge ∈ walk, edge ∈ graph.edges) → Leads "load" walk "store" →
        3 ≤ walk.length + 1) ∧
      graph.Finds "load" ["load", "add"] ∧
      graph.Retraces "store" ["load"] [("load", none)] (some ["load", "add", "store"]) ∧
      graph.path "load" "spare" = .ok none ∧
      ¬∃ walk, (∀ edge ∈ walk, edge ∈ graph.edges) ∧ Leads "load" walk "spare" := by
  obtain ⟨graph, built, nodes, paths⟩ := path_is_shortest Problem.check_detour false
  -- The two searches are evaluated, and what they mean is read off the theorem.
  have known : "load" ∈ graph.nodes := by
    rw [nodes]
    decide
  have evaluated (destination : String) : graph.path "load" destination =
      (Graph.ofProblem Problem.detour.values false >>= (·.path "load" destination)) := by
    rw [built, ok_bind]
  obtain ⟨there, toStore, _, retraces, _, found⟩ := paths "load" known "store"
  obtain ⟨nowhere, toSpare, _, _, reached, _⟩ := paths "load" known "spare"
  have isThere : there = some ["load", "add", "store"] :=
    Except.ok.inj (toStore.symm.trans ((evaluated _).trans (by rfl)))
  -- No edge enters the spare operation, so nothing is found.
  have isNowhere : nowhere = none :=
    Except.ok.inj (toSpare.symm.trans ((evaluated _).trans (by rfl)))
  subst isThere isNowhere
  obtain ⟨route, _, shortest, fronts⟩ := found _ rfl
  exact ⟨graph, built, known, toStore, route, shortest, fronts _ (by simp) (by decide), retraces,
    toSpare, reached.mp rfl⟩

end CycleSchedule
