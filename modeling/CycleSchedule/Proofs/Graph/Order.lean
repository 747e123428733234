import CycleSchedule.Graph.Order
import CycleSchedule.Proofs.Graph.Walk
import CycleSchedule.Proofs.NameTable
import CycleSchedule.Proofs.Narrated

/-! The topological sort places every node after all nodes it depends on, or there is a cycle. -/

namespace CycleSchedule.Graph

variable {ν : Type} {graph : Graph ν}

/-- Nodes are distinct, and edges run between nodes. -/
structure Sound (graph : Graph ν) : Prop where
  distinct : graph.nodes.Nodup
  source : ∀ edge ∈ graph.edges, edge.source ∈ graph.nodes
  destination : ∀ edge ∈ graph.edges, edge.destination ∈ graph.nodes

/-- The nodes of a list come one by one, each after all nodes it depends on. -/
def Follows (edges : List (Dependence ν)) (placed : List String) : List String → Prop
  | [] => True
  | node :: rest =>
    node ∉ placed ∧ (∀ edge ∈ edges, edge.destination = node → edge.source ∈ placed) ∧
      Follows edges (node :: placed) rest

/-- An edge into a node of the list comes from an earlier place. -/
theorem Follows.idxOf_lt {edges : List (Dependence ν)} {placed order : List String}
    (follows : Follows edges placed order) {edge : Dependence ν} (member : edge ∈ edges)
    (inside : edge.destination ∈ order) :
    edge.source ∈ placed ∨ order.idxOf edge.source < order.idxOf edge.destination := by
  -- The induction is on the order; the node in front follows what has been placed.
  induction order generalizing placed with
  | nil => simp at inside
  | cons node rest ih =>
    obtain ⟨_, before, later⟩ := follows
    by_cases here : edge.destination = node
    · exact Or.inl (before edge member here)
    · have inRest : edge.destination ∈ rest := by
        rcases List.mem_cons.mp inside with same | more
        · exact absurd same here
        · exact more
      -- Both ends are looked for in the rest, unless the source is in front.
      rw [List.idxOf_cons_ne rest fun same => here same.symm]
      by_cases sourceHere : edge.source = node
      · rw [sourceHere, List.idxOf_cons_self]
        exact Or.inr (Nat.succ_pos _)
      · rw [List.idxOf_cons_ne rest fun same => sourceHere same.symm]
        rcases ih later inRest with known | less
        · exact Or.inl ((List.mem_cons.mp known).resolve_left sourceHere)
        · exact Or.inr (Nat.succ_lt_succ less)

/-- Along a walk the places in an order grow. -/
theorem Follows.idxOf_lt_of_leads {edges walk : List (Dependence ν)} {order : List String}
    {start finish : String} (follows : Follows edges [] order)
    (inside : ∀ edge ∈ edges, edge.destination ∈ order) (leads : Leads start walk finish)
    (within : ∀ edge ∈ walk, edge ∈ edges) (nonempty : walk ≠ []) :
    order.idxOf start < order.idxOf finish := by
  -- The induction is on the walk; each edge takes a step forward.
  induction walk generalizing start with
  | nil => exact absurd rfl nonempty
  | cons edge walk ih =>
    obtain ⟨rfl, rest⟩ := leads_cons.mp leads
    have member := within edge (by simp)
    have step : order.idxOf edge.source < order.idxOf edge.destination :=
      (follows.idxOf_lt member (inside edge member)).resolve_left (by simp)
    by_cases last : walk = []
    · subst last
      rwa [← leads_nil.mp rest]
    · exact step.trans
        (ih rest (fun other otherMember => within other (by simp [otherMember])) last)

/-- Where an order places every node after those it depends on, there is no cycle. -/
theorem Follows.not_hasCycle {edges : List (Dependence ν)} {order : List String}
    (follows : Follows edges [] order) (inside : ∀ edge ∈ edges, edge.destination ∈ order) :
    ¬HasCycle edges := by
  rintro ⟨walk, cycle⟩
  obtain ⟨node, closed⟩ := cycle.closed
  exact lt_irrefl _ (follows.idxOf_lt_of_leads inside closed cycle.within cycle.nonempty)

/-- How many edges of a list enter a node. -/
def entering (edges : List (Dependence ν)) (node : String) : Nat :=
  edges.countP (·.destination = node)

/-- The edges that do not come from nodes that were placed. -/
def unmetEdges (graph : Graph ν) (placed : List String) : List (Dependence ν) :=
  graph.edges.filter fun edge => edge.source ∉ placed

/-- The frontier counts the pending edges into each node, and the ready nodes are those without any
that have not been placed. -/
structure Tracks (graph : Graph ν) (placed : List String) (pending : List (Dependence ν))
    (frontier : Frontier) : Prop where
  unmet : ∀ node ∈ graph.nodes, frontier.unmet.get? node = some (entering pending node : Int)
  ready : ∀ node, node ∈ frontier.ready ↔
    node ∈ graph.nodes ∧ node ∉ placed ∧ entering pending node = 0
  distinct : frontier.ready.Nodup
  met : ∀ node ∈ placed, entering pending node = 0

/-- In the beginning nothing is placed, and all edges are pending. -/
theorem Sound.tracks_initialFrontier (sound : graph.Sound) :
    graph.Tracks [] graph.edges graph.initialFrontier where
  unmet node member := by
    -- The frontier counts the predecessors of each node, all of which are still pending.
    have distinct : ((graph.nodes.map fun node =>
        (node, ((graph.predecessors node).length : Int))).map (·.1)).Nodup := by
      simpa [Function.comp_def] using sound.distinct
    rw [initialFrontier, NameTable.ofPairs_of_nodup distinct, NameTable.get?_map_pair,
      if_pos member, predecessors, ← List.countP_eq_length_filter]
    rfl
  ready node := by
    simp [initialFrontier, predecessors, entering, List.countP_eq_zero]
  distinct := sound.distinct.filter _
  met _ member := by simp at member

/-- Only how many pending edges enter each node matters. -/
theorem Tracks.congr {placed : List String} {pending other : List (Dependence ν)}
    {frontier : Frontier} (tracks : graph.Tracks placed pending frontier)
    (same : ∀ node, entering other node = entering pending node) :
    graph.Tracks placed other frontier where
  unmet node member := by rw [same, tracks.unmet node member]
  ready node := by rw [same, tracks.ready node]
  distinct := tracks.distinct
  met node member := by rw [same, tracks.met node member]

/-- An edge adds one to the count at its destination. -/
theorem entering_cons (edge : Dependence ν) (edges : List (Dependence ν)) (node : String) :
    entering (edge :: edges) node =
      entering edges node + if edge.destination = node then 1 else 0 := by
  simp [entering, List.countP_cons]

/-- A node that an edge still enters is neither placed nor ready. -/
theorem Tracks.not_mem_of_entering {placed : List String} {pending : List (Dependence ν)}
    {frontier : Frontier} (tracks : graph.Tracks placed pending frontier) {node : String}
    (entered : entering pending node ≠ 0) : node ∉ placed ∧ node ∉ frontier.ready :=
  ⟨fun isPlaced => entered (tracks.met node isPlaced),
    fun isReady => entered ((tracks.ready node).mp isReady).2.2⟩

/-- Meeting an edge takes it off the pending ones. -/
theorem Tracks.meet {placed : List String} {edge : Dependence ν} {pending : List (Dependence ν)}
    {frontier : Frontier} (tracks : graph.Tracks placed (edge :: pending) frontier)
    (inside : edge.destination ∈ graph.nodes) :
    graph.Tracks placed pending (frontier.meet edge.destination) := by
  -- The edge is one of those that enter its destination, which therefore waits.
  have entered : entering (edge :: pending) edge.destination =
      entering pending edge.destination + 1 := by rw [entering_cons, if_pos rfl]
  obtain ⟨notPlaced, notReady⟩ :=
    tracks.not_mem_of_entering (show entering (edge :: pending) edge.destination ≠ 0 by omega)
  have left : (frontier.unmet.get? edge.destination).getD 0 - 1 =
      (entering pending edge.destination : Int) := by
    rw [tracks.unmet _ inside, entered, Option.getD_some]
    push_cast
    omega
  have elsewhere {node : String} (other : edge.destination ≠ node) :
      entering (edge :: pending) node = entering pending node := by
    rw [entering_cons, if_neg other, Nat.add_zero]
  have readyElsewhere {node : String} (other : edge.destination ≠ node) :
      node ∈ frontier.ready ↔ node ∈ graph.nodes ∧ node ∉ placed ∧ entering pending node = 0 := by
    rw [tracks.ready, elsewhere other]
  refine ⟨fun node member => ?_, fun node => ?_, ?_, fun node member => ?_⟩
  · -- Only the count of the destination changes.
    simp only [Frontier.meet, left, NameTable.get?_put]
    split
    · rename_i same
      rw [same]
    · rename_i other
      rw [tracks.unmet node member, elsewhere other]
  · -- The destination becomes ready with its last edge, and no other node does.
    simp only [Frontier.meet, left]
    by_cases same : edge.destination = node
    · subst same
      by_cases zero : entering pending edge.destination = 0
      · simp [zero, inside, notPlaced]
      · simp [zero, notReady]
    · split
      · rw [List.mem_append, readyElsewhere same, List.mem_singleton]
        exact or_iff_left fun equal => same equal.symm
      · exact readyElsewhere same
  · -- A node that becomes ready was not so before.
    simp only [Frontier.meet, left]
    split
    · refine List.nodup_append.mpr ⟨tracks.distinct, List.nodup_singleton _, ?_⟩
      rintro node ready _ isEdge rfl
      exact notReady (List.mem_singleton.mp isEdge ▸ ready)
    · exact tracks.distinct
  · -- What no edge enters, none enters with one edge fewer.
    have none_ := tracks.met node member
    rw [entering_cons] at none_
    omega

/-- Meeting edges one after the other takes all of them off the pending ones. -/
theorem Tracks.meetAll {placed : List String} {pending : List (Dependence ν)}
    (edges : List (Dependence ν)) (inside : ∀ edge ∈ edges, edge.destination ∈ graph.nodes) :
    ∀ frontier, graph.Tracks placed (edges ++ pending) frontier →
      graph.Tracks placed pending
        (edges.foldl (fun f edge => f.meet edge.destination) frontier) := by
  -- By induction on the edges, each of which is met by its destination.
  induction edges with
  | nil => exact fun _ tracks => tracks
  | cons edge edges ih =>
    intro frontier tracks
    exact ih (fun other member => inside other (List.mem_cons_of_mem _ member)) _
      (tracks.meet (inside edge (by simp)))

/-- The edges that do not come from placed nodes are those of one more node and the others. -/
theorem entering_successors_append {placed : List String} {node : String}
    (notPlaced : node ∉ placed) (other : String) :
    entering (graph.successors node ++ graph.unmetEdges (node :: placed)) other =
      entering (graph.unmetEdges placed) other := by
  -- Unmet edges are those of the node and those of other nodes that are not placed.
  have own : (graph.unmetEdges placed).filter (fun edge => decide (edge.source = node)) =
      graph.successors node := by
    rw [unmetEdges, List.filter_filter]
    refine List.filter_congr fun edge _ => ?_
    by_cases same : edge.source = node <;> simp [same, notPlaced]
  have rest : (graph.unmetEdges placed).filter (fun edge => !decide (edge.source = node)) =
      graph.unmetEdges (node :: placed) := by
    rw [unmetEdges, List.filter_filter]
    refine List.filter_congr fun edge _ => ?_
    by_cases same : edge.source = node <;> simp [same]
  rw [← own, ← rest]
  exact (List.filter_append_perm _ _).countP_eq _

/-- Placing a ready node makes its own edges the ones to be met next. -/
theorem Tracks.place {placed rest : List String} {node : String} {frontier : Frontier}
    (tracks : graph.Tracks placed (graph.unmetEdges placed) frontier)
    (ready : frontier.ready = node :: rest) :
    graph.Tracks (node :: placed) (graph.successors node ++ graph.unmetEdges (node :: placed))
      ⟨frontier.unmet, rest⟩ := by
  -- The node in front has nothing left to wait for.
  obtain ⟨_, notPlaced, none_⟩ := (tracks.ready node).mp (by rw [ready]; simp)
  have distinct := tracks.distinct
  rw [ready, List.nodup_cons] at distinct
  refine Tracks.congr ⟨tracks.unmet, fun other => ?_, distinct.2, fun other member => ?_⟩
    (entering_successors_append notPlaced)
  · -- The nodes that stay ready are the others, since the placed one was ready once only.
    have before := tracks.ready other
    rw [ready, List.mem_cons] at before
    simp only [List.mem_cons, not_or]
    constructor
    · intro member
      obtain ⟨inside, notBefore, free⟩ := before.mp (Or.inr member)
      exact ⟨inside, ⟨fun same => distinct.1 (same ▸ member), notBefore⟩, free⟩
    · rintro ⟨inside, ⟨different, notBefore⟩, free⟩
      exact (before.mpr ⟨inside, notBefore, free⟩).resolve_left different
  · rcases List.mem_cons.mp member with rfl | earlier
    · exact none_
    · exact tracks.met other earlier

/-- Distinct nodes cannot be more than there are. -/
theorem mem_of_length_le {placed : List String} (distinct : placed.Nodup)
    (inside : ∀ node ∈ placed, node ∈ graph.nodes)
    (all : graph.nodes.length ≤ placed.length) : ∀ node ∈ graph.nodes, node ∈ placed := by
  have same := (List.subperm_of_subset distinct inside).perm_of_length_le all
  exact fun node member => same.mem_iff.mpr member

/-- Once a ready node is placed and its edges are met, the frontier tracks the others. -/
theorem Tracks.next (sound : graph.Sound) {placed rest : List String} {node : String}
    {frontier : Frontier} (tracks : graph.Tracks placed (graph.unmetEdges placed) frontier)
    (ready : frontier.ready = node :: rest) :
    graph.Tracks (node :: placed) (graph.unmetEdges (node :: placed))
      ((graph.successors node).foldl (fun f edge => f.meet edge.destination)
        ⟨frontier.unmet, rest⟩) :=
  (tracks.place ready).meetAll _
    (fun edge member => sound.destination edge (List.mem_filter.mp member).1) _

/-- Where all nodes are placed none is ready. -/
theorem Tracks.ready_eq_nil {placed : List String} {pending : List (Dependence ν)}
    {frontier : Frontier} (tracks : graph.Tracks placed pending frontier)
    (all : ∀ node ∈ graph.nodes, node ∈ placed) : frontier.ready = [] :=
  List.eq_nil_iff_forall_not_mem.mpr fun node member => by
    obtain ⟨known, notPlaced, _⟩ := (tracks.ready node).mp member
    exact notPlaced (all node known)

/-- Where none is ready the sort has come to its end. -/
theorem place_of_ready_nil (graph : Graph ν) {frontier : Frontier} (none_ : frontier.ready = [])
    (fuel : Nat) : graph.place fuel frontier = ([], frontier.unmet) := by
  cases fuel with
  | zero => rfl
  | succ fuel => rw [Graph.place, none_]

/-- More fuel than there are nodes left to place makes no difference to the sort. -/
theorem Sound.place_add (sound : graph.Sound) (more : Nat) : ∀ fuel placed (frontier : Frontier),
    graph.Tracks placed (graph.unmetEdges placed) frontier →
    graph.nodes.length ≤ fuel + placed.length → placed.Nodup →
    (∀ node ∈ placed, node ∈ graph.nodes) →
    graph.place (fuel + more) frontier = graph.place fuel frontier := by
  -- The induction is on the fuel that is needed; without any, the sort is at its end.
  intro fuel
  induction fuel with
  | zero =>
    intro placed frontier tracks enough distinct inside
    have none_ := tracks.ready_eq_nil (mem_of_length_le distinct inside (by omega))
    rw [place_of_ready_nil graph none_, place_of_ready_nil graph none_]
  | succ fuel ih =>
    intro placed frontier tracks enough distinct inside
    cases ready : frontier.ready with
    | nil => rw [place_of_ready_nil graph ready, place_of_ready_nil graph ready]
    | cons node rest =>
      -- The node in front is placed by both, and the rest is sorted with one turn less.
      obtain ⟨known, notPlaced, _⟩ := (tracks.ready node).mp (by rw [ready]; simp)
      have later := ih (node :: placed) _ (tracks.next sound ready)
        (by simp only [List.length_cons]; omega) (List.nodup_cons.mpr ⟨notPlaced, distinct⟩)
        (List.forall_mem_cons.mpr ⟨known, inside⟩)
      rw [Nat.succ_add]
      simp only [Graph.place, ready, later]

/-- What placing ready nodes comes to: an order in which they follow those they depend on, and
nothing that could still be placed. -/
theorem Sound.place (sound : graph.Sound) : ∀ fuel placed (frontier : Frontier),
    graph.Tracks placed (graph.unmetEdges placed) frontier →
    graph.nodes.length ≤ fuel + placed.length → placed.Nodup →
    (∀ node ∈ placed, node ∈ graph.nodes) →
    let result := graph.place fuel frontier
    Follows graph.edges placed result.1 ∧ (result.1.reverse ++ placed).Nodup ∧
      (∀ node ∈ result.1, node ∈ graph.nodes) ∧
      graph.Tracks (result.1.reverse ++ placed) (graph.unmetEdges (result.1.reverse ++ placed))
        ⟨result.2, []⟩ := by
  -- The induction is on the fuel, which is no less than the number of nodes left to place.
  intro fuel
  induction fuel with
  | zero =>
    intro placed frontier tracks enough distinct inside
    -- All nodes are placed, so that none is ready.
    have none_ := tracks.ready_eq_nil (mem_of_length_le distinct inside (by omega))
    refine ⟨trivial, distinct, by simp [Graph.place], tracks.unmet, ?_, List.nodup_nil, tracks.met⟩
    rw [← none_]
    exact tracks.ready
  | succ fuel ih =>
    intro placed frontier tracks enough distinct inside
    unfold Graph.place
    cases ready : frontier.ready with
    | nil =>
      -- Nothing is ready, so the sort ends here.
      have none_ := tracks.ready
      rw [ready] at none_
      exact ⟨trivial, distinct, by simp, tracks.unmet, none_, List.nodup_nil, tracks.met⟩
    | cons node rest =>
      obtain ⟨known, notPlaced, free⟩ := (tracks.ready node).mp (by rw [ready]; simp)
      obtain ⟨follows, orderDistinct, orderInside, rest_⟩ :=
        ih (node :: placed) _ (tracks.next sound ready)
          (by simp only [List.length_cons]; omega) (List.nodup_cons.mpr ⟨notPlaced, distinct⟩)
          (List.forall_mem_cons.mpr ⟨known, inside⟩)
      have shape (order : List String) :
          (node :: order).reverse ++ placed = order.reverse ++ node :: placed := by simp
      dsimp only
      rw [shape]
      refine ⟨⟨notPlaced, fun edge member here => ?_, follows⟩, orderDistinct,
        List.forall_mem_cons.mpr ⟨known, orderInside⟩, rest_⟩
      -- An edge into a ready node that comes from elsewhere would be pending.
      by_contra unmet
      have counted := List.countP_eq_zero.mp free edge
        (List.mem_filter.mpr ⟨member, by simpa using unmet⟩)
      exact counted (by simpa using here)

/-- The nodes that still wait for some edge to be met. -/
def waiting (graph : Graph ν) (unmet : NameTable Int) : List String :=
  graph.nodes.filter fun node => 0 < (unmet.get? node).getD 0

/-- Where no node is ready, just those nodes wait that have not been placed. -/
theorem Tracks.mem_waiting {placed : List String} {unmet : NameTable Int} {node : String}
    (tracks : graph.Tracks placed (graph.unmetEdges placed) ⟨unmet, []⟩) :
    node ∈ graph.waiting unmet ↔ node ∈ graph.nodes ∧ node ∉ placed := by
  rw [waiting, List.mem_filter]
  -- With none ready, a node has all its edges met just when it is placed.
  refine and_congr_right fun known => ?_
  rw [show unmet.get? node = _ from tracks.unmet node known]
  simp only [Option.getD_some, decide_eq_true_eq, Int.natCast_pos]
  constructor
  · intro pending isPlaced
    exact pending.ne' (tracks.met node isPlaced)
  · intro unplaced
    refine Nat.pos_of_ne_zero fun free => ?_
    simpa using (tracks.ready node).mpr ⟨known, unplaced, free⟩

/-- Each node that waits does so for an edge from another one that does. -/
theorem Tracks.exists_waiting (sound : graph.Sound) {placed : List String}
    {unmet : NameTable Int} (tracks : graph.Tracks placed (graph.unmetEdges placed) ⟨unmet, []⟩)
    {node : String} (member : node ∈ graph.waiting unmet) :
    ∃ edge ∈ graph.edges, edge.destination = node ∧ edge.source ∈ graph.waiting unmet := by
  -- A node that is neither placed nor ready has an edge that is still pending.
  obtain ⟨known, unplaced⟩ := tracks.mem_waiting.mp member
  have pending : 0 < entering (graph.unmetEdges placed) node :=
    Nat.pos_of_ne_zero fun free => by
      simpa using (tracks.ready node).mpr ⟨known, unplaced, free⟩
  obtain ⟨edge, isUnmet, here⟩ := List.countP_pos_iff.mp pending
  obtain ⟨edgeMember, sourceUnplaced⟩ := List.mem_filter.mp isUnmet
  exact ⟨edge, edgeMember, by simpa using here, tracks.mem_waiting.mpr
    ⟨sound.source edge edgeMember, by simpa using sourceUnplaced⟩⟩

/-- Walking against the edges among nodes that all have one entering them ends with a cycle. -/
theorem exists_walkBack {remaining : List String}
    (inside : ∀ node ∈ remaining, node ∈ graph.nodes)
    (entered : ∀ node ∈ remaining, ∃ edge ∈ graph.edges,
      edge.destination = node ∧ edge.source ∈ remaining) :
    ∀ fuel trail node, node ∈ remaining → trail.Nodup → (∀ other ∈ trail, other ∈ remaining) →
      graph.nodes.length + 1 ≤ fuel + trail.length →
      (∃ walk finish, (∀ edge ∈ walk, edge ∈ graph.edges) ∧ Leads node walk finish ∧
        walk.map (·.destination) = trail) →
      ∃ cycle, Cycle graph.edges cycle ∧
        graph.walkBack remaining fuel trail node = .ok (cycle.map (·.source)) := by
  -- The induction is on the fuel: with each step the trail gets longer by a new node.
  intro fuel
  induction fuel with
  | zero =>
    intro trail node _ distinct trailInside enough _
    -- The trail cannot be longer than there are nodes.
    have short := (List.subperm_of_subset distinct fun other member =>
      inside other (trailInside other member)).length_le
    omega
  | succ fuel ih =>
    intro trail node member distinct trailInside enough walked
    obtain ⟨walk, finish, within, leads, rfl⟩ := walked
    unfold Graph.walkBack
    by_cases again : node ∈ walk.map (·.destination)
    · -- The node came up before, so the walk from it leads back to it.
      obtain ⟨cycle, isCycle, names⟩ := leads.exists_cycle_upTo within distinct again
      rw [if_pos (by simpa using again)]
      exact ⟨cycle, isCycle, congrArg Except.ok names.symm⟩
    · rw [if_neg (by simpa using again)]
      cases found : (graph.predecessors node).find? fun edge => remaining.contains edge.source with
      | none =>
        -- Some edge enters the node from a remaining one, so the search finds one.
        obtain ⟨edge, edgeMember, here, from_⟩ := entered node member
        have refused := List.find?_eq_none.mp found edge
          (List.mem_filter.mpr ⟨edgeMember, by simpa using here⟩)
        simp [from_] at refused
      | some edge =>
        obtain ⟨edgeMember, here⟩ := List.mem_filter.mp (List.mem_of_find?_eq_some found)
        have into : edge.destination = node := by simpa using here
        have from_ : edge.source ∈ remaining := by simpa using List.find?_some found
        exact ih (node :: walk.map (·.destination)) edge.source from_
          (List.nodup_cons.mpr ⟨again, distinct⟩)
          (List.forall_mem_cons.mpr ⟨member, trailInside⟩)
          (by simp only [List.length_cons]; omega)
          ⟨edge :: walk, finish, List.forall_mem_cons.mpr ⟨edgeMember, within⟩,
            ⟨rfl, into ▸ leads⟩, by rw [List.map_cons, into]⟩

/-- The sort gives an order of all nodes in which each follows those it depends on, or names a cycle
where there is one. -/
theorem Sound.topologicalOrder (sound : graph.Sound) :
    (∃ order, graph.topologicalOrder = .ok order ∧ order.Perm graph.nodes ∧
      Follows graph.edges [] order) ∨
    ∃ cycle, Cycle graph.edges cycle ∧
      graph.topologicalOrder = .error (.cyclicDependence (cycle.map (·.source))) := by
  have all : graph.unmetEdges [] = graph.edges := by simp [unmetEdges]
  -- As many rounds as there are nodes place all that can be placed.
  obtain ⟨follows, distinct, inside, tracks⟩ := sound.place graph.nodes.length []
    graph.initialFrontier (all.symm ▸ sound.tracks_initialFrontier) (by simp) List.nodup_nil
    (by simp)
  simp only [List.append_nil, List.nodup_reverse] at follows distinct inside tracks
  unfold Graph.topologicalOrder
  generalize graph.place graph.nodes.length graph.initialFrontier = result at *
  obtain ⟨order, unmet⟩ := result
  dsimp only at follows distinct inside tracks ⊢
  have part := List.subperm_of_subset distinct inside
  by_cases complete : order.length = graph.nodes.length
  · -- As many distinct nodes as there are must be all of them.
    rw [if_pos complete]
    exact Or.inl ⟨order, rfl, part.perm_of_length_le complete.ge, follows⟩
  · rw [if_neg complete]
    right
    -- Otherwise some node is left over.
    obtain ⟨node, known, unplaced⟩ : ∃ node ∈ graph.nodes, node ∉ order := by
      by_contra everything
      simp only [not_exists, not_and, not_not] at everything
      have whole := (List.subperm_of_subset sound.distinct everything).length_le
      have short := part.length_le
      omega
    have waits : node ∈ graph.waiting unmet :=
      tracks.mem_waiting.mpr ⟨known, by simpa using unplaced⟩
    -- Some node waits, and from there a walk back through those that wait runs into a cycle.
    show ∃ cycle, Cycle graph.edges cycle ∧ (do
      let cycle ← graph.cycleWithin (graph.waiting unmet)
      .error (.cyclicDependence cycle) : Except Fault (List String)) =
        .error (.cyclicDependence (cycle.map (·.source)))
    cases remaining : graph.waiting unmet with
    | nil => simp [remaining] at waits
    | cons first rest =>
      obtain ⟨cycle, isCycle, found⟩ := exists_walkBack
        (fun node member => (tracks.mem_waiting.mp member).1)
        (fun node => tracks.exists_waiting sound) (graph.nodes.length + 1) [] first
        (by simp [remaining]) List.nodup_nil (by simp) (by simp) ⟨[], first, by simp, rfl, rfl⟩
      refine ⟨cycle, isCycle, ?_⟩
      rw [remaining] at found
      rw [Graph.cycleWithin, found, ok_bind]

end CycleSchedule.Graph
