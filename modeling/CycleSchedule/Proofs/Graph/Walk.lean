import CycleSchedule.Problem.Basic
import Mathlib.Algebra.BigOperators.Group.List.Lemmas
import Mathlib.Algebra.Order.BigOperators.Group.List
import Mathlib.Algebra.Order.Ring.Int
import Mathlib.Data.List.Nodup
import Mathlib.Data.List.Perm.Subperm
import Mathlib.Data.Int.LeastGreatest
import Mathlib.Tactic.Linarith
import Mathlib.Tactic.Ring

/-! Walks along dependences, the cycles among them, and levels that no edge exceeds. -/

namespace CycleSchedule

variable {ν : Type} {start finish middle : String} {walk first second : List (Dependence ν)}
  {edges : List (Dependence ν)}

/-- Edges that lead from one node to another, each on from where the one before it has led. -/
def Leads (start : String) : List (Dependence ν) → String → Prop
  | [], finish => start = finish
  | edge :: walk, finish => edge.source = start ∧ Leads edge.destination walk finish

/-- The empty walk leads from a node to itself only. -/
@[simp] theorem leads_nil : Leads start ([] : List (Dependence ν)) finish ↔ start = finish :=
  Iff.rfl

/-- A walk starts where its first edge does and goes on from where that edge ends. -/
@[simp] theorem leads_cons {edge : Dependence ν} :
    Leads start (edge :: walk) finish ↔
      edge.source = start ∧ Leads edge.destination walk finish := Iff.rfl

/-- A walk in two parts leads over the node between them. -/
theorem leads_append :
    Leads start (first ++ second) finish ↔
      ∃ middle, Leads start first middle ∧ Leads middle second finish := by
  -- By induction on the first part, for every node it may start from.
  induction first generalizing start with
  | nil => simp
  | cons edge first ih => simp [ih, and_assoc]

/-- A walk to a node and a walk from it join to one walk. -/
theorem Leads.append (before : Leads start first middle) (after : Leads middle second finish) :
    Leads start (first ++ second) finish :=
  leads_append.mpr ⟨middle, before, after⟩

/-- The nodes that a walk leaves, with its end after them, are those that it enters, with its start
before them. -/
theorem Leads.sources_append (leads : Leads start walk finish) :
    walk.map (·.source) ++ [finish] = start :: walk.map (·.destination) := by
  -- Each edge leaves the node that the one before it has entered.
  induction walk generalizing start with
  | nil => simpa using (leads_nil.mp leads).symm
  | cons edge walk ih =>
    obtain ⟨rfl, rest⟩ := leads_cons.mp leads
    rw [List.map_cons, List.map_cons, List.cons_append, ih rest]

/-- A walk that leaves a node twice runs in a loop between the two times. -/
theorem Leads.exists_loop (leads : Leads start walk finish)
    (repeats : ¬(walk.map (·.source)).Nodup) :
    ∃ before loop after node, walk = before ++ loop ++ after ∧ loop ≠ [] ∧ after ≠ [] ∧
      Leads start before node ∧ Leads node loop node ∧ Leads node after finish := by
  -- By induction on the walk: either its first node comes again, or the repetition is later.
  induction walk generalizing start with
  | nil => simp at repeats
  | cons edge walk ih =>
    obtain ⟨same, rest⟩ := leads_cons.mp leads
    by_cases again : edge.source ∈ walk.map (·.source)
    · -- The walk comes back to the node that its first edge leaves.
      obtain ⟨other, member, otherSame⟩ := List.mem_map.mp again
      obtain ⟨before, after, rfl⟩ := List.append_of_mem member
      obtain ⟨node, toNode, fromNode⟩ := leads_append.mp rest
      have here : node = start := (leads_cons.mp fromNode).1.symm.trans (otherSame.trans same)
      subst here
      exact ⟨[], edge :: before, other :: after, node, by simp, by simp, by simp, rfl,
        ⟨same, toNode⟩, fromNode⟩
    · -- The loop is in the rest of the walk, which the first edge leads to.
      have later : ¬(walk.map (·.source)).Nodup := fun distinct =>
        repeats (List.nodup_cons.mpr ⟨again, distinct⟩)
      obtain ⟨before, loop, after, node, rfl, some_, more, toNode, around, fromNode⟩ :=
        ih rest later
      exact ⟨edge :: before, loop, after, node, by simp, some_, more, ⟨same, toNode⟩, around,
        fromNode⟩

/-- A walk that comes to a node twice, its end included, runs in a loop between the two times. -/
theorem Leads.exists_detour (leads : Leads start walk finish)
    (repeats : ¬(walk.map (·.source) ++ [finish]).Nodup) :
    ∃ before loop after node, walk = before ++ loop ++ after ∧ loop ≠ [] ∧
      Leads start before node ∧ Leads node loop node ∧ Leads node after finish := by
  cases walk with
  | nil => simp at repeats
  | cons edge walk =>
    -- With one more edge from the end to itself, the walk leaves that node as well.
    let closing : Dependence ν := ⟨finish, finish, edge.distance⟩
    have closed : Leads finish [closing] finish := ⟨rfl, rfl⟩
    obtain ⟨before, loop, after, node, same, some_, more, toNode, around, fromNode⟩ :=
      (leads.append closed).exists_loop (by simpa [closing] using repeats)
    -- The added edge is the last one after the loop.
    obtain ⟨rest, last, rfl⟩ := (List.eq_nil_or_concat' after).resolve_left more
    rw [← List.append_assoc] at same
    obtain ⟨parts, lastSame⟩ := List.append_inj' same rfl
    obtain ⟨middle, toEnd, fromEnd⟩ := leads_append.mp fromNode
    rw [← lastSame, leads_cons] at fromEnd
    have isEnd : finish = middle := fromEnd.1
    exact ⟨before, loop, rest, node, parts, some_, toNode, around, isEnd ▸ toEnd⟩

/-- Edges that lead back to where they start and leave no node twice. -/
structure Cycle (edges walk : List (Dependence ν)) : Prop where
  nonempty : walk ≠ []
  within : ∀ edge ∈ walk, edge ∈ edges
  closed : ∃ node, Leads node walk node
  distinct : (walk.map (·.source)).Nodup

/-- Whether some edges lead back to where they start. -/
def HasCycle (edges : List (Dependence ν)) : Prop := ∃ walk, Cycle edges walk

/-- A cycle stays one among more edges. -/
theorem Cycle.mono {others : List (Dependence ν)} {walk : List (Dependence ν)}
    (cycle : Cycle edges walk) (subset : edges ⊆ others) : Cycle others walk :=
  ⟨cycle.nonempty, fun edge member => subset (cycle.within edge member), cycle.closed,
    cycle.distinct⟩

/-- An edge that leads back to where it starts is a cycle. -/
theorem hasCycle_of_loop {edge : Dependence ν} (member : edge ∈ edges)
    (loop : edge.destination = edge.source) : HasCycle edges :=
  ⟨[edge], by simp, by simpa using member, ⟨edge.source, rfl, loop⟩, by simp⟩

/-- A walk that comes back and enters no node twice is a cycle, told from where its first edge
leads. -/
theorem Leads.exists_cycle_of_entered (closed : Leads start walk start) (nonempty : walk ≠ [])
    (within : ∀ edge ∈ walk, edge ∈ edges) (distinct : (walk.map (·.destination)).Nodup) :
    ∃ cycle, Cycle edges cycle ∧ cycle.map (·.source) = walk.map (·.destination) := by
  obtain ⟨edge, rest, rfl⟩ := List.exists_cons_of_ne_nil nonempty
  obtain ⟨here, back⟩ := leads_cons.mp closed
  -- With its first edge put last, the walk leaves the nodes that it entered before.
  have names : (rest ++ [edge]).map (·.source) = (edge :: rest).map (·.destination) := by
    rw [List.map_append, List.map_singleton, here, back.sources_append, List.map_cons]
  refine ⟨rest ++ [edge], ⟨by simp, fun other member => within other ?_,
    ⟨edge.destination, back.append ⟨here, rfl⟩⟩, names ▸ distinct⟩, names⟩
  simpa [or_comm] using member

/-- Where a walk that enters no node twice comes to its start again, the part of it up to there is a
cycle, told from where the first edge leads. -/
theorem Leads.exists_cycle_upTo (leads : Leads start walk finish)
    (within : ∀ edge ∈ walk, edge ∈ edges) (distinct : (walk.map (·.destination)).Nodup)
    (again : start ∈ walk.map (·.destination)) :
    ∃ cycle, Cycle edges cycle ∧ cycle.map (·.source) =
      (walk.map (·.destination)).takeWhile (· ≠ start) ++ [start] := by
  -- The edge that first enters the start again closes the cycle.
  obtain ⟨edge, member, here⟩ := List.mem_map.mp again
  obtain ⟨before, after, rfl⟩ := List.append_of_mem member
  obtain ⟨middle, toEdge, fromEdge⟩ := leads_append.mp leads
  have closed : Leads start (before ++ [edge]) start :=
    toEdge.append ⟨(leads_cons.mp fromEdge).1, here⟩
  rw [List.map_append, List.map_cons, here] at distinct ⊢
  -- No edge before this one has entered the start.
  have first : ∀ name ∈ before.map (·.destination), name ≠ start := fun name isBefore same =>
    (List.nodup_append.mp distinct).2.2 name isBefore start (by simp) same
  have entered : (before ++ [edge]).map (·.destination) =
      (before.map (·.destination) ++ start :: after.map (·.destination)).takeWhile (· ≠ start) ++
        [start] := by
    rw [List.takeWhile_append_of_pos fun name isBefore => by simpa using first name isBefore,
      List.takeWhile_cons_of_neg (by simp), List.append_nil, List.map_append, List.map_singleton,
      here]
  rw [← entered]
  refine closed.exists_cycle_of_entered (by simp) (fun other inside => within other ?_) ?_
  · simp only [List.mem_append, List.mem_cons] at inside ⊢
    tauto
  · rw [List.map_append, List.map_singleton, here]
    exact distinct.sublist ((List.Sublist.refl _).append (by simp))

/-- Whether some edge leads from one name to another. -/
def Joins (edges : List (Dependence ν)) (source destination : String) : Prop :=
  ∃ edge ∈ edges, edge.source = source ∧ edge.destination = destination

/-- Distinct names, each joined to the next one by an edge, and the last one to the first. -/
structure Tour (edges : List (Dependence ν)) (names : List String) : Prop where
  nonempty : names ≠ []
  distinct : names.Nodup
  joined : (names ++ names.take 1).IsChain (Joins edges)

/-- The names along a walk are joined one to the next. -/
theorem Leads.isChain (leads : Leads start walk finish) (within : ∀ edge ∈ walk, edge ∈ edges) :
    (walk.map (·.source) ++ [finish]).IsChain (Joins edges) := by
  -- By induction on the walk; its first edge joins its start to what the others lead on from.
  induction walk generalizing start with
  | nil => simp
  | cons edge walk ih =>
    obtain ⟨rfl, rest⟩ := leads_cons.mp leads
    obtain ⟨here, later⟩ := List.forall_mem_cons.mp within
    rw [List.map_cons, List.cons_append, List.isChain_cons]
    refine ⟨fun next isNext => ?_, ih rest later⟩
    rw [rest.sources_append, List.head?_cons, Option.mem_some_iff] at isNext
    exact ⟨edge, here, rfl, isNext⟩

/-- A cycle goes round the nodes that it leaves. -/
theorem Cycle.tour (cycle : Cycle edges walk) : Tour edges (walk.map (·.source)) := by
  obtain ⟨node, closed⟩ := cycle.closed
  refine ⟨by simpa using cycle.nonempty, cycle.distinct, ?_⟩
  -- The first node that is left is the one that the walk comes back to.
  have first : (walk.map (·.source)).take 1 = [node] := by
    obtain ⟨edge, rest, rfl⟩ := List.exists_cons_of_ne_nil cycle.nonempty
    simpa using (leads_cons.mp closed).1
  rw [first]
  exact closed.isChain cycle.within

/-- What the edges of a walk weigh together. -/
def weight (value : Dependence ν → Int) (walk : List (Dependence ν)) : Int :=
  (walk.map value).sum

/-- The empty walk has no weight. -/
@[simp] theorem weight_nil (value : Dependence ν → Int) : weight value [] = 0 := rfl

/-- The first edge of a walk adds its value. -/
@[simp] theorem weight_cons (value : Dependence ν → Int) (edge : Dependence ν)
    (walk : List (Dependence ν)) :
    weight value (edge :: walk) = value edge + weight value walk := by
  simp [weight]

/-- Joined walks have the sum of their weights. -/
@[simp] theorem weight_append (value : Dependence ν → Int) (first second : List (Dependence ν)) :
    weight value (first ++ second) = weight value first + weight value second := by
  simp [weight]

/-- Multiples of two values weigh as many times what the values do. -/
theorem weight_sub_mul (first second : Int) (value other : Dependence ν → Int)
    (walk : List (Dependence ν)) :
    weight (fun edge => first * value edge - second * other edge) walk =
      first * weight value walk - second * weight other walk := by
  induction walk with
  | nil => simp
  | cons edge walk ih =>
    -- Edge by edge the sum is split.
    rw [weight_cons, weight_cons, weight_cons, ih]
    ring

/-- A walk that comes back with a positive weight runs through a cycle of positive weight. -/
theorem Leads.exists_cycle (value : Dependence ν → Int) (closed : Leads start walk start)
    (within : ∀ edge ∈ walk, edge ∈ edges) (positive : 0 < weight value walk) :
    ∃ cycle, Cycle edges cycle ∧ 0 < weight value cycle := by
  -- The induction is on the length: a loop can be taken out, and it or the rest is positive.
  induction length : walk.length using Nat.strong_induction_on generalizing start walk with
  | _ size ih =>
    by_cases distinct : (walk.map (·.source)).Nodup
    · -- A walk that leaves no node twice is a cycle itself, once it has an edge.
      refine ⟨walk, ⟨?_, within, ⟨start, closed⟩, distinct⟩, positive⟩
      rintro rfl
      exact lt_irrefl _ positive
    · obtain ⟨before, loop, after, node, rfl, some_, more, toNode, around, fromNode⟩ :=
        closed.exists_loop distinct
      have loopLength := List.length_pos_of_ne_nil some_
      have afterLength := List.length_pos_of_ne_nil more
      simp only [List.length_append] at length
      simp only [weight_append] at positive
      simp only [List.mem_append] at within
      -- The loop and the rest are both shorter walks that come back.
      by_cases loopPositive : 0 < weight value loop
      · exact ih loop.length (by omega) around
          (fun edge member => within edge (Or.inl (Or.inr member))) loopPositive rfl
      · -- If the loop adds nothing, all of the weight is in the rest.
        refine ih (before ++ after).length (by simp only [List.length_append]; omega)
          (toNode.append fromNode) (fun edge member => within edge ?_) ?_ rfl
        · rcases List.mem_append.mp member with early | late
          · exact Or.inl (Or.inl early)
          · exact Or.inr late
        · rw [weight_append]
          omega

/-- A walk that comes back runs through a cycle. -/
theorem Leads.exists_cycle_of_closed (closed : Leads start walk start) (nonempty : walk ≠ [])
    (within : ∀ edge ∈ walk, edge ∈ edges) : HasCycle edges := by
  -- With one for the weight of each edge, any walk that has edges is positive.
  obtain ⟨cycle, isCycle, _⟩ := closed.exists_cycle (fun _ => 1) within (by
    have length := List.length_pos_of_ne_nil nonempty
    simpa [weight] using length)
  exact ⟨cycle, isCycle⟩

/-- A cycle of positive weight has an edge of positive weight, from which a walk leads back. -/
theorem Cycle.exists_back {value : Dependence ν → Int} (cycle : Cycle edges walk)
    (positive : 0 < weight value walk) :
    ∃ edge ∈ edges, 0 < value edge ∧ ∃ back, (∀ other ∈ back, other ∈ edges) ∧
      Leads edge.destination back edge.source := by
  -- Edges that all weigh nothing at most cannot weigh something together.
  obtain ⟨edge, member, heavy⟩ : ∃ edge ∈ walk, 0 < value edge :=
    List.exists_lt_of_sum_lt (fun _ => 0) value (by simpa [weight] using positive)
  obtain ⟨before, after, rfl⟩ := List.append_of_mem member
  obtain ⟨node, closed⟩ := cycle.closed
  obtain ⟨middle, toEdge, fromEdge⟩ := leads_append.mp closed
  obtain ⟨rfl, rest⟩ := leads_cons.mp fromEdge
  -- The walk goes on from the edge to where it started, and from there to the edge again.
  refine ⟨edge, cycle.within edge member, heavy, after ++ before, fun other inside => ?_,
    rest.append toEdge⟩
  refine cycle.within other ?_
  simp only [List.mem_append, List.mem_cons] at inside ⊢
  tauto

/-- Levels that rise along each edge by its weight at least rise along each walk by its weight. -/
theorem Leads.weight_le (value : Dependence ν → Int) (level : String → Rat)
    (rises : ∀ edge ∈ edges, level edge.source + value edge ≤ level edge.destination)
    (leads : Leads start walk finish) (within : ∀ edge ∈ walk, edge ∈ edges) :
    level start + weight value walk ≤ level finish := by
  -- Each edge adds its weight, and the level rises by that at least.
  induction walk generalizing start with
  | nil =>
    rw [leads_nil.mp leads]
    simp
  | cons edge walk ih =>
    obtain ⟨rfl, rest⟩ := leads_cons.mp leads
    have step := rises edge (within edge (by simp))
    have later := ih rest fun other member => within other (List.mem_cons_of_mem _ member)
    rw [weight_cons]
    push_cast
    linarith

/-- Levels that rise along each edge by its weight at least leave no weight to a cycle. -/
theorem Cycle.weight_nonpos {value : Dependence ν → Int} (level : String → Rat)
    (rises : ∀ edge ∈ edges, level edge.source + value edge ≤ level edge.destination)
    (cycle : Cycle edges walk) : weight value walk ≤ 0 := by
  -- Along the cycle the level rises by its weight, and yet ends where it began.
  obtain ⟨node, closed⟩ := cycle.closed
  have risen := closed.weight_le value level rises cycle.within
  have light : (weight value walk : Rat) ≤ 0 := by linarith
  exact_mod_cast light

/-- Some of all items, each of them once, come to no more than all items do. -/
theorem sum_map_le_of_subset {α : Type} {items all : List α} {size : α → Int}
    (distinct : items.Nodup) (inside : items ⊆ all) (nonneg : ∀ item ∈ all, 0 ≤ size item) :
    (items.map size).sum ≤ (all.map size).sum := by
  -- Different items are part of all items in another order.
  obtain ⟨part, same, sub⟩ := List.subperm_of_subset distinct inside
  calc (items.map size).sum = (part.map size).sum := ((same.map size).sum_eq).symm
    _ ≤ (all.map size).sum := (sub.map size).sum_le_sum fun _ member => by
        obtain ⟨item, itemMember, rfl⟩ := List.mem_map.mp member
        exact nonneg item itemMember

/-- A walk that leaves no node twice weighs no more than all edges do. -/
theorem weight_le_of_distinct {value : Dependence ν → Int} (within : ∀ edge ∈ walk, edge ∈ edges)
    (distinct : (walk.map (·.source)).Nodup) : weight value walk ≤ weight (|value ·|) edges :=
  -- Different sources mean different edges.
  calc weight value walk ≤ weight (|value ·|) walk := List.sum_le_sum fun _ _ => le_abs_self _
    _ ≤ weight (|value ·|) edges :=
        sum_map_le_of_subset distinct.of_map within fun _ _ => abs_nonneg _

/-- Without cycles of positive weight, a walk that is no lighter comes to no node twice. -/
theorem Leads.exists_simple {value : Dependence ν → Int}
    (none_ : ∀ cycle, Cycle edges cycle → weight value cycle ≤ 0) (leads : Leads start walk finish)
    (within : ∀ edge ∈ walk, edge ∈ edges) :
    ∃ simple, (∀ edge ∈ simple, edge ∈ edges) ∧ Leads start simple finish ∧
      (simple.map (·.source) ++ [finish]).Nodup ∧ weight value walk ≤ weight value simple := by
  -- The induction is on the length: without one of its loops a walk is shorter and no lighter.
  induction length : walk.length using Nat.strong_induction_on generalizing walk with
  | _ size ih =>
    by_cases distinct : (walk.map (·.source) ++ [finish]).Nodup
    · exact ⟨walk, within, leads, distinct, le_rfl⟩
    · obtain ⟨before, loop, after, node, rfl, some_, toNode, around, fromNode⟩ :=
        leads.exists_detour distinct
      have loopLength := List.length_pos_of_ne_nil some_
      simp only [List.length_append] at length
      simp only [List.mem_append] at within
      -- A loop that weighs something would run through a cycle that does.
      have loopLight : weight value loop ≤ 0 := by
        by_contra positive
        obtain ⟨cycle, isCycle, heavy⟩ := around.exists_cycle value
          (fun edge member => within edge (Or.inl (Or.inr member))) (not_le.mp positive)
        exact absurd (none_ cycle isCycle) (not_le.mpr heavy)
      obtain ⟨simple, inside, simpleLeads, simpleDistinct, heavier⟩ :=
        ih (before ++ after).length (by simp only [List.length_append]; omega)
          (toNode.append fromNode) (fun edge member => by
            rcases List.mem_append.mp member with early | late
            · exact within edge (Or.inl (Or.inl early))
            · exact within edge (Or.inr late)) rfl
      refine ⟨simple, inside, simpleLeads, simpleDistinct, ?_⟩
      simp only [weight_append] at heavier ⊢
      omega

/-- Without cycles of positive weight, no walk weighs more than all edges do. -/
theorem Leads.weight_le_of_no_cycle {value : Dependence ν → Int}
    (none_ : ∀ cycle, Cycle edges cycle → weight value cycle ≤ 0) (leads : Leads start walk finish)
    (within : ∀ edge ∈ walk, edge ∈ edges) : weight value walk ≤ weight (|value ·|) edges := by
  obtain ⟨simple, inside, _, distinct, heavier⟩ := leads.exists_simple none_ within
  exact heavier.trans (weight_le_of_distinct inside (List.nodup_append.mp distinct).1)

/-- Whether some walk of a given weight leads to a node. -/
def Arrives (edges : List (Dependence ν)) (value : Dependence ν → Int) (node : String)
    (total : Int) : Prop :=
  ∃ start walk, (∀ edge ∈ walk, edge ∈ edges) ∧ Leads start walk node ∧ weight value walk = total

section Arrives

variable {value : Dependence ν → Int} {node : String} {total : Int}

/-- Every node is reached with weight 0, by the empty walk. -/
theorem arrives_zero : Arrives edges value node 0 := ⟨node, [], by simp, rfl, rfl⟩

/-- A walk to the source of an edge goes on over the edge. -/
theorem Arrives.step {edge : Dependence ν} (arrives : Arrives edges value edge.source total)
    (member : edge ∈ edges) : Arrives edges value edge.destination (total + value edge) := by
  obtain ⟨start, walk, within, leads, rfl⟩ := arrives
  refine ⟨start, walk ++ [edge], ?_, leads.append ⟨rfl, rfl⟩, by simp⟩
  exact List.forall_mem_append.mpr ⟨within, List.forall_mem_singleton.mpr member⟩

/-- Without cycles of positive weight some walk to a node is the heaviest one. -/
theorem exists_greatest_arrives (none_ : ∀ cycle, Cycle edges cycle → weight value cycle ≤ 0)
    (node : String) :
    ∃ top, Arrives edges value node top ∧
      ∀ total, Arrives edges value node total → total ≤ top := by
  -- All weights that arrive are bounded by the sizes of the edges together, and zero arrives.
  refine Int.exists_greatest_of_bdd ⟨weight (|value ·|) edges, ?_⟩ ⟨0, arrives_zero⟩
  rintro _ ⟨start, walk, within, leads, rfl⟩
  exact leads.weight_le_of_no_cycle none_ within

end Arrives

/-- Without cycles of positive weight there are levels that rise along each edge by its weight. -/
theorem exists_levels {value : Dependence ν → Int}
    (none_ : ∀ cycle, Cycle edges cycle → weight value cycle ≤ 0) :
    ∃ level : String → Int, (∀ node, 0 ≤ level node) ∧
      ∀ edge ∈ edges, level edge.source + value edge ≤ level edge.destination := by
  -- The level of a node is the greatest weight of a walk that leads to it.
  choose level attained greatest using exists_greatest_arrives none_
  refine ⟨level, fun node => greatest node 0 arrives_zero, fun edge member => ?_⟩
  exact greatest edge.destination _ ((attained edge.source).step member)

end CycleSchedule
